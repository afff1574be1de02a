import Bulwark.Proofs.Limiter.Conservation
import Bulwark.Proofs.Store.Alike

/-!
# Decisions do not depend on the schedule

While every call of the store gets through, the drains may run whenever they like: two runs that
make the same moves but for steps of drains record the same decisions (`run_alike`).  Limiters never
ask for shared statistics to decide, and drains write nothing else, so the invariant of the two runs
is that their stores agree off the shared statistics and their limiters have the same breakers.
-/

namespace Bulwark

/-! ## Calls of limiters -/

namespace Limiter

variable {α : Type} {keyPrefix : String} {s s' t : Session}

/-- Sessions in which a limiter decides the same. -/
structure Alike (keyPrefix : String) (s s' : Session) : Prop where
  gate : Gate.Alike (IsStatistics keyPrefix) s.gate s'.gate
  breaker : s.breaker = s'.breaker

theorem Alike.symm (h : Alike keyPrefix s s') : Alike keyPrefix s' s :=
  ⟨h.gate.symm, h.breaker.symm⟩

theorem Alike.trans (h : Alike keyPrefix s s') (h' : Alike keyPrefix s' t) :
    Alike keyPrefix s t := ⟨h.gate.trans h'.gate, h.breaker.trans h'.breaker⟩

/-- A call about a key off the shared statistics. -/
theorem Alike.callStore (h : Alike keyPrefix s s') {β : Type} {key : String}
    {operation : Store → Store.Result β} (hacts : Store.ActsOn key operation)
    (hkey : ¬ IsStatistics keyPrefix key) :
    (callStore operation s).1 = (callStore operation s').1 ∧
      Alike keyPrefix (callStore operation s).2 (callStore operation s').2 :=
  let ⟨hanswer, hgate⟩ := h.gate.call hacts hkey
  ⟨hanswer, hgate, h.breaker⟩

/-- Reading a count of the shared statistics. -/
theorem readCount_alike (now : Instant) (kind : DimensionKind) (field : String)
    (h : s.gate.IsOpen) :
    Alike keyPrefix s (readCount now (statisticsKey keyPrefix kind) field s).2 := by
  have hcall : Alike keyPrefix s
      (Limiter.callStore (·.hashGet now (statisticsKey keyPrefix kind) field) s).2 :=
    ⟨h.alike_call (Store.hashGet_actsOn now _ field) (isStatistics keyPrefix kind), rfl⟩
  unfold readCount
  rw [bind_apply]
  generalize Limiter.callStore _ s = r at hcall ⊢
  obtain ⟨_ | text, t⟩ := r
  · exact hcall
  · exact hcall

/-- Reading the shared statistics. -/
theorem sharedStatistics_alike (now : Instant) (kind : DimensionKind) (h : s.gate.IsOpen) :
    Alike keyPrefix s (sharedStatistics keyPrefix now kind s).2 :=
  sharedStatistics_rel (r := fun s t => s.gate.IsOpen → Alike keyPrefix s t)
    (fun field _ => readCount_alike now kind field)
    (fun hfirst hlast hopen => (hfirst hopen).trans (hlast (hfirst hopen).gate.isOpen')) s h

/-- A step of a drain. -/
theorem drainStep_alike (now : Instant) (size : ℕ) (h : s.gate.IsOpen) :
    Alike keyPrefix s (drainStep keyPrefix now size s).2 := by
  refine ⟨?_, (drainStep_drains size s).breaker.symm⟩
  rw [drainStep_gate]
  cases s.backlog.pending with
  | nil => exact .refl h
  | cons t rest =>
    exact h.alike_call (Store.hashUpdate_actsOn now _ _) (isStatistics keyPrefix t.kind)

section Calls

variable [Quantity α] [QuantityText α] {settings : LimiterSettings α} (now : Instant)

theorem checkWith_alike (d : Dimension) (capacity rate interval cost : α)
    (h : Alike settings.keyPrefix s s') :
    let r := checkWith settings now d capacity rate interval cost s
    let r' := checkWith settings now d capacity rate interval cost s'
    r.1 = r'.1 ∧ Alike settings.keyPrefix r.2 r'.2 ∧
      decisionsWith settings now d capacity rate interval cost s =
        decisionsWith settings now d capacity rate interval cost s' := by
  obtain ⟨hanswer, hgate⟩ := h.gate.call (Store.takeTokens_actsOn now
    (d.storageKey settings.keyPrefix) (request now capacity rate interval cost))
    (not_isStatistics_storageKey settings.keyPrefix d)
  have hverdict : verdict? settings now d capacity rate interval cost s =
      verdict? settings now d capacity rate interval cost s' := by
    unfold verdict?
    rw [hanswer, h.breaker]
  have hbreaker : breakerAfter settings now d capacity rate interval cost s =
      breakerAfter settings now d capacity rate interval cost s' := by
    unfold breakerAfter
    rw [hanswer, h.breaker]
  have hafter : Gate.Alike (IsStatistics settings.keyPrefix)
      (gateAfter settings now d capacity rate interval cost s)
      (gateAfter settings now d capacity rate interval cost s') := by
    unfold gateAfter
    rw [h.breaker]
    split
    · exact hgate
    · exact h.gate
  obtain ⟨log, hcheck⟩ := checkWith_eq_verdict settings now d capacity rate interval cost s
  obtain ⟨log', hcheck'⟩ := checkWith_eq_verdict settings now d capacity rate interval cost s'
  rw [hcheck, hcheck']
  refine ⟨congrArg (·.getD true) hverdict, ⟨hafter, hbreaker⟩, ?_⟩
  unfold decisionsWith
  rw [hverdict]

theorem check_alike (d : Dimension) (h : Alike settings.keyPrefix s s') :
    (check settings now d s).1 = (check settings now d s').1 ∧
      Alike settings.keyPrefix (check settings now d s).2 (check settings now d s').2 ∧
      decisionsOn settings now d s = decisionsOn settings now d s' := by
  unfold check decisionsOn
  dsimp only
  split
  · exact checkWith_alike now d _ _ _ _ h
  · exact ⟨rfl, h, rfl⟩

theorem checkEach_alike (dims : List Dimension) (h : Alike settings.keyPrefix s s') :
    Alike settings.keyPrefix (checkEach settings now dims s).2 (checkEach settings now dims s').2 ∧
      decisionsOnEach settings now dims s = decisionsOnEach settings now dims s' := by
  induction dims generalizing s s' with
  | nil => exact ⟨h, rfl⟩
  | cons d rest ih =>
    obtain ⟨hanswer, hafter, hdecisions⟩ := check_alike now d h
    unfold checkEach decisionsOnEach
    rw [bind_apply, bind_apply, hdecisions]
    generalize check settings now d s = r at hanswer hafter ⊢
    generalize check settings now d s' = r' at hanswer hafter ⊢
    obtain ⟨allowed, t⟩ := r
    obtain ⟨allowed', t'⟩ := r'
    dsimp only at hanswer hafter ⊢
    subst hanswer
    cases allowed with
    | true =>
      obtain ⟨hrest, hrest'⟩ := ih hafter
      exact ⟨hrest, congrArg (_ ++ ·) hrest'⟩
    | false => exact ⟨hafter, rfl⟩

end Calls

theorem bucketState_alike [QuantityText α] (now : Instant) (d : Dimension)
    (h : Alike keyPrefix s s') :
    Alike keyPrefix (bucketState (α := α) keyPrefix now d s).2
      (bucketState (α := α) keyPrefix now d s').2 := by
  have hkey := not_isStatistics_storageKey keyPrefix d
  have hacts := Store.hashGet_actsOn now (d.storageKey keyPrefix)
  unfold bucketState
  rw [bind_apply, bind_apply]
  obtain ⟨hanswer, hafter⟩ := h.callStore (hacts Bucket.tokensField) hkey
  generalize Limiter.callStore _ s = r at hanswer hafter ⊢
  generalize Limiter.callStore _ s' = r' at hanswer hafter ⊢
  obtain ⟨answer, t⟩ := r
  obtain ⟨answer', t'⟩ := r'
  dsimp only at hanswer hafter ⊢
  subst hanswer
  cases answer with
  | error _ => exact hafter
  | ok tokens =>
    dsimp only
    rw [bind_apply, bind_apply]
    obtain ⟨hanswer, hlast⟩ := hafter.callStore (hacts Bucket.lastRefillField) hkey
    generalize Limiter.callStore _ t = r at hanswer hlast ⊢
    generalize Limiter.callStore _ t' = r' at hanswer hlast ⊢
    obtain ⟨answer, u⟩ := r
    obtain ⟨answer', u'⟩ := r'
    dsimp only at hanswer hlast ⊢
    subst hanswer
    cases answer with
    | error _ => exact hlast
    | ok _ => exact hlast

/-- A call decides alike in sessions that are alike, and leaves them so. -/
theorem perform_alike [Quantity α] [QuantityText α] {settings : LimiterSettings α} (now : Instant)
    (c : Call α) (h : Alike settings.keyPrefix s s') :
    Alike settings.keyPrefix (perform settings now c s).2 (perform settings now c s').2 ∧
      decisions settings now c s = decisions settings now c s' := by
  cases c with
  | check d => exact (check_alike now d h).2
  | checkWith d capacity rate interval cost =>
    exact (checkWith_alike now d capacity rate interval cost h).2
  | checkAll ip user endpoint => exact checkEach_alike now (dimensionsOf ip user endpoint) h
  | resetBucket d =>
    exact ⟨(h.callStore (Store.delete_actsOn now _)
      (not_isStatistics_storageKey settings.keyPrefix d)).2, rfl⟩
  | bucketState d => exact ⟨bucketState_alike now d h, rfl⟩
  | sharedStatistics kind =>
    exact ⟨(sharedStatistics_alike now kind h.gate.isOpen).symm.trans
      (h.trans (sharedStatistics_alike now kind h.gate.isOpen')), rfl⟩

end Limiter

/-! ## Deployments -/

/-- A layer with nothing under way in its queue. -/
def Member.idle {α : Type} (m : Member α) : Member α := { m with backlog := .empty }

namespace Deployment

variable {α : Type} {keyPrefix : String} {d d' e e' : Deployment α}

/-- Deployments in which limiters decide the same. -/
structure Alike (keyPrefix : String) (d d' : Deployment α) : Prop where
  clock_eq : d.clock = d'.clock
  gate : Gate.Alike (IsStatistics keyPrefix) d.gate d'.gate
  members_eq : d.members.map Member.idle = d'.members.map Member.idle
  keyPrefix_eq : ∀ m ∈ d.members, m.layer.limiter.keyPrefix = keyPrefix

theorem Starts.alike (h : d.Starts keyPrefix) (hopen : d.gate.IsOpen) : Alike keyPrefix d d :=
  ⟨rfl, .refl hopen, rfl, h.keyPrefix_eq⟩

/-- The same member, but for its queue. -/
theorem Alike.member (h : Alike keyPrefix d d') {i : ℕ} {m m' : Member α}
    (hm : d.members[i]? = some m) (hm' : d'.members[i]? = some m') : m.idle = m'.idle := by
  have hidle := congrArg (·[i]?) h.members_eq
  simp only [List.getElem?_map, hm, hm', Option.map_some, Option.some.injEq] at hidle
  exact hidle

theorem Alike.keyPrefix_eq' (h : Alike keyPrefix d d') :
    ∀ m ∈ d'.members, m.layer.limiter.keyPrefix = keyPrefix := by
  intro m hm
  have hidle : m.idle ∈ d.members.map Member.idle := by
    rw [h.members_eq]
    exact List.mem_map_of_mem hm
  obtain ⟨m', hm', heq⟩ := List.mem_map.mp hidle
  rw [← h.keyPrefix_eq m' hm']
  exact congrArg (·.layer.limiter.keyPrefix) heq.symm

theorem Alike.symm (h : Alike keyPrefix d d') : Alike keyPrefix d' d :=
  ⟨h.clock_eq.symm, h.gate.symm, h.members_eq.symm, h.keyPrefix_eq'⟩

theorem Alike.trans (h : Alike keyPrefix d d') (h' : Alike keyPrefix d' e) : Alike keyPrefix d e :=
  ⟨h.clock_eq.trans h'.clock_eq, h.gate.trans h'.gate, h.members_eq.trans h'.members_eq,
    h.keyPrefix_eq⟩

theorem mem_afterLimiter {i : ℕ} {m m' : Member α} {t : Limiter.Session}
    (hm : d.members[i]? = some m) (hm' : m' ∈ (d.afterLimiter i m t).members) :
    ∃ m ∈ d.members, m'.layer = m.layer := by
  rcases List.mem_or_eq_of_mem_set hm' with hold | rfl
  · exact ⟨m', hold, rfl⟩
  · exact ⟨m, List.mem_of_getElem? hm, rfl⟩

/-- Moves of one limiter that leave its sessions alike. -/
theorem Alike.afterLimiter (h : Alike keyPrefix d d') {i : ℕ} {m m' : Member α}
    {t t' : Limiter.Session} (hm : d.members[i]? = some m) (hm' : d'.members[i]? = some m')
    (ht : Limiter.Alike keyPrefix t t') :
    Alike keyPrefix (d.afterLimiter i m t) (d'.afterLimiter i m' t') where
  clock_eq := h.clock_eq
  gate := ht.gate
  members_eq := by
    have hidle := h.member hm hm'
    unfold Deployment.afterLimiter
    dsimp only
    rw [List.map_set, List.map_set, h.members_eq]
    congr 1
    show ({ m.idle with breaker := t.breaker } : Member α) = { m'.idle with breaker := t'.breaker }
    rw [hidle, ht.breaker]
  keyPrefix_eq := fun m'' hm'' => by
    obtain ⟨m, hmem, hlayer⟩ := mem_afterLimiter hm hm''
    rw [hlayer]
    exact h.keyPrefix_eq m hmem

/-- A move of one limiter that leaves its session as it was, but for the shared statistics. -/
theorem Alike.afterLimiter_self (h : Alike keyPrefix d d) {i : ℕ} {m : Member α}
    {t : Limiter.Session} (hm : d.members[i]? = some m)
    (ht : Limiter.Alike keyPrefix (d.limiterSession m) t) :
    Alike keyPrefix d (d.afterLimiter i m t) where
  clock_eq := rfl
  gate := ht.gate
  members_eq := by
    unfold Deployment.afterLimiter
    dsimp only
    rw [List.map_set]
    have hsame : ({ m with breaker := t.breaker, backlog := t.backlog } : Member α).idle =
        m.idle := by
      rw [← ht.breaker]
      rfl
    have hidle : (d.members.map Member.idle)[i]? = some m.idle := by
      rw [List.getElem?_map, hm]
      rfl
    obtain ⟨hi, heq⟩ := List.getElem?_eq_some_iff.mp hidle
    rw [hsame, ← heq, List.set_getElem_self]
  keyPrefix_eq := h.keyPrefix_eq

section Moves

variable [Quantity α] [QuantityText α] {f : Deployment α} {a a' : Account}

/-- A step of a drain changes nothing that a limiter decides by, and records nothing. -/
theorem Alike.drain (h : Alike keyPrefix d d) {m : Move α} (hdrain : m.isDrain = true)
    (hmove : d.move m = .ok e) : Alike keyPrefix d e ∧ (d.account m).recorded = [] := by
  cases m with
  | drain i size =>
    obtain ⟨m, hm, rfl⟩ := limiting_cases hmove
    rw [account, hm, Option.elim_some, h.keyPrefix_eq m (List.mem_of_getElem? hm)]
    exact ⟨h.afterLimiter_self hm (Limiter.drainStep_alike d.clock size h.gate.isOpen),
      (Limiter.drainStep_drains size _).recorded⟩
  | limit => cases hdrain
  | clock => cases hdrain
  | failures => cases hdrain
  | others => cases hdrain

/-- A move is the same in deployments that are alike. -/
theorem Alike.move (h : Alike keyPrefix d d') {m : Move α} (hnot : m.isDrain = false)
    (hsucceeds : m.Succeeds) (hmove : d.move m = .ok e) (hmove' : d'.move m = .ok e') :
    Alike keyPrefix e e' ∧ (d.account m).recorded = (d'.account m).recorded := by
  cases m with
  | drain => cases hnot
  | failures => exact hsucceeds.elim
  | limit i c =>
    obtain ⟨m, hm, rfl⟩ := limiting_cases hmove
    obtain ⟨m', hm', rfl⟩ := limiting_cases hmove'
    have hidle := h.member hm hm'
    have hlayer : m.layer = m'.layer :=
      show m.idle.layer = m'.idle.layer from congrArg Member.layer hidle
    have hbreaker : m.breaker = m'.breaker :=
      show m.idle.breaker = m'.idle.breaker from congrArg Member.breaker hidle
    have hsession : Limiter.Alike m.layer.limiter.keyPrefix (d.limiterSession m)
        (d'.limiterSession m') := by
      rw [h.keyPrefix_eq m (List.mem_of_getElem? hm)]
      exact ⟨h.gate, hbreaker⟩
    obtain ⟨hafter, hdecisions⟩ := Limiter.perform_alike d.clock c hsession
    rw [h.keyPrefix_eq m (List.mem_of_getElem? hm)] at hafter
    rw [account, account, hm, hm', ← hlayer, ← h.clock_eq]
    refine ⟨h.afterLimiter hm hm' hafter, ?_⟩
    show (Limiter.decisions _ _ _ _).map _ = (Limiter.decisions _ _ _ _).map _
    rw [hdecisions, hlayer, h.clock_eq]
  | clock m =>
    rw [Deployment.move] at hmove hmove'
    rw [← h.clock_eq] at hmove'
    cases hclock : m.apply d.clock with
    | error _ =>
      rw [hclock] at hmove
      cases hmove
    | ok clock =>
      rw [hclock] at hmove hmove'
      obtain rfl := Except.ok.inj hmove
      obtain rfl := Except.ok.inj hmove'
      exact ⟨⟨rfl, h.gate, h.members_eq, h.keyPrefix_eq⟩, rfl⟩
  | others c =>
    obtain rfl := Except.ok.inj hmove
    obtain rfl := Except.ok.inj hmove'
    refine ⟨⟨h.clock_eq, ?_, h.members_eq, h.keyPrefix_eq⟩, rfl⟩
    have hagree := Store.perform_agreeOff d.gate.position d.clock c h.gate.agree
    exact ⟨⟨h.gate.isOpen.plan_nil, h.gate.isOpen.connected⟩,
      ⟨h.gate.isOpen'.plan_nil, h.gate.isOpen'.connected⟩, h.gate.position_eq, by
        rw [← h.gate.position_eq, ← h.clock_eq]
        exact hagree⟩

/-- A run of drains changes nothing that a limiter decides by, and records nothing. -/
theorem Alike.run_drains (h : Alike keyPrefix d d) {ms : List (Move α)}
    (hdrains : ∀ m ∈ ms, m.isDrain = true) (hrun : d.run ms = .ok (e, a)) :
    Alike keyPrefix d e ∧ a.recorded = [] := by
  induction ms generalizing d a with
  | nil =>
    obtain ⟨rfl, rfl⟩ := Prod.mk.inj (Except.ok.inj hrun)
    exact ⟨h, rfl⟩
  | cons m rest ih =>
    obtain ⟨d', b, hmove, hrest, rfl⟩ := run_cons hrun
    obtain ⟨hfirst, hnone⟩ := h.drain (hdrains m List.mem_cons_self) hmove
    obtain ⟨hlast, hnone'⟩ := ih (hfirst.symm.trans hfirst)
      (fun m' hm' => hdrains m' (List.mem_cons_of_mem m hm')) hrest
    refine ⟨hfirst.trans hlast, ?_⟩
    show (d.account m).recorded ++ b.recorded = []
    rw [hnone, hnone']
    rfl

/-- A run goes through the end of any first part of it. -/
theorem run_append {ms ms' : List (Move α)} (h : d.run (ms ++ ms') = .ok (f, a)) :
    ∃ e b b', d.run ms = .ok (e, b) ∧ e.run ms' = .ok (f, b') ∧ a = b.add b' := by
  induction ms generalizing d a with
  | nil => exact ⟨d, .nothing, a, rfl, h, rfl⟩
  | cons m rest ih =>
    obtain ⟨d', c, hmove, hrest, rfl⟩ := run_cons h
    obtain ⟨e, b, b', hfirst, hlast, rfl⟩ := ih hrest
    refine ⟨e, (d.account m).add b, b', ?_, hlast, (Account.add_assoc _ _ _).symm⟩
    rw [run, hmove]
    show (d'.run rest).bind _ = _
    rw [hfirst]
    rfl

/-- Two runs of the same moves but for steps of drains record the same decisions, as long as every
call of the store gets through. -/
theorem run_alike {ms ms' : List (Move α)} (h : Alike keyPrefix d d')
    (hsame : ms.filter (!·.isDrain) = ms'.filter (!·.isDrain)) (hsucceeds : ∀ m ∈ ms, m.Succeeds)
    (hrun : d.run ms = .ok (e, a)) (hrun' : d'.run ms' = .ok (e', a')) :
    Alike keyPrefix e e' ∧ a.recorded = a'.recorded := by
  induction ms generalizing d d' ms' a a' with
  | nil =>
    obtain ⟨rfl, rfl⟩ := Prod.mk.inj (Except.ok.inj hrun)
    have hdrains : ∀ m ∈ ms', m.isDrain = true := by
      intro m hm
      simpa using List.filter_eq_nil_iff.mp hsame.symm m hm
    obtain ⟨hlast, hnone⟩ := (h.symm.trans h).run_drains hdrains hrun'
    exact ⟨h.trans hlast, hnone.symm⟩
  | cons m rest ih =>
    obtain ⟨g, b, hmove, hrest, rfl⟩ := run_cons hrun
    have hrestSucceeds : ∀ m' ∈ rest, m'.Succeeds := fun m' hm' =>
      hsucceeds m' (List.mem_cons_of_mem m hm')
    cases hdrain : m.isDrain with
    | true =>
      -- the first run drains, and the second does not move
      rw [List.filter_cons_of_neg (by simp [hdrain])] at hsame
      obtain ⟨hfirst, hnone⟩ := (h.trans h.symm).drain hdrain hmove
      obtain ⟨hlast, hrecorded⟩ := ih (hfirst.symm.trans h) hsame hrestSucceeds hrest hrun'
      refine ⟨hlast, ?_⟩
      show (d.account m).recorded ++ b.recorded = _
      rw [hnone, ← hrecorded]
      rfl
    | false =>
      -- the second run drains until it makes the same move
      rw [List.filter_cons_of_pos (by simp [hdrain])] at hsame
      obtain ⟨drains, rest', rfl, hdrains, _, hsame'⟩ := List.filter_eq_cons_iff.mp hsame.symm
      obtain ⟨d'', c, c', hdrained, hrun'', rfl⟩ := run_append hrun'
      obtain ⟨g', b', hmove', hrest', rfl⟩ := run_cons hrun''
      obtain ⟨hbefore, hnone⟩ := (h.symm.trans h).run_drains
        (fun m' hm' => by simpa using hdrains m' hm') hdrained
      obtain ⟨hafter, hsameMove⟩ := (h.trans hbefore).move hdrain
        (hsucceeds m List.mem_cons_self) hmove hmove'
      obtain ⟨hlast, hrecorded⟩ := ih hafter hsame'.symm hrestSucceeds hrest hrest'
      refine ⟨hlast, ?_⟩
      show (d.account m).recorded ++ b.recorded =
        c.recorded ++ ((d''.account m).recorded ++ b'.recorded)
      rw [hnone, hsameMove, hrecorded]
      rfl

/-- While every call of the store gets through, no tally is lost. -/
theorem run_lost {ms : List (Move α)} {b : Account} (h : Conserves keyPrefix d e a)
    (halike : Alike keyPrefix e e) (hspares : ∀ m ∈ ms, m.Spares keyPrefix)
    (hsucceeds : ∀ m ∈ ms, m.Succeeds) (hrun : e.run ms = .ok (f, b))
    (hfew : (a.add b).recorded.length < 2 ^ 63) : b.lost = [] := by
  induction ms generalizing e a b with
  | nil =>
    obtain ⟨rfl, rfl⟩ := Prod.mk.inj (Except.ok.inj hrun)
    rfl
  | cons m rest ih =>
    obtain ⟨g, c, hmove, hrest, rfl⟩ := run_cons hrun
    have hfewNow : a.recorded.length < 2 ^ 63 := by
      refine Nat.lt_of_le_of_lt ?_ hfew
      show _ ≤ (a.recorded ++ _).length
      rw [List.length_append]
      exact Nat.le_add_right _ _
    rw [← Account.add_assoc] at hfew
    have hnext : Alike keyPrefix g g := by
      cases hdrain : m.isDrain with
      | true =>
        have hfirst := (halike.drain hdrain hmove).1
        exact hfirst.symm.trans hfirst
      | false => exact (halike.move hdrain (hsucceeds m List.mem_cons_self) hmove hmove).1
    have hlater := ih (h.move hfewNow (hspares m List.mem_cons_self) hmove) hnext
      (fun m' hm' => hspares m' (List.mem_cons_of_mem m hm'))
      (fun m' hm' => hsucceeds m' (List.mem_cons_of_mem m hm')) hrest hfew
    have hnow : (e.account m).lost = [] := by
      cases m with
      | drain i size =>
        rw [account]
        cases hm : e.members[i]? with
        | none => rfl
        | some m =>
          rw [Option.elim_some, h.keyPrefix_eq m (List.mem_of_getElem? hm)]
          exact Limiter.drained_lost_of_open halike.gate.isOpen h.holds (h.hasRoom hfewNow hm)
      | limit i c =>
        rw [account]
        cases e.members[i]? <;> rfl
      | clock => rfl
      | failures => rfl
      | others => rfl
    show (e.account m).lost ++ c.lost = []
    rw [hnow, hlater]
    rfl

end Moves

end Deployment
end Bulwark
