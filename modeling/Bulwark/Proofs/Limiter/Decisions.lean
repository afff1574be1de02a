import Bulwark.Limiter.Call
import Bulwark.Proofs.Store.Counting

/-!
# The decisions of a limiter

What the store decides in the calls of a limiter (`decisions`), and all that a call does with it:
each decision is counted in the process and offered to the queue for the shared statistics, in
order, and nothing else is.  An admission that the store has not decided is counted as one that
failed open, and never offered (`Effect`).

No call of a limiter writes to the shared statistics themselves; that is left to the drain.
-/

namespace Bulwark

/-! ## Keys of shared statistics -/

/-- A key of the shared statistics. -/
def IsStatistics (keyPrefix key : String) : Prop := ∃ kind, key = statisticsKey keyPrefix kind

theorem isStatistics (keyPrefix : String) (kind : DimensionKind) :
    IsStatistics keyPrefix (statisticsKey keyPrefix kind) := ⟨kind, rfl⟩

theorem statisticsKey_injective (keyPrefix : String) :
    Function.Injective (statisticsKey keyPrefix) := by
  intro kind kind' h
  have hlist := congrArg String.toList h
  simp only [statisticsKey, String.toList_append, List.append_assoc,
    List.append_cancel_left_eq] at hlist
  cases kind <;> cases kind' <;> first | rfl | exact absurd hlist (by decide)

/-- No bucket is kept under a key of the shared statistics. -/
theorem not_isStatistics_storageKey (keyPrefix : String) (d : Dimension) :
    ¬ IsStatistics keyPrefix (d.storageKey keyPrefix) := by
  rintro ⟨kind, h⟩
  have hlist := congrArg String.toList h
  simp only [statisticsKey, Dimension.storageKey, Dimension.render, String.toList_append,
    List.append_assoc, List.append_cancel_left_eq] at hlist
  have hname : d.kind.name.toList ≠ [] ∧ d.kind.name.toList.head? ≠ some 's' := by
    cases d.kind <;> decide
  have hhead := congrArg List.head? hlist
  rw [List.head?_append_of_ne_nil _ hname.1] at hhead
  exact hname.2 hhead

/-- Every bucket has a key of its own. -/
theorem Dimension.storageKey_injective (keyPrefix : String) :
    Function.Injective (Dimension.storageKey keyPrefix) := by
  rintro ⟨kind, key⟩ ⟨kind', key'⟩ h
  have hlist := congrArg String.toList h
  simp only [storageKey, render, String.toList_append, List.append_assoc,
    List.append_cancel_left_eq] at hlist
  -- the names of the kinds differ in their first letters, so no key can bridge them
  have hhead := congrArg List.head? hlist
  have hkind : kind = kind' := by
    cases kind <;> cases kind' <;> first | rfl | exact absurd hhead (by simp [DimensionKind.name])
  subst hkind
  rw [List.append_cancel_left_eq, List.append_cancel_left_eq] at hlist
  exact congrArg (mk kind) (String.toList_injective hlist)

/-- A decision on a kind with this result. -/
def Decision.is (kind : DimensionKind) (allowed : Bool) (d : Decision) : Bool :=
  d.kind == kind && d.allowed == allowed

/-- The decisions of the store with a result, among those counted.  An admission that failed open is
none of them. -/
def AdmissionCount.decided (c : AdmissionCount) (allowed : Bool) : UInt64 :=
  if allowed then c.allowed - c.failOpen else c.blocked

namespace Limiter

/-- A call goes on with the answer and the session of its first part. -/
theorem bind_apply {β γ : Type} (x : Action β) (f : β → Action γ) (s : Session) :
    (x >>= f) s = f (x s).1 (x s).2 := rfl

variable {α : Type}

section Decisions

variable [Quantity α] [QuantityText α]

/-! ## What the store decides -/

/-- What the store decides in a check with explicit parameters, if it is asked and answers. -/
def verdict? (settings : LimiterSettings α) (now : Instant) (d : Dimension)
    (capacity rate interval cost : α) (s : Session) : Option Bool :=
  if Allowance.areValid capacity rate interval && isCost cost &&
      (s.breaker.allow settings.breaker (Breaker.reading now)).1 then
    match (s.gate.call (·.takeTokens now (d.storageKey settings.keyPrefix)
        (request now capacity rate interval cost))).1 with
    | .ok outcome => some outcome.allowed
    | .error _ => none
  else none

/-- The decision of the store in a check with explicit parameters, if there is one. -/
def decisionsWith (settings : LimiterSettings α) (now : Instant) (d : Dimension)
    (capacity rate interval cost : α) (s : Session) : List Decision :=
  ((verdict? settings now d capacity rate interval cost s).map (Decision.mk d.kind)).toList

/-- The decision of the store in a check of one dimension. -/
def decisionsOn (settings : LimiterSettings α) (now : Instant) (d : Dimension) (s : Session) :
    List Decision :=
  let a := settings.allowances.get d.kind
  if a.enabled then decisionsWith settings now d a.capacity a.rate a.interval Quantity.one s
  else []

/-- The decisions of the store in checks of several dimensions, up to the first that rejects. -/
def decisionsOnEach (settings : LimiterSettings α) (now : Instant) :
    List Dimension → Session → List Decision
  | [], _ => []
  | d :: rest, s =>
    let (allowed, t) := check settings now d s
    decisionsOn settings now d s ++ if allowed then decisionsOnEach settings now rest t else []

/-- The decisions of the store in a call. -/
def decisions (settings : LimiterSettings α) (now : Instant) : Call α → Session → List Decision
  | .check d, s => decisionsOn settings now d s
  | .checkWith d capacity rate interval cost, s =>
    decisionsWith settings now d capacity rate interval cost s
  | .checkAll ip user endpoint, s =>
    decisionsOnEach settings now (dimensionsOf ip user endpoint) s
  | .resetBucket _, _ => []
  | .bucketState _, _ => []
  | .sharedStatistics _, _ => []

/-! ## What a call does -/

/-- The counts after a check that the store has decided, or has not. -/
def counted (c : AdmissionCount) : Option Bool → AdmissionCount
  | some allowed => c.record allowed
  | none => c.recordFailOpen.record true

/-- The breaker after a check with explicit parameters. -/
def breakerAfter (settings : LimiterSettings α) (now : Instant) (d : Dimension)
    (capacity rate interval cost : α) (s : Session) : Breaker :=
  if Allowance.areValid capacity rate interval && isCost cost then
    let (allowed, breaker) := s.breaker.allow settings.breaker (Breaker.reading now)
    if allowed then
      match (s.gate.call (·.takeTokens now (d.storageKey settings.keyPrefix)
          (request now capacity rate interval cost))).1 with
      | .ok _ => breaker.recordSuccess
      | .error _ => breaker.recordFailure settings.breaker (Breaker.reading now)
    else breaker
  else s.breaker

/-- The gate after a check with explicit parameters. -/
def gateAfter (settings : LimiterSettings α) (now : Instant) (d : Dimension)
    (capacity rate interval cost : α) (s : Session) : Gate :=
  if Allowance.areValid capacity rate interval && isCost cost &&
      (s.breaker.allow settings.breaker (Breaker.reading now)).1 then
    (s.gate.call (·.takeTokens now (d.storageKey settings.keyPrefix)
      (request now capacity rate interval cost))).2
  else s.gate

/-- A check with explicit parameters, in one piece. -/
theorem checkWith_eq_verdict (settings : LimiterSettings α) (now : Instant) (d : Dimension)
    (capacity rate interval cost : α) (s : Session) :
    ∃ log, checkWith settings now d capacity rate interval cost s =
      ((verdict? settings now d capacity rate interval cost s).getD true, {
        gate := gateAfter settings now d capacity rate interval cost s
        breaker := breakerAfter settings now d capacity rate interval cost s
        backlog := (decisionsWith settings now d capacity rate interval cost s).foldl
          (·.offer settings.backlogCapacity) s.backlog
        admission := s.admission.set d.kind (counted (s.admission.get d.kind)
          (verdict? settings now d capacity rate interval cost s))
        log }) := by
  unfold checkWith decisionsWith verdict? gateAfter breakerAfter
  cases Allowance.areValid capacity rate interval && isCost cost with
  | false =>
    rw [if_pos (by decide)]
    exact ⟨_, rfl⟩
  | true =>
    rw [if_neg (by decide), bind_apply]
    unfold askBreaker
    cases s.breaker.allow settings.breaker (Breaker.reading now) with
    | mk allowed breaker =>
      cases allowed with
      | false => exact ⟨_, rfl⟩
      | true =>
        dsimp only
        rw [if_neg (by decide), bind_apply]
        unfold callStore
        dsimp only
        cases (s.gate.call (·.takeTokens now (d.storageKey settings.keyPrefix)
            (request now capacity rate interval cost))).1 with
        | error e => exact ⟨_, rfl⟩
        | ok outcome =>
          dsimp only
          cases outcome.allowed with
          | true => exact ⟨_, rfl⟩
          | false => exact ⟨_, rfl⟩

end Decisions

/-- All that a call of a limiter does with the decisions that the store makes in it. -/
structure Effect (settings : LimiterSettings α) (s t : Session) (ds : List Decision) : Prop where
  /-- Each is offered to the queue. -/
  backlog : t.backlog = ds.foldl (·.offer settings.backlogCapacity) s.backlog
  /-- Each is counted, and any other admission counts as one that failed open. -/
  counted : ∀ kind allowed, (t.admission.get kind).decided allowed =
    (s.admission.get kind).decided allowed + UInt64.ofNat (ds.countP (Decision.is kind allowed))
  /-- The shared statistics stay as they are. -/
  kept : ∀ key, IsStatistics settings.keyPrefix key →
    (∀ e ∈ s.gate.store.entries.get? key, e.deadline = none) →
      t.gate.store.entries.get? key = s.gate.store.entries.get? key

variable {settings : LimiterSettings α}

theorem Effect.nothing {s t : Session} (hbacklog : t.backlog = s.backlog)
    (hadmission : t.admission = s.admission)
    (hkept : ∀ key, IsStatistics settings.keyPrefix key →
      (∀ e ∈ s.gate.store.entries.get? key, e.deadline = none) →
        t.gate.store.entries.get? key = s.gate.store.entries.get? key) :
    Effect settings s t [] where
  backlog := hbacklog
  counted := fun kind allowed => by rw [hadmission]; exact (UInt64.add_zero _).symm
  kept := hkept

theorem Effect.trans {s t u : Session} {ds ds' : List Decision} (h : Effect settings s t ds)
    (h' : Effect settings t u ds') : Effect settings s u (ds ++ ds') where
  backlog := by rw [h'.backlog, h.backlog, List.foldl_append]
  counted := fun kind allowed => by
    rw [h'.counted, h.counted, List.countP_append, UInt64.ofNat_add, UInt64.add_assoc]
  kept := fun key hkey hpersistent => by
    have hfirst := h.kept key hkey hpersistent
    rw [h'.kept key hkey (by rw [hfirst]; exact hpersistent), hfirst]

/-- A call about one key keeps every other entry. -/
theorem call_frame {β : Type} {g : Gate} {key k : String} {operation : Store → Store.Result β}
    (hacts : Store.ActsOn key operation) (hne : k ≠ key) :
    (g.call operation).2.store.entries.get? k = g.store.entries.get? k := by
  rw [Gate.call_eq]
  cases g.refusal? with
  | some e => simp only [Gate.next_store]
  | none => exact hacts.frame g.store k hne

/-- A store call about one key, if it is not among the shared statistics. -/
theorem callStore_effect {β : Type} {key : String} {operation : Store → Store.Result β}
    (hacts : Store.ActsOn key operation) (hkey : ¬ IsStatistics settings.keyPrefix key)
    (s : Session) : Effect settings s (callStore operation s).2 [] :=
  .nothing rfl rfl fun _ hk _ => call_frame hacts fun heq => hkey (heq ▸ hk)

section Calls

variable [Quantity α] [QuantityText α] {now : Instant}

/-- A check counts the decision of the store, if there is one. -/
theorem counted_decided (c : AdmissionCount) (kind : DimensionKind) (verdict : Option Bool)
    (allowed : Bool) : (counted c verdict).decided allowed = c.decided allowed +
      UInt64.ofNat ((verdict.map (Decision.mk kind)).toList.countP (Decision.is kind allowed)) := by
  have hsingle : ∀ result, [Decision.mk kind result].countP (Decision.is kind allowed) =
      if result = allowed then 1 else 0 := by
    intro result
    simp [Decision.is, List.countP_singleton]
  unfold AdmissionCount.decided
  cases verdict with
  | none =>
    -- an admission that failed open counts on both sides of the difference
    rw [Option.map_none, Option.toList_none, List.countP_nil]
    cases allowed with
    | true =>
      show (c.allowed + 1) - (c.failOpen + 1) = c.allowed - c.failOpen + 0
      grind
    | false => exact (UInt64.add_zero c.blocked).symm
  | some result =>
    rw [Option.map_some, Option.toList_some, hsingle]
    cases allowed with
    | true =>
      cases result with
      | true =>
        show (c.allowed + 1) - c.failOpen = c.allowed - c.failOpen + 1
        grind
      | false => exact (UInt64.add_zero _).symm
    | false =>
      cases result with
      | true => exact (UInt64.add_zero _).symm
      | false => rfl

theorem checkWith_effect (d : Dimension) (capacity rate interval cost : α) (s : Session) :
    Effect settings s (checkWith settings now d capacity rate interval cost s).2
      (decisionsWith settings now d capacity rate interval cost s) := by
  obtain ⟨log, hcheck⟩ := checkWith_eq_verdict settings now d capacity rate interval cost s
  rw [hcheck]
  unfold decisionsWith
  generalize verdict? settings now d capacity rate interval cost s = verdict
  refine ⟨rfl, fun kind allowed => ?_, fun key hkey hpersistent => ?_⟩
  · simp only [PerKind.get_set]
    by_cases hkind : kind = d.kind
    · rw [if_pos hkind, hkind]
      exact counted_decided _ d.kind verdict allowed
    · have hother : (verdict.map (Decision.mk d.kind)).toList.countP
          (Decision.is kind allowed) = 0 := by
        cases verdict with
        | none => rfl
        | some result => simp [Decision.is, Ne.symm hkind]
      rw [if_neg hkind, hother]
      exact (UInt64.add_zero _).symm
  · show (gateAfter settings now d capacity rate interval cost s).store.entries.get? key = _
    unfold gateAfter
    split
    · exact call_frame (Store.takeTokens_actsOn now _ _) fun heq =>
        not_isStatistics_storageKey settings.keyPrefix d (heq ▸ hkey)
    · rfl

theorem check_effect (d : Dimension) (s : Session) :
    Effect settings s (check settings now d s).2 (decisionsOn settings now d s) := by
  unfold check decisionsOn
  dsimp only
  split
  · exact checkWith_effect d _ _ _ _ s
  · exact .nothing rfl rfl fun _ _ _ => rfl

theorem checkEach_effect (dims : List Dimension) (s : Session) :
    Effect settings s (checkEach settings now dims s).2 (decisionsOnEach settings now dims s) := by
  induction dims generalizing s with
  | nil => exact .nothing rfl rfl fun _ _ _ => rfl
  | cons d rest ih =>
    have hfirst : Effect settings s (check settings now d s).2 (decisionsOn settings now d s) :=
      check_effect d s
    unfold checkEach decisionsOnEach
    rw [bind_apply]
    generalize check settings now d s = r at hfirst ⊢
    obtain ⟨allowed, t⟩ := r
    cases allowed with
    | true => exact hfirst.trans (ih t)
    | false => exact hfirst.trans (.nothing rfl rfl fun _ _ _ => rfl)

end Calls

theorem bucketState_effect [QuantityText α] (now : Instant) (d : Dimension) (s : Session) :
    Effect settings s (bucketState (α := α) settings.keyPrefix now d s).2 [] := by
  have hkey := not_isStatistics_storageKey settings.keyPrefix d
  have hcall : ∀ field s, Effect settings s
      (callStore (·.hashGet now (d.storageKey settings.keyPrefix) field) s).2 [] :=
    fun field => callStore_effect (Store.hashGet_actsOn now _ field) hkey
  unfold bucketState
  rw [bind_apply]
  have hfirst := hcall Bucket.tokensField s
  generalize callStore _ s = r at hfirst ⊢
  obtain ⟨_ | tokens, t⟩ := r
  · exact hfirst
  · dsimp only at hfirst ⊢
    rw [bind_apply]
    have hsecond := hcall Bucket.lastRefillField t
    generalize callStore _ t = r at hsecond ⊢
    obtain ⟨_ | lastRefill, u⟩ := r
    · exact hfirst.trans hsecond
    · exact hfirst.trans hsecond

/-- Reading a count keeps the shared statistics, also where it is read from them. -/
theorem readCount_effect (now : Instant) (key field : String) (s : Session) :
    Effect settings s (readCount now key field s).2 [] := by
  have hcall : Effect settings s (callStore (·.hashGet now key field) s).2 [] := by
    refine .nothing rfl rfl fun k hk hpersistent => ?_
    show (s.gate.call _).2.store.entries.get? k = _
    rw [Gate.call_eq]
    cases s.gate.refusal? with
    | some e => simp only [Gate.next_store]
    | none => exact Store.hashGet_keeps now hpersistent key field
  unfold readCount
  rw [bind_apply]
  generalize callStore _ s = r at hcall ⊢
  obtain ⟨_ | text, t⟩ := r
  · exact hcall
  · exact hcall

/-- What every read of a count does, and what can be done one after the other, a read of the shared
statistics does. -/
theorem sharedStatistics_rel {r : Session → Session → Prop} {keyPrefix : String} {now : Instant}
    {kind : DimensionKind}
    (hread : ∀ field s, r s (readCount now (statisticsKey keyPrefix kind) field s).2)
    (htrans : ∀ {s t u}, r s t → r t u → r s u) (s : Session) :
    r s (sharedStatistics keyPrefix now kind s).2 := by
  unfold sharedStatistics
  rw [bind_apply]
  have htotal := hread "total" s
  generalize readCount _ _ _ s = x at htotal ⊢
  obtain ⟨_ | total, t⟩ := x
  · exact htotal
  dsimp only at htotal ⊢
  rw [bind_apply]
  have hallowed := htrans htotal (hread "allowed" t)
  generalize readCount _ _ _ t = x at hallowed ⊢
  obtain ⟨_ | allowed, u⟩ := x
  · exact hallowed
  dsimp only at hallowed ⊢
  rw [bind_apply]
  have hblocked := htrans hallowed (hread "blocked" u)
  generalize readCount _ _ _ u = x at hblocked ⊢
  obtain ⟨_ | blocked, v⟩ := x
  · exact hblocked
  · exact hblocked

theorem sharedStatistics_effect (now : Instant) (kind : DimensionKind) (s : Session) :
    Effect settings s (sharedStatistics settings.keyPrefix now kind s).2 [] :=
  sharedStatistics_rel (r := fun s t => Effect settings s t []) (readCount_effect now _)
    (fun h h' => h.trans h') s

/-- What a call does: each decision of the store is counted and offered to the queue, admissions
that the store has not decided are counted apart, and the shared statistics stay. -/
theorem perform_effect [Quantity α] [QuantityText α] (now : Instant) (c : Call α) (s : Session) :
    Effect settings s (perform settings now c s).2 (decisions settings now c s) := by
  unfold perform decisions
  cases c with
  | check d => exact check_effect d s
  | checkWith d capacity rate interval cost => exact checkWith_effect d capacity rate interval cost s
  | checkAll ip user endpoint => exact checkEach_effect (dimensionsOf ip user endpoint) s
  | resetBucket d =>
    exact callStore_effect (Store.delete_actsOn now _)
      (not_isStatistics_storageKey settings.keyPrefix d) s
  | bucketState d => exact bucketState_effect now d s
  | sharedStatistics kind => exact sharedStatistics_effect now kind s

end Limiter
end Bulwark
