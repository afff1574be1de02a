import Mathlib.Algebra.Order.BigOperators.Group.List
import Mathlib.Data.UInt
import Bulwark.Proofs.Limiter.Moves

/-!
# Conservation of decisions

Over every run of limiters and drains in a deployment, a decision that was recorded is refused,
under way, written or lost, and only one of these; the shared statistics hold what was written
(`Conserves`).  A move works on one limiter at most, so the step lemma looks at what it does there
(`Limiter.Balances`) and at the store, and the run lemma follows the moves (`run_conserves`).
-/

namespace Bulwark

/-- The sum over a list of which one item was replaced. -/
theorem sum_map_set {β M : Type} [Add M] [Zero M] [Std.Associative (· + · : M → M → M)]
    [Std.Commutative (· + · : M → M → M)] (f : β → M) {l : List β} {i : ℕ} {a : β} (b : β)
    (h : l[i]? = some a) : ((l.set i b).map f).sum + f a = (l.map f).sum + f b := by
  induction l generalizing i with
  | nil => cases h
  | cons c rest ih =>
    cases i with
    | zero =>
      obtain rfl : c = a := by simpa using h
      rw [List.set_cons_zero, List.map_cons, List.map_cons, List.sum_cons, List.sum_cons]
      ac_rfl
    | succ i =>
      have hrest := ih (i := i) (by simpa using h)
      rw [List.set_cons_succ, List.map_cons, List.map_cons, List.sum_cons, List.sum_cons]
      calc f c + ((rest.set i b).map f).sum + f a
          = f c + (((rest.set i b).map f).sum + f a) := by ac_rfl
        _ = f c + (rest.map f).sum + f b := by rw [hrest]; ac_rfl

/-! ## One limiter -/

namespace Limiter

variable {α : Type} {settings : LimiterSettings α} {s t : Session} {a : Account}

/-- What a move of one limiter does with decisions.  Those under way before it and those recorded in
it are under way after it, refused, written or lost; every refusal is counted; and the decisions
that are counted in the process are those recorded. -/
structure Balances (i capacity : ℕ) (s t : Session) (a : Account) : Prop where
  underWay : ∀ kind allowed, s.backlog.underWay kind allowed + a.recordedOf kind allowed =
    t.backlog.underWay kind allowed + a.refusedOf kind allowed + a.writtenOf kind allowed +
      a.lostOf kind allowed
  length_le : s.backlog.queue.length ≤ max capacity 1 → t.backlog.queue.length ≤ max capacity 1
  dropped : t.backlog.dropped = s.backlog.dropped + UInt64.ofNat (a.refusedBy i)
  refusedBy_other : ∀ j ≠ i, a.refusedBy j = 0
  refused_le : a.refused.length ≤ a.recorded.length
  counted : ∀ kind allowed, (t.admission.get kind).decided allowed =
    (s.admission.get kind).decided allowed + UInt64.ofNat (a.recordedOf kind allowed)

/-- A call of a limiter keeps the balance. -/
theorem Effect.balances {ds : List Decision} (h : Effect settings s t ds) (i : ℕ) :
    Balances i settings.backlogCapacity s t ⟨ds.map (i, ·),
      (Backlog.refusals settings.backlogCapacity s.backlog ds).map (i, ·), [], []⟩ := by
  have hsnd : ∀ l : List Decision, (l.map fun x => (i, x)).map Prod.snd = l := by
    intro l
    rw [List.map_map]
    exact List.map_id l
  have hbacklog : t.backlog = s.backlog.offerAll settings.backlogCapacity ds := h.backlog
  constructor
  case underWay =>
    intro kind allowed
    have hcount : (s.backlog.offerAll settings.backlogCapacity ds).queue.countP _ + _ = _ :=
      Backlog.countP_offerAll (Decision.is kind allowed) s.backlog ds
    unfold Account.recordedOf Account.refusedOf Backlog.underWay
    rw [hbacklog, hsnd, hsnd, Backlog.offerAll_pending]
    show _ = _ + _ + _ + 0 + 0
    omega
  case length_le =>
    intro hle
    rw [hbacklog]
    exact Backlog.length_offerAll s.backlog ds hle
  case dropped =>
    rw [hbacklog, Backlog.offerAll_dropped]
    unfold Account.refusedBy
    rw [List.countP_map]
    congr 2
    exact (List.countP_eq_length.mpr fun _ _ => beq_self_eq_true i).symm
  case refusedBy_other =>
    intro j hj
    unfold Account.refusedBy
    rw [List.countP_map]
    exact List.countP_eq_zero.mpr fun _ _ => by simpa using Ne.symm hj
  case refused_le =>
    rw [List.length_map, List.length_map]
    exact (Backlog.refusals_sublist s.backlog ds).length_le
  case counted =>
    intro kind allowed
    unfold Account.recordedOf
    rw [hsnd]
    exact h.counted kind allowed

/-- A step of a drain keeps the balance. -/
theorem Drains.balances (h : Drains s t a) (i capacity : ℕ) : Balances i capacity s t a := by
  have hrecorded : ∀ kind allowed, a.recordedOf kind allowed = 0 := by
    intro kind allowed
    unfold Account.recordedOf
    rw [h.recorded]
    rfl
  have hrefused : ∀ kind allowed, a.refusedOf kind allowed = 0 := by
    intro kind allowed
    unfold Account.refusedOf
    rw [h.refused]
    rfl
  have hrefusedBy : ∀ j, a.refusedBy j = 0 := by
    intro j
    unfold Account.refusedBy
    rw [h.refused]
    rfl
  refine ⟨fun kind allowed => ?_, h.length_le.trans, ?_, fun j _ => hrefusedBy j, ?_,
    fun kind allowed => ?_⟩
  · rw [hrecorded, hrefused, h.underWay]
    omega
  · rw [hrefusedBy, h.dropped]
    exact (UInt64.add_zero _).symm
  · rw [h.refused]
    exact Nat.zero_le _
  · rw [hrecorded, h.admission]
    exact (UInt64.add_zero _).symm

end Limiter

/-! ## A deployment -/

namespace Deployment

variable {α : Type} (kind : DimensionKind) (allowed : Bool)

/-- The decisions of a kind and a result that wait in queues. -/
def queued (d : Deployment α) : ℕ :=
  (d.members.map fun m => m.backlog.queue.countP (Decision.is kind allowed)).sum

/-- The decisions of a kind and a result in tallies that were taken and not yet written. -/
def taken (d : Deployment α) : ℕ :=
  (d.members.map fun m => Tally.partAll kind allowed m.backlog.pending).sum

/-- The decisions of a kind and a result that are counted in the process. -/
def decided (d : Deployment α) : UInt64 :=
  (d.ledgers.map fun c => (c.admission.get kind).decided allowed).sum

/-- The decisions of a kind and a result that are under way. -/
def underWay (d : Deployment α) : ℕ :=
  (d.members.map fun m => m.backlog.underWay kind allowed).sum

theorem underWay_eq (d : Deployment α) :
    d.underWay kind allowed = d.queued kind allowed + d.taken kind allowed :=
  List.sum_map_add

/-- What is under way at one member is under way. -/
theorem underWay_le {d : Deployment α} {i : ℕ} {m : Member α} (hm : d.members[i]? = some m) :
    m.backlog.underWay kind allowed ≤ d.underWay kind allowed :=
  List.le_sum_of_mem (List.mem_map_of_mem (List.mem_of_getElem? hm))

variable {keyPrefix : String} {d e f : Deployment α} {a : Account}

/-- A deployment whose limiters share a prefix and have nothing under way, where each layer has its
ledger and nobody has written shared statistics. -/
structure Starts (keyPrefix : String) (d : Deployment α) : Prop where
  keyPrefix_eq : ∀ m ∈ d.members, m.layer.limiter.keyPrefix = keyPrefix
  ledger_lt : ∀ m ∈ d.members, m.ledger < d.ledgers.length
  backlog_eq : ∀ m ∈ d.members, m.backlog = .empty
  absent : ∀ kind, d.gate.store.entries.get? (statisticsKey keyPrefix kind) = none

/-- A deployment in which a run has ended, the deployment that it has started from, and what has
become of decisions in it.  Every decision recorded is refused, under way, written or lost; the
shared statistics hold those written; the queues keep to their lengths and count what they refuse;
and the decisions counted in the process are those recorded. -/
structure Conserves (keyPrefix : String) (d e : Deployment α) (a : Account) : Prop where
  keyPrefix_eq : ∀ m ∈ e.members, m.layer.limiter.keyPrefix = keyPrefix
  ledger_lt : ∀ m ∈ e.members, m.ledger < e.ledgers.length
  balance : ∀ kind allowed, a.recordedOf kind allowed = e.underWay kind allowed +
    a.refusedOf kind allowed + a.writtenOf kind allowed + a.lostOf kind allowed
  holds : Limiter.Holds keyPrefix e.gate.store (a.writtenOf · ·)
  length_le : ∀ m ∈ e.members, m.backlog.queue.length ≤ max m.layer.limiter.backlogCapacity 1
  dropped : ∀ i m, e.members[i]? = some m → m.backlog.dropped = UInt64.ofNat (a.refusedBy i)
  refused_le : a.refused.length ≤ a.recorded.length
  counted : ∀ kind allowed, e.decided kind allowed =
    d.decided kind allowed + UInt64.ofNat (a.recordedOf kind allowed)

/-- Nothing has happened at the start. -/
theorem Starts.conserves (h : d.Starts keyPrefix) : Conserves keyPrefix d d .nothing where
  keyPrefix_eq := h.keyPrefix_eq
  ledger_lt := h.ledger_lt
  balance := fun kind allowed => by
    have hnone : ∀ n ∈ d.members.map (·.backlog.underWay kind allowed), n = 0 := by
      intro n hn
      obtain ⟨m, hm, rfl⟩ := List.mem_map.mp hn
      rw [h.backlog_eq m hm]
      rfl
    unfold underWay
    rw [List.sum_eq_zero hnone]
    rfl
  holds := fun kind => .inl ⟨h.absent kind, rfl, rfl⟩
  length_le := fun m hm => by
    rw [h.backlog_eq m hm]
    exact Nat.zero_le _
  dropped := fun i m hm => by
    rw [h.backlog_eq m (List.mem_of_getElem? hm)]
    rfl
  refused_le := Nat.le_refl 0
  counted := fun kind allowed => (UInt64.add_zero _).symm

/-! ### One move -/

/-- As long as fewer than `2^63` decisions are recorded, all that is under way has room. -/
theorem Conserves.hasRoom (h : Conserves keyPrefix d e a) (hfew : a.recorded.length < 2 ^ 63)
    {i : ℕ} {m : Member α} (hm : e.members[i]? = some m) :
    Limiter.HasRoom (e.limiterSession m) (a.writtenOf · ·) := by
  intro kind
  have hallowed := h.balance kind true
  have hblocked := h.balance kind false
  have hallowed' := underWay_le kind true hm
  have hblocked' := underWay_le kind false hm
  have hrecorded := a.recordedOf_add_le kind
  have hmax : Text.maxSigned = 2 ^ 63 - 1 := rfl
  show ((a.writtenOf kind true + a.writtenOf kind false +
    (m.backlog.underWay kind true + m.backlog.underWay kind false) : ℕ) : ℤ) ≤ _
  omega

/-- A move of one limiter conserves decisions, if it keeps the balance and writes what it says. -/
theorem Conserves.afterLimiter (h : Conserves keyPrefix d e a) {i : ℕ} {m : Member α}
    (hm : e.members[i]? = some m) {t : Limiter.Session} {b : Account}
    (hb : Limiter.Balances i m.layer.limiter.backlogCapacity (e.limiterSession m) t b)
    (hholds : Limiter.Holds keyPrefix t.gate.store ((a.add b).writtenOf · ·)) :
    Conserves keyPrefix d (e.afterLimiter i m t) (a.add b) := by
  have hmem := List.mem_of_getElem? hm
  have hi := List.getElem?_eq_some_iff.mp hm
  constructor
  case keyPrefix_eq =>
    intro m' hm'
    rcases List.mem_or_eq_of_mem_set hm' with hold | rfl
    · exact h.keyPrefix_eq m' hold
    · exact h.keyPrefix_eq m hmem
  case ledger_lt =>
    intro m' hm'
    show _ < (e.ledgers.set _ _).length
    rw [List.length_set]
    rcases List.mem_or_eq_of_mem_set hm' with hold | rfl
    · exact h.ledger_lt m' hold
    · exact h.ledger_lt m hmem
  case balance =>
    intro kind allowed
    have hsum : (e.afterLimiter i m t).underWay kind allowed + m.backlog.underWay kind allowed =
        e.underWay kind allowed + t.backlog.underWay kind allowed :=
      sum_map_set (fun m : Member α => m.backlog.underWay kind allowed) _ hm
    have hunder : m.backlog.underWay kind allowed + _ = _ := hb.underWay kind allowed
    have hbalance := h.balance kind allowed
    simp only [Account.recordedOf_add, Account.refusedOf_add, Account.writtenOf_add,
      Account.lostOf_add]
    omega
  case holds => exact hholds
  case length_le =>
    intro m' hm'
    rcases List.mem_or_eq_of_mem_set hm' with hold | rfl
    · exact h.length_le m' hold
    · exact hb.length_le (h.length_le m hmem)
  case dropped =>
    -- the member that has moved counts its refusals, and no other has any
    intro j m' hm'
    replace hm' : (e.members.set i _)[j]? = some m' := hm'
    rw [List.getElem?_set] at hm'
    by_cases hj : i = j
    · subst hj
      rw [if_pos rfl, if_pos hi.1] at hm'
      obtain rfl := Option.some.inj hm'
      show t.backlog.dropped = _
      rw [hb.dropped, Account.refusedBy_add, UInt64.ofNat_add]
      exact congrArg (· + _) (h.dropped i m hm)
    · rw [if_neg hj] at hm'
      rw [Account.refusedBy_add, hb.refusedBy_other j (Ne.symm hj)]
      exact h.dropped j m' hm'
  case refused_le =>
    show (a.refused ++ b.refused).length ≤ (a.recorded ++ b.recorded).length
    rw [List.length_append, List.length_append]
    exact Nat.add_le_add h.refused_le hb.refused_le
  case counted =>
    -- one ledger is replaced, so the sum over all moves by as much as that one
    intro kind allowed
    have hledger := List.getElem?_eq_getElem (h.ledger_lt m hmem)
    have hsum : (e.afterLimiter i m t).decided kind allowed +
        ((e.limiterSession m).admission.get kind).decided allowed =
          e.decided kind allowed + (t.admission.get kind).decided allowed := by
      unfold limiterSession
      rw [hledger]
      exact sum_map_set (fun c : Counters => (c.admission.get kind).decided allowed) _ hledger
    have hcounted := hb.counted kind allowed
    have htotal := h.counted kind allowed
    rw [Account.recordedOf_add, UInt64.ofNat_add]
    grind

/-- A step of a drain conserves decisions. -/
theorem Conserves.drain (h : Conserves keyPrefix d e a) (hfew : a.recorded.length < 2 ^ 63) {i : ℕ}
    {m : Member α} (hm : e.members[i]? = some m) (size : ℕ) :
    Conserves keyPrefix d
      (e.afterLimiter i m (Limiter.drainStep keyPrefix e.clock size (e.limiterSession m)).2)
      (a.add (Limiter.drained keyPrefix e.clock (e.limiterSession m))) := by
  refine h.afterLimiter hm ((Limiter.drainStep_drains size _).balances i _) fun kind => ?_
  simp only [Account.writtenOf_add]
  exact Limiter.drainStep_holds size h.holds (h.hasRoom hfew hm) kind

section Runs

variable [Quantity α] [QuantityText α]

/-- A call of a limiter conserves decisions. -/
theorem Conserves.limit (h : Conserves keyPrefix d e a) {i : ℕ} {m : Member α}
    (hm : e.members[i]? = some m) (c : Limiter.Call α) :
    Conserves keyPrefix d
      (e.afterLimiter i m (Limiter.perform m.layer.limiter e.clock c (e.limiterSession m)).2)
      (a.add (e.limited i m c)) := by
  have hshared := h.keyPrefix_eq m (List.mem_of_getElem? hm)
  have heffect : Limiter.Effect m.layer.limiter _ _ _ :=
    Limiter.perform_effect e.clock c (e.limiterSession m)
  refine h.afterLimiter hm (heffect.balances i) fun kind => ?_
  have hcounts := h.holds kind
  simp only [Account.writtenOf_add]
  refine hcounts.congr (heffect.kept _ ?_ hcounts.deadline)
  rw [hshared]
  exact isStatistics keyPrefix kind

/-- A move conserves decisions. -/
theorem Conserves.move (h : Conserves keyPrefix d e a) (hfew : a.recorded.length < 2 ^ 63)
    {m : Move α} (hspares : m.Spares keyPrefix) (hmove : e.move m = .ok f) :
    Conserves keyPrefix d f (a.add (e.account m)) := by
  cases m with
  | limit i c =>
    obtain ⟨m, hm, rfl⟩ := limiting_cases hmove
    rw [account, hm]
    exact h.limit hm c
  | drain i size =>
    obtain ⟨m, hm, rfl⟩ := limiting_cases hmove
    rw [account, hm, Option.elim_some, h.keyPrefix_eq m (List.mem_of_getElem? hm)]
    exact h.drain hfew hm size
  | clock m =>
    rw [Deployment.move] at hmove
    cases hclock : m.apply e.clock with
    | error _ =>
      rw [hclock] at hmove
      cases hmove
    | ok clock =>
      rw [hclock] at hmove
      obtain rfl := Except.ok.inj hmove
      rw [account, Account.add_nothing]
      exact { h with }
  | failures plan failing =>
    obtain rfl := Except.ok.inj hmove
    rw [account, Account.add_nothing]
    exact { h with }
  | others c =>
    obtain rfl := Except.ok.inj hmove
    rw [account, Account.add_nothing]
    refine { h with holds := fun kind => ?_ }
    have hcounts := h.holds kind
    exact hcounts.congr (Store.perform_spares _ e.clock hspares (isStatistics keyPrefix kind)
      hcounts.deadline)

/-! ### Whole runs -/

/-- What a run does in its first move and then. -/
theorem run_cons {m : Move α} {ms : List (Move α)} (h : d.run (m :: ms) = .ok (f, a)) :
    ∃ e b, d.move m = .ok e ∧ e.run ms = .ok (f, b) ∧ a = (d.account m).add b := by
  unfold run at h
  cases hmove : d.move m with
  | error _ =>
    rw [hmove] at h
    cases h
  | ok e =>
    rw [hmove] at h
    replace h : (e.run ms).bind (fun r => .ok (r.1, (d.account m).add r.2)) = .ok (f, a) := h
    cases hrun : e.run ms with
    | error _ =>
      rw [hrun] at h
      cases h
    | ok r =>
      rw [hrun] at h
      obtain ⟨rfl, rfl⟩ := Prod.mk.inj (Except.ok.inj h)
      exact ⟨e, r.2, rfl, hrun, rfl⟩

/-- A run conserves decisions. -/
theorem run_conserves (ms : List (Move α)) (h : Conserves keyPrefix d e a)
    (hspares : ∀ m ∈ ms, m.Spares keyPrefix) {b : Account} (hrun : e.run ms = .ok (f, b))
    (hfew : (a.add b).recorded.length < 2 ^ 63) : Conserves keyPrefix d f (a.add b) := by
  induction ms generalizing e a b with
  | nil =>
    obtain ⟨rfl, rfl⟩ := Prod.mk.inj (Except.ok.inj hrun)
    rwa [Account.add_nothing]
  | cons m rest ih =>
    -- the account so far takes in that of the first move, and the rest goes on from there
    obtain ⟨g, b', hmove, hrest, rfl⟩ := run_cons hrun
    rw [← Account.add_assoc] at hfew ⊢
    refine ih (h.move ?_ (hspares m List.mem_cons_self) hmove)
      (fun m' hm' => hspares m' (List.mem_cons_of_mem m hm')) hrest hfew
    refine Nat.lt_of_le_of_lt ?_ hfew
    show _ ≤ ((a.recorded ++ _) ++ _).length
    rw [List.length_append, List.length_append]
    omega

end Runs

end Deployment
end Bulwark
