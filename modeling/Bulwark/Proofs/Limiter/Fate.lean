import Bulwark.Proofs.Breaker.Run
import Bulwark.Proofs.Limiter.Decisions
import Bulwark.Proofs.Store.Gate
import Bulwark.Proofs.Store.Stepping

/-!
# What becomes of a check

A check of one dimension meets one of five fates: its kind takes no part, its parameters describe no
bucket, the breaker lets no call pass, the store call fails, or the store decides.  The fate says
all that the check does (`checkWith_meets`, `check_meets`): what it answers, whether it calls the
store, what it leaves there, what the breaker is told, and what is counted.
-/

namespace Bulwark

section Gate

variable {α : Type} [Quantity α] [QuantityText α] {g : Gate} {now : Instant} {key : String}
  {r : Bucket.Request α}

/-- The error of a step leaves the store as it was, whether the gate or the store gives it. -/
theorem Gate.call_takeTokens_of_error {e : StoreError}
    (h : (g.call (·.takeTokens now key r)).1 = .error e) :
    (g.call (·.takeTokens now key r)).2 = g.next := by
  cases hrefusal : g.refusal? with
  | some _ => rw [call_of_refusal hrefusal]
  | none =>
    rw [call_of_pass hrefusal] at h ⊢
    by_cases htext : g.store.holdsText now key
    · rw [Store.takeTokens_of_text htext]
      show { g.next with store := g.store } = g.next
      rw [← g.next_store]
    · rw [Store.takeTokens_eq htext] at h
      cases h

/-- An answer comes through the gate.  It is that of the bucket that the step finds, and the store
is the one after the step. -/
theorem Gate.call_takeTokens_of_ok {outcome : Bucket.Outcome α}
    (h : (g.call (·.takeTokens now key r)).1 = .ok outcome) :
    g.refusal? = none ∧ ∃ current store,
      (g.call (·.takeTokens now key r)).2 = { g.next with store } ∧
      g.store.Finds now key r.now current ∧ outcome = (r.apply current).2 ∧
      g.store.Writes now key r.ttlSeconds (r.apply current).1 store := by
  cases hrefusal : g.refusal? with
  | some _ =>
    rw [call_of_refusal hrefusal] at h
    cases h
  | none =>
    rw [call_of_pass hrefusal] at h ⊢
    by_cases htext : g.store.holdsText now key
    · rw [Store.takeTokens_of_text htext] at h
      cases h
    · have hfinds : g.store.Finds now key r.now
          (Store.bucketOf? (g.store.fieldsAt now key) r.now) := Store.finds_iff.mpr ⟨htext, rfl⟩
      obtain ⟨hanswer, hwrites⟩ := Store.takeTokens_of_finds (r := r) hfinds
      exact ⟨rfl, _, _, rfl, hfinds, Except.ok.inj (h.symm.trans hanswer), hwrites⟩

end Gate

namespace Limiter

/-- What becomes of a dimension in a check. -/
inductive Fate (α : Type) where
  /-- Its kind takes no part. -/
  | exempt
  /-- Its parameters describe no bucket. -/
  | invalid
  /-- The breaker lets no call pass. -/
  | refused
  /-- The store call fails. -/
  | failed (e : StoreError)
  /-- The store decides. -/
  | decided (outcome : Bucket.Outcome α)

namespace Fate

variable {α : Type}

/-- Whether the request is let in. -/
def allowed : Fate α → Bool
  | .decided outcome => outcome.allowed
  | _ => true

/-- Whether the store is called. -/
def asks : Fate α → Bool
  | .failed _ => true
  | .decided _ => true
  | _ => false

/-- Whether the kind takes part. -/
def takesPart : Fate α → Bool
  | .exempt => false
  | _ => true

/-- The counts of the kind afterwards. -/
def counted (c : AdmissionCount) : Fate α → AdmissionCount
  | .exempt => c
  | .decided outcome => c.record outcome.allowed
  | _ => c.recordFailOpen.record true

/-- The breaker afterwards. -/
def breaker (settings : BreakerSettings) (now : ℕ) (b : Breaker) : Fate α → Breaker
  | .failed _ => (b.allow settings now).2.recordFailure settings now
  | .decided _ => (b.allow settings now).2.recordSuccess
  | _ => b

/-- Only the store rejects. -/
theorem allowed_of_undecided {f : Fate α} (h : ∀ outcome, f ≠ .decided outcome) :
    f.allowed = true := by
  cases f with
  | decided outcome => exact absurd rfl (h outcome)
  | _ => rfl

/-- The decision for the shared statistics. -/
def decision? (kind : DimensionKind) : Fate α → Option Decision
  | .decided outcome => some ⟨kind, outcome.allowed⟩
  | _ => none

end Fate

section Checks

variable {α : Type} [Quantity α] [QuantityText α]

/-- The fate of a dimension in a check with explicit parameters. -/
def fateWith (settings : LimiterSettings α) (now : Instant) (d : Dimension)
    (capacity rate interval cost : α) (s : Session) : Fate α :=
  if Allowance.areValid capacity rate interval && isCost cost then
    if (s.breaker.allow settings.breaker (Breaker.reading now)).1 then
      match (s.gate.call (·.takeTokens now (d.storageKey settings.keyPrefix)
          (request now capacity rate interval cost))).1 with
      | .ok outcome => .decided outcome
      | .error e => .failed e
    else .refused
  else .invalid

/-- The fate of a dimension in a check with the parameters of its kind. -/
def fateOn (settings : LimiterSettings α) (now : Instant) (d : Dimension) (s : Session) : Fate α :=
  let a := settings.allowances.get d.kind
  if a.enabled then fateWith settings now d a.capacity a.rate a.interval Quantity.one s else .exempt

/-- The admission step of a dimension with the parameters of its kind. -/
def requestOn (settings : LimiterSettings α) (now : Instant) (d : Dimension) : Bucket.Request α :=
  let a := settings.allowances.get d.kind
  request now a.capacity a.rate a.interval Quantity.one

/-- What decides the fate of a dimension: its parameters, then the breaker, then the store. -/
theorem fateWith_cases (settings : LimiterSettings α) (now : Instant) (d : Dimension)
    (capacity rate interval cost : α) (s : Session) :
    let payable := Allowance.areValid capacity rate interval && isCost cost
    let passes := s.breaker.allow settings.breaker (Breaker.reading now)
    let call := s.gate.call (·.takeTokens now (d.storageKey settings.keyPrefix)
      (request now capacity rate interval cost))
    let fate := fateWith settings now d capacity rate interval cost s
    payable = false ∧ fate = .invalid ∨
      payable = true ∧ passes = (false, s.breaker) ∧ fate = .refused ∨
      (∃ e, payable = true ∧ passes.1 = true ∧ call.1 = .error e ∧ fate = .failed e) ∨
      ∃ outcome, payable = true ∧ passes.1 = true ∧ call.1 = .ok outcome ∧
        fate = .decided outcome := by
  intro payable passes call fate
  cases hpayable : payable with
  | false => exact .inl ⟨rfl, if_neg (ne_true_of_eq_false hpayable)⟩
  | true =>
    have hfate : fate = if passes.1 then
        match call.1 with
        | .ok outcome => .decided outcome
        | .error e => .failed e
      else .refused := if_pos hpayable
    cases hpasses : passes.1 with
    | false =>
      rw [hpasses] at hfate
      refine .inr (.inl ⟨rfl, ?_, hfate⟩)
      rcases Breaker.allow_cases (s := settings.breaker) (Breaker.reading now) s.breaker with
        ⟨_, hallow⟩ | ⟨_, hallow⟩ | ⟨_, _, hallow⟩
      · exact absurd (hpasses.symm.trans (congrArg Prod.fst hallow)) nofun
      · exact hallow
      · exact absurd (hpasses.symm.trans (congrArg Prod.fst hallow)) nofun
    | true =>
      rw [hpasses] at hfate
      cases hcall : call.1 with
      | error e =>
        rw [hcall] at hfate
        exact .inr (.inr (.inl ⟨e, rfl, rfl, rfl, hfate⟩))
      | ok outcome =>
        rw [hcall] at hfate
        exact .inr (.inr (.inr ⟨outcome, rfl, rfl, rfl, hfate⟩))

theorem fateWith_takesPart (settings : LimiterSettings α) (now : Instant) (d : Dimension)
    (capacity rate interval cost : α) (s : Session) :
    (fateWith settings now d capacity rate interval cost s).takesPart = true := by
  rcases fateWith_cases settings now d capacity rate interval cost s with
    ⟨_, hfate⟩ | ⟨_, _, hfate⟩ | ⟨_, _, _, _, hfate⟩ | ⟨_, _, _, _, hfate⟩ <;> rw [hfate] <;> rfl

theorem fateOn_takesPart (settings : LimiterSettings α) (now : Instant) (d : Dimension)
    (s : Session) :
    (fateOn settings now d s).takesPart = (settings.allowances.get d.kind).enabled := by
  unfold fateOn
  dsimp only
  cases (settings.allowances.get d.kind).enabled with
  | true => exact fateWith_takesPart settings now d _ _ _ _ s
  | false => rfl

/-- All that a check does to a session, by the fate of its dimension. -/
structure Meets (settings : LimiterSettings α) (now : Instant) (d : Dimension)
    (r : Bucket.Request α) (f : Fate α) (s t : Session) : Prop where
  /-- The store is called or it is not. -/
  gate : { t.gate with store := s.gate.store } = if f.asks then s.gate.next else s.gate
  /-- The store is called with the breaker's leave only. -/
  admitted : f.asks = true → (s.breaker.allow settings.breaker (Breaker.reading now)).1 = true
  /-- The store answers calls that the gate lets through only. -/
  passed : ∀ outcome, f = .decided outcome → s.gate.refusal? = none
  /-- Only a step that the store answers changes it. -/
  kept : (∀ outcome, f ≠ .decided outcome) → t.gate.store = s.gate.store
  /-- A step that the store answers is one on the bucket that is found there. -/
  stepped : ∀ outcome, f = .decided outcome →
    ∃ current, s.gate.store.Finds now (d.storageKey settings.keyPrefix) r.now current ∧
      outcome = (r.apply current).2 ∧
      s.gate.store.Writes now (d.storageKey settings.keyPrefix) r.ttlSeconds (r.apply current).1
        t.gate.store
  breaker : t.breaker = f.breaker settings.breaker (Breaker.reading now) s.breaker
  admission : ∀ kind, t.admission.get kind =
    if kind = d.kind then f.counted (s.admission.get kind) else s.admission.get kind
  backlog : t.backlog =
    (f.decision? d.kind).toList.foldl (·.offer settings.backlogCapacity) s.backlog

/-- Without a decision of the store a check is a call at most. -/
theorem Meets.gate_of_undecided {settings : LimiterSettings α} {now : Instant} {d : Dimension}
    {r : Bucket.Request α} {f : Fate α} {s t : Session} (h : Meets settings now d r f s t)
    (hundecided : ∀ outcome, f ≠ .decided outcome) :
    t.gate = if f.asks then s.gate.next else s.gate := by
  have hgate := h.gate
  rw [← h.kept hundecided] at hgate
  exact hgate

variable (settings : LimiterSettings α) (now : Instant) (d : Dimension)

/-- What a check with explicit parameters answers and does. -/
theorem checkWith_meets (capacity rate interval cost : α) (s : Session) :
    (checkWith settings now d capacity rate interval cost s).1 =
        (fateWith settings now d capacity rate interval cost s).allowed ∧
      Meets settings now d (request now capacity rate interval cost)
        (fateWith settings now d capacity rate interval cost s) s
        (checkWith settings now d capacity rate interval cost s).2 := by
  obtain ⟨log, hcheck⟩ := checkWith_eq_verdict settings now d capacity rate interval cost s
  rw [hcheck]
  -- the counts of other kinds stay
  have hget : ∀ (f : Fate α) kind,
      (s.admission.set d.kind (f.counted (s.admission.get d.kind))).get kind =
        if kind = d.kind then f.counted (s.admission.get kind) else s.admission.get kind := by
    intro f kind
    rw [PerKind.get_set]
    split
    · rename_i hkind
      rw [hkind]
    · rfl
  unfold decisionsWith verdict? breakerAfter gateAfter
  rcases fateWith_cases settings now d capacity rate interval cost s with
    ⟨hpayable, hfate⟩ | ⟨hpayable, hpasses, hfate⟩ | ⟨e, hpayable, hpasses, hcall, hfate⟩ |
      ⟨outcome, hpayable, hpasses, hcall, hfate⟩
  · simp only [hpayable, hfate, Bool.false_and, Bool.false_eq_true, if_false]
    exact ⟨rfl, rfl, nofun, nofun, fun _ => rfl, nofun, rfl, hget .invalid, rfl⟩
  · simp only [hpayable, hpasses, hfate, Bool.and_false, Bool.false_eq_true, if_false, if_true]
    exact ⟨rfl, rfl, nofun, nofun, fun _ => rfl, nofun, rfl, hget .refused, rfl⟩
  · simp only [hpayable, hpasses, hcall, hfate, Bool.and_self, if_true]
    rw [Gate.call_takeTokens_of_error hcall]
    refine ⟨rfl, ?_, fun _ => hpasses, nofun, fun _ => s.gate.next_store, nofun, rfl,
      hget (.failed e), rfl⟩
    rw [← s.gate.next_store]
    rfl
  · simp only [hpayable, hpasses, hcall, hfate, Bool.and_self, if_true]
    obtain ⟨hpassed, current, store, hafter, hfinds, houtcome, hwrites⟩ :=
      Gate.call_takeTokens_of_ok hcall
    rw [hafter]
    refine ⟨rfl, ?_, fun _ => hpasses, fun _ _ => hpassed,
      fun hother => absurd rfl (hother outcome), fun o ho => ?_, rfl,
      hget (.decided outcome), rfl⟩
    · rw [← s.gate.next_store]
      rfl
    · obtain rfl := Fate.decided.inj ho
      exact ⟨current, hfinds, houtcome, hwrites⟩

/-- What a check with the parameters of its kind answers and does. -/
theorem check_meets (s : Session) :
    (check settings now d s).1 = (fateOn settings now d s).allowed ∧
      Meets settings now d (requestOn settings now d) (fateOn settings now d s) s
        (check settings now d s).2 := by
  unfold check fateOn requestOn
  dsimp only
  split
  · exact checkWith_meets settings now d _ _ _ _ s
  · exact ⟨rfl, rfl, nofun, nofun, fun _ => rfl, nofun, rfl, fun kind => by split <;> rfl, rfl⟩

end Checks
end Limiter
end Bulwark
