import Bulwark.Proofs.Breaker.Outage
import Bulwark.Proofs.Limiter.Passage

/-!
# A limiter in an outage

While every store call fails, a limiter lets every request in, counts each check as one that failed
open, and spares the store: its breaker lets through as many calls as it takes to trip, and then one
for each recovery timeout that has passed (`outage_bounded`).  All dimensions share the breaker, so
the bound holds for all of them together.

The invariant of a run is `Outlasts`.  A check moves it by the fate of its dimension, which is never
a decision of the store (`Outlasts.meets`).
-/

namespace Bulwark

/-- A gate that is off refuses every call. -/
theorem Gate.refusal?_iterate_ne_none {g : Gate} (h : g.failing = true) (n : ℕ) :
    (Gate.next^[n] g).refusal? ≠ none := by
  have hfailing : (Gate.next^[n] g).failing = true := by
    induction n generalizing g with
    | zero => exact h
    | succ n ih => exact ih ((Gate.next_failing g).trans h)
  unfold Gate.refusal?
  rw [hfailing]
  split <;> nofun

namespace Limiter

open Breaker (MayTrip)

variable {α : Type}

/-! ## Checks in an outage -/

/-- A call that checks dimensions. -/
def Call.isCheck : Call α → Bool
  | .check _ => true
  | .checkWith _ _ _ _ _ => true
  | .checkAll _ _ _ => true
  | _ => false

section Checks

variable (settings : LimiterSettings α)

/-- The kinds of dimensions that take part. -/
def participants (dims : List Dimension) : List DimensionKind :=
  (dims.map (·.kind)).filter fun kind => (settings.allowances.get kind).enabled

/-- The kinds of the checks in a call, as far as they take part and if none rejects.  A check with
explicit parameters always takes part. -/
def Call.checked : Call α → List DimensionKind
  | .check d => participants settings [d]
  | .checkWith d _ _ _ _ => [d.kind]
  | .checkAll ip user endpoint => participants settings (dimensionsOf ip user endpoint)
  | _ => []

theorem participants_cons (d : Dimension) (rest : List Dimension) :
    participants settings (d :: rest) =
      participants settings [d] ++ participants settings rest := by
  unfold participants
  rw [← List.filter_append]
  rfl

end Checks

/-- The counts of a kind after so many admissions without a check, and nothing else. -/
def failedOpen (n : ℕ) : AdmissionCount := ⟨.ofNat n, .ofNat n, 0, .ofNat n⟩

theorem Fate.counted_failedOpen {f : Fate α} (h : ∀ outcome, f ≠ .decided outcome) (n : ℕ) :
    f.counted (failedOpen n) = failedOpen (n + if f.takesPart then 1 else 0) := by
  have hsucc : (failedOpen n).recordFailOpen.record true = failedOpen (n + 1) := by
    have hofNat : UInt64.ofNat (n + 1) = UInt64.ofNat n + 1 := UInt64.ofNat_add _ _
    unfold failedOpen
    rw [hofNat]
    rfl
  cases f with
  | exempt => rfl
  | decided outcome => exact absurd rfl (h outcome)
  | _ => exact hsucc

/-- An outage that a breaker can end: the connection is off, the recovery timeout is not zero, and
the failure threshold can be reached. -/
structure Outage (settings : LimiterSettings α) (s : Session) : Prop where
  down : s.gate.failing = true
  timeout_pos : 0 < settings.breaker.recoveryTimeoutSeconds
  threshold_lt : settings.breaker.failureThreshold < UInt64.size

/-- All that checks in an outage have done to a session: so many store calls were made, and an
admission was counted for each of the kinds. -/
structure Outlasts (settings : LimiterSettings α) (last : Instant) (s : Session) (n : ℕ)
    (tripped : Option Instant) (kinds : List DimensionKind) (t : Session) : Prop where
  gate : t.gate = Gate.next^[n] s.gate
  breaker : t.breaker.Strained settings.breaker last n tripped
  admission : ∀ kind, t.admission.get kind = failedOpen (kinds.count kind)
  backlog : t.backlog = s.backlog

variable [Quantity α] [QuantityText α] {settings : LimiterSettings α} {last now : Instant}
  {s t u : Session} {n : ℕ} {tripped : Option Instant} {kinds : List DimensionKind}
  {d : Dimension} {r : Bucket.Request α} {f : Fate α}

/-- A check in an outage lets the request in, and is one more without a decision of the store. -/
theorem Outlasts.meets (h : Outlasts settings last s n tripped kinds t)
    (houtage : Outage settings s) (hnow : now ≤ last) (hmeets : Meets settings now d r f t u) :
    f.allowed = true ∧ ∃ tripped',
      Outlasts settings last s (n + if f.asks then 1 else 0) tripped'
        (kinds ++ if f.takesPart then [d.kind] else []) u ∧ MayTrip now tripped tripped' := by
  have hundecided : ∀ outcome, f ≠ .decided outcome := by
    intro outcome hf
    have hpassed := hmeets.passed outcome hf
    rw [h.gate] at hpassed
    exact Gate.refusal?_iterate_ne_none houtage.down n hpassed
  have hgate : u.gate = Gate.next^[n + if f.asks then 1 else 0] s.gate := by
    rw [hmeets.gate_of_undecided hundecided, h.gate]
    split
    · rw [Function.iterate_succ_apply']
    · rfl
  have hbreaker : ∃ tripped', u.breaker.Strained settings.breaker last
      (n + if f.asks then 1 else 0) tripped' ∧ MayTrip now tripped tripped' := by
    rw [hmeets.breaker]
    cases f with
    | failed e =>
      exact h.breaker.failure houtage.timeout_pos houtage.threshold_lt hnow (hmeets.admitted rfl)
    | decided outcome => exact absurd rfl (hundecided outcome)
    | _ => exact ⟨tripped, h.breaker, .refl now tripped⟩
  have hadmission : ∀ kind, u.admission.get kind =
      failedOpen ((kinds ++ if f.takesPart then [d.kind] else []).count kind) := by
    intro kind
    rw [hmeets.admission, h.admission, Fate.counted_failedOpen hundecided, List.count_append]
    by_cases hkind : kind = d.kind
    · rw [if_pos hkind, hkind]
      split
      · rw [List.count_singleton_self]
      · rfl
    · rw [if_neg hkind]
      split
      · rw [List.count_singleton, if_neg (by simpa using Ne.symm hkind), Nat.add_zero]
      · rfl
  have hbacklog : u.backlog = s.backlog := by
    rw [hmeets.backlog, ← h.backlog]
    cases f with
    | decided outcome => exact absurd rfl (hundecided outcome)
    | _ => rfl
  obtain ⟨tripped', hstrained, hmoment⟩ := hbreaker
  exact ⟨Fate.allowed_of_undecided hundecided, tripped',
    ⟨hgate, hstrained, hadmission, hbacklog⟩, hmoment⟩

/-- A check with the parameters of its kind in an outage. -/
theorem Outlasts.check (h : Outlasts settings last s n tripped kinds t)
    (houtage : Outage settings s) (hnow : now ≤ last) (d : Dimension) :
    (Limiter.check settings now d t).1 = true ∧ ∃ tripped',
      Outlasts settings last s (n + if (fateOn settings now d t).asks then 1 else 0) tripped'
        (kinds ++ participants settings [d]) (Limiter.check settings now d t).2 ∧
      MayTrip now tripped tripped' := by
  obtain ⟨hanswer, hmeets⟩ := check_meets settings now d t
  obtain ⟨hallowed, hmoved⟩ := h.meets houtage hnow hmeets
  have hkinds : participants settings [d] =
      if (fateOn settings now d t).takesPart then [d.kind] else [] := by
    rw [fateOn_takesPart, participants, List.map_singleton, List.filter_singleton]
    cases (settings.allowances.get d.kind).enabled <;> rfl
  rw [hkinds]
  exact ⟨hanswer.trans hallowed, hmoved⟩

/-- Checks of dimensions in an outage. -/
theorem Outlasts.checkEach (h : Outlasts settings last s n tripped kinds t)
    (houtage : Outage settings s) (hnow : now ≤ last) (dims : List Dimension) :
    (Limiter.checkEach settings now dims t).1 = true ∧ ∃ tripped',
      Outlasts settings last s (n + (fates settings now dims t).countP (·.2.asks)) tripped'
        (kinds ++ participants settings dims) (Limiter.checkEach settings now dims t).2 ∧
      MayTrip now tripped tripped' := by
  induction dims generalizing n tripped kinds t with
  | nil =>
    refine ⟨rfl, tripped, ?_, .refl now tripped⟩
    rw [participants, List.map_nil, List.filter_nil, List.append_nil]
    exact h
  | cons d rest ih =>
    obtain ⟨hyes, tripped', hfirst, hmoment⟩ := h.check houtage hnow d
    obtain ⟨hyesRest, tripped'', hrest, hmomentRest⟩ := ih hfirst
    unfold Limiter.checkEach
    rw [bind_apply, hyes, participants_cons, ← List.append_assoc]
    have hcalls : n + (fates settings now (d :: rest) t).countP (·.2.asks) =
        n + (if (fateOn settings now d t).asks then 1 else 0) +
          (fates settings now rest (Limiter.check settings now d t).2).countP (·.2.asks) := by
      rw [fates, List.countP_cons, Nat.add_assoc, Nat.add_comm (List.countP _ _)]
    rw [hcalls]
    exact ⟨hyesRest, tripped'', hrest, hmoment.trans hmomentRest⟩

/-! ## Runs -/

section Runs

variable (settings)

/-- The session after calls, each at its moment. -/
def afterCalls (run : List (Instant × Call α)) (s : Session) : Session :=
  run.foldl (fun s c => (perform settings c.1 c.2 s).2) s

/-- The replies to calls, each at its moment. -/
def replies : List (Instant × Call α) → Session → List (Reply α)
  | [], _ => []
  | (now, c) :: rest, s =>
    let (reply, t) := perform settings now c s
    reply :: replies rest t

/-- The fates of the dimensions that a call checks, if none rejects. -/
def fatesIn (now : Instant) : Call α → Session → List (Dimension × Fate α)
  | .check d, s => [(d, fateOn settings now d s)]
  | .checkWith d capacity rate interval cost, s =>
    [(d, fateWith settings now d capacity rate interval cost s)]
  | .checkAll ip user endpoint, s => fates settings now (dimensionsOf ip user endpoint) s
  | _, _ => []

/-- The store calls in a run of checks of which none rejects. -/
def storeCalls : List (Instant × Call α) → Session → ℕ
  | [], _ => 0
  | (now, c) :: rest, s =>
    (fatesIn settings now c s).countP (·.2.asks) + storeCalls rest (perform settings now c s).2

/-- The moment of the first call in a run that leaves the breaker tripped. -/
def trippedAt? : List (Instant × Call α) → Session → Option Instant
  | [], _ => none
  | (now, c) :: rest, s =>
    let t := (perform settings now c s).2
    if t.breaker.phase = .closed then trippedAt? rest t else some now

variable {settings}

/-- A call that checks in an outage. -/
theorem Outlasts.perform (h : Outlasts settings last s n tripped kinds t)
    (houtage : Outage settings s) (hnow : now ≤ last) {c : Call α} (hcheck : c.isCheck = true) :
    (Limiter.perform settings now c t).1 = .decided true ∧ ∃ tripped',
      Outlasts settings last s (n + (fatesIn settings now c t).countP (·.2.asks)) tripped'
        (kinds ++ c.checked settings) (Limiter.perform settings now c t).2 ∧
      MayTrip now tripped tripped' := by
  cases c with
  | check d =>
    obtain ⟨hyes, hmoved⟩ := h.check houtage hnow d
    rw [fatesIn, List.countP_singleton]
    exact ⟨congrArg Reply.decided hyes, hmoved⟩
  | checkWith d capacity rate interval cost =>
    obtain ⟨hanswer, hmeets⟩ := checkWith_meets settings now d capacity rate interval cost t
    obtain ⟨hallowed, hmoved⟩ := h.meets houtage hnow hmeets
    rw [fateWith_takesPart, if_pos rfl] at hmoved
    rw [fatesIn, List.countP_singleton]
    exact ⟨congrArg Reply.decided (hanswer.trans hallowed), hmoved⟩
  | checkAll ip user endpoint =>
    obtain ⟨hyes, hmoved⟩ := h.checkEach houtage hnow (dimensionsOf ip user endpoint)
    exact ⟨congrArg Reply.decided hyes, hmoved⟩
  | _ => cases hcheck

/-- A run of checks in an outage. -/
theorem Outlasts.run (h : Outlasts settings last s n tripped kinds t) (houtage : Outage settings s)
    {run : List (Instant × Call α)} (hchecks : ∀ c ∈ run, c.2.isCheck = true)
    (hlast : ∀ c ∈ run, c.1 ≤ last) :
    replies settings run t = run.map (fun _ => .decided true) ∧
      Outlasts settings last s (n + storeCalls settings run t)
        (tripped.or (trippedAt? settings run t)) (kinds ++ run.flatMap (·.2.checked settings))
        (afterCalls settings run t) := by
  induction run generalizing n tripped kinds t with
  | nil =>
    rw [List.flatMap_nil, List.append_nil, trippedAt?, Option.or_none]
    exact ⟨rfl, h⟩
  | cons first rest ih =>
    obtain ⟨now, c⟩ := first
    obtain ⟨hyes, tripped', hfirst, hmoment⟩ :=
      h.perform houtage (hlast _ List.mem_cons_self) (hchecks _ List.mem_cons_self)
    obtain ⟨hreplies, hrest⟩ := ih hfirst (fun c hc => hchecks c (List.mem_cons_of_mem _ hc))
      (fun c hc => hlast c (List.mem_cons_of_mem _ hc))
    -- the first trip is at this call, or it is that of the rest
    have htripped : tripped.or (trippedAt? settings ((now, c) :: rest) t) =
        tripped'.or (trippedAt? settings rest (Limiter.perform settings now c t).2) := by
      have hclosed := hfirst.breaker.phase_closed_iff
      rw [trippedAt?]
      rcases hmoment with rfl | ⟨rfl, rfl⟩
      · cases tripped' with
        | some first => rfl
        | none => rw [if_pos (hclosed.mpr rfl)]
      · rw [if_neg fun hphase => absurd (hclosed.mp hphase) nofun]
        rfl
    rw [htripped, storeCalls, ← Nat.add_assoc, List.flatMap_cons, ← List.append_assoc]
    exact ⟨congrArg₂ List.cons hyes hreplies, hrest⟩

/-- **An outage is borne, and the store is spared.**  From a fresh limiter on, while every store
call fails, every check lets its request in, every check of a kind that takes part is counted as an
admission that failed open and as nothing else, and nothing is queued for the shared statistics.
The store is called at most as often as it takes to trip the breaker, which is once at least, and
once more for each recovery timeout that has passed since it first tripped.  Failures are counted in
64 bits, so the threshold has to fit into them. -/
theorem outage_bounded {run : List (Instant × Call α)} (hbreaker : s.breaker = .fresh)
    (hadmission : s.admission = .replicate .zero) (hdown : s.gate.failing = true)
    (hT : 0 < settings.breaker.recoveryTimeoutSeconds)
    (hthreshold : settings.breaker.failureThreshold < UInt64.size)
    (hchecks : ∀ c ∈ run, c.2.isCheck = true) (hlast : ∀ c ∈ run, c.1 ≤ last) :
    let calls := storeCalls settings run s
    let t := afterCalls settings run s
    replies settings run s = run.map (fun _ => .decided true) ∧
      (∀ kind, t.admission.get kind =
        failedOpen ((run.flatMap (·.2.checked settings)).count kind)) ∧
      t.gate = Gate.next^[calls] s.gate ∧ t.backlog = s.backlog ∧
      calls ≤ max settings.breaker.failureThreshold 1 +
        match trippedAt? settings run s with
        | none => 0
        | some first => (first.timeTo last).nanos / settings.breaker.recoveryTimeout.nanos := by
  intro calls t
  have houtage : Outage settings s := ⟨hdown, hT, hthreshold⟩
  have hstrained : s.breaker.Strained settings.breaker last 0 none :=
    hbreaker ▸ Breaker.strained_fresh settings.breaker last
  have hzero : ∀ kind, s.admission.get kind = failedOpen 0 := fun kind => by
    rw [hadmission, PerKind.get_replicate]
    rfl
  have hstart : Outlasts settings last s 0 none [] s := ⟨rfl, hstrained, hzero, rfl⟩
  obtain ⟨hreplies, hend⟩ := hstart.run houtage hchecks hlast
  rw [Nat.zero_add, List.nil_append, Option.none_or] at hend
  exact ⟨hreplies, hend.admission, hend.gate, hend.backlog, hend.breaker.failures_le hT⟩

end Runs

/-- Settings under which two failures trip the breaker for half a minute, and the address takes no
part. -/
def twoFailures : LimiterSettings ℚ :=
  { (.standard : LimiterSettings ℚ) with
    allowances := { (.standard : LimiterSettings ℚ).allowances with ip := .disabled }
    breaker := ⟨2, 30⟩ }

/-- A limiter that nobody has called, in front of a store that cannot be reached. -/
def unreachable : Session := { unused with gate := { unused.gate with failing := true } }

/-- A minute of checks. -/
def outageMinute : List (Instant × Call ℚ) :=
  let second (n : ℤ) : Instant := ⟨n * nanosPerSecond⟩
  [(second 0, .checkAll "10.0.0.1" (some "ann") "/pay"),
    (second 1, .check ⟨.ip, "10.0.0.1"⟩),
    (second 31, .checkWith ⟨.ip, "10.0.0.1"⟩ 1 1 60 2),
    (second 32, .checkWith ⟨.ip, "10.0.0.1"⟩ 0 1 60 2),
    (second 61, .checkAll "10.0.0.1" none "/pay")]

/-- The breaker trips at once, and the two timeouts since let two calls through: the bound is
met. -/
theorem outage_bounded_outageMinute :
    let last : Instant := ⟨61 * nanosPerSecond⟩
    let calls := @storeCalls ℚ _ Quantity.fractions twoFailures outageMinute unreachable
    let t := @afterCalls ℚ _ Quantity.fractions twoFailures outageMinute unreachable
    unreachable.breaker = .fresh ∧ unreachable.admission = .replicate .zero ∧
      unreachable.gate.failing = true ∧ 0 < twoFailures.breaker.recoveryTimeoutSeconds ∧
      twoFailures.breaker.failureThreshold < UInt64.size ∧
      (∀ c ∈ outageMinute, c.2.isCheck = true) ∧ (∀ c ∈ outageMinute, c.1 ≤ last) ∧
      calls = 4 ∧ t.admission.get .ip = failedOpen 2 ∧ t.gate = Gate.next^[4] unreachable.gate ∧
      @trippedAt? ℚ _ Quantity.fractions twoFailures outageMinute unreachable = some ⟨0⟩ ∧
      calls ≤ 2 + 61 / 30 := by
  intro last calls t
  have hthreshold : twoFailures.breaker.failureThreshold < UInt64.size := by decide
  have hchecks : ∀ c ∈ outageMinute, c.2.isCheck = true := by decide
  have hlast : ∀ c ∈ outageMinute, c.1 ≤ last := by decide
  have hcalls : calls = 4 := by decide +kernel
  have htripped : @trippedAt? ℚ _ Quantity.fractions twoFailures outageMinute unreachable =
      some ⟨0⟩ := by decide +kernel
  obtain ⟨_, hadmission, hgate, _, hbound⟩ := @outage_bounded ℚ _ Quantity.fractions twoFailures
    last unreachable outageMinute rfl rfl rfl (by decide) hthreshold hchecks hlast
  rw [htripped] at hbound
  have hgate : t.gate = Gate.next^[calls] unreachable.gate := hgate
  rw [hcalls] at hgate
  exact ⟨rfl, rfl, rfl, by decide, hthreshold, hchecks, hlast, hcalls, hadmission .ip, hgate,
    htripped, hbound.trans (by decide)⟩

end Limiter
end Bulwark
