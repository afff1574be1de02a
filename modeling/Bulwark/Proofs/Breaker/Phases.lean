import Mathlib.Data.List.Induction
import Bulwark.Proofs.Breaker.Trials

/-!
# Phases of a breaker

The fields of a breaker are not independent of each other: the place of the trial call is taken
exactly in the trial phase, and a closed breaker has counted fewer failures than it takes to trip.
`Represents` says so, together with what is counted.  Every call keeps it, whatever the clock shows
and whether or not anybody has waited for the report.

From it we read off when a breaker changes its phase (`represents_run`).  It opens only in a failure
that completes the failures in a row, and closes only by hand or in the success of a trial.
-/

namespace Bulwark.Breaker

/-! ## Failures in a row -/

/-- The failures in a row after one more call. -/
def Call.streakAfter (failures : ℕ) : Call → ℕ
  | .allow => failures
  | .failure => failures + 1
  | .success => 0
  | .reset => 0

/-- Whether the failures in a row end with a call. -/
def Call.endsStreak (c : Call) : Bool := c = .success ∨ c = .reset

/-- The failures of a run since its last success or reset. -/
def streak (calls : List (Instant × Call)) : ℕ :=
  (calls.reverse.takeWhile fun c => !c.2.endsStreak).countP (·.2 = .failure)

/-- Failures in a row that open a closed breaker: at least one. -/
def failureLimit (s : BreakerSettings) : ℕ := max s.failureThreshold 1

theorem streak_append_singleton (calls : List (Instant × Call)) (c : Instant × Call) :
    streak (calls ++ [c]) = c.2.streakAfter (streak calls) := by
  obtain ⟨t, c⟩ := c
  unfold streak
  rw [List.reverse_append, List.reverse_singleton, List.singleton_append]
  cases c <;> simp [Call.endsStreak, Call.streakAfter]

theorem streak_le_countP (calls : List (Instant × Call)) :
    streak calls ≤ calls.countP (·.2 = .failure) := by
  unfold streak
  calc _ ≤ calls.reverse.countP (·.2 = .failure) :=
        (List.takeWhile_sublist _).countP_le
    _ = calls.countP (·.2 = .failure) := (List.reverse_perm calls).countP_eq _

/-! ## The invariant -/

/-- A breaker that has seen so many failures in a row. -/
structure Represents (s : BreakerSettings) (b : Breaker) (failures : ℕ) : Prop where
  /-- The place of the trial call is taken in the trial phase only. -/
  trialStart_iff : b.trialStart ≠ 0 ↔ b.phase = .trial
  counted : b.failures.toNat = failures
  below : b.phase = .closed → failures < failureLimit s

theorem represents_fresh (s : BreakerSettings) : Represents s fresh 0 where
  trialStart_iff := by simp [fresh]
  counted := rfl
  below _ := by simp [failureLimit]

variable {s : BreakerSettings} {b : Breaker} {failures : ℕ}

/-- The count of one more failure, while it does not start over. -/
theorem toNat_failures_add_one (h : b.failures.toNat = failures)
    (hfew : failures + 1 < UInt64.size) : (b.failures + 1).toNat = failures + 1 := by
  have hone : (1 : UInt64).toNat = 1 := rfl
  rw [UInt64.toNat_add, h, hone, Nat.mod_eq_of_lt hfew]

/-- A failure trips a closed breaker if it is the last one of the failures that this takes. -/
theorem Represents.tripsOnFailure_iff (h : b.Represents s failures)
    (hfew : failures + 1 < UInt64.size) (hclosed : b.phase = .closed) :
    b.tripsOnFailure s = true ↔ failures + 1 = failureLimit s := by
  have hcount := toNat_failures_add_one h.counted hfew
  have hbelow := h.below hclosed
  unfold failureLimit at hbelow ⊢
  simp only [tripsOnFailure, hclosed, hcount, beq_self_eq_true, Bool.true_and, Bool.or_eq_true,
    decide_eq_true_eq, beq_iff_eq, reduceCtorEq, false_or]
  omega

theorem Represents.allow (h : b.Represents s failures) (now : ℕ) :
    (b.allow s now).2.Represents s failures := by
  rcases allow_cases (s := s) now b with ⟨_, hallow⟩ | ⟨_, hallow⟩ | ⟨_, _, hallow⟩
  · rw [hallow]
    exact h
  · rw [hallow]
    exact h
  · -- a trial at reading zero is noted as one, so its place is taken
    rw [hallow]
    refine ⟨⟨fun _ => rfl, fun _ => ?_⟩, h.counted, nofun⟩
    show max now 1 ≠ 0
    omega

theorem represents_recordSuccess (s : BreakerSettings) (b : Breaker) :
    b.recordSuccess.Represents s 0 := by
  refine ⟨⟨fun hout => absurd rfl hout, fun htrial => ?_⟩, rfl, fun _ => by simp [failureLimit]⟩
  by_cases hphase : b.phase = .trial <;> simp [Breaker.recordSuccess, hphase] at htrial

theorem Represents.recordFailure (h : b.Represents s failures)
    (hfew : failures + 1 < UInt64.size) (now : ℕ) :
    (b.recordFailure s now).Represents s (failures + 1) := by
  refine ⟨?_, toNat_failures_add_one h.counted hfew, ?_⟩
  · have hslot := h.trialStart_iff
    obtain ⟨_, hcases⟩ := recordFailure_cases (s := s) now b
    rcases hcases with ⟨hbefore, hafter, hsame⟩ | ⟨_, hafter, hidle⟩ | ⟨hbefore, hafter, hsame⟩
    · rw [hsame, hslot, hbefore, hafter]
    · simp [hidle, hafter]
    · rw [hsame, hslot, hbefore, hafter]
  · intro hclosed
    -- a breaker that is closed after a failure was closed before and has not tripped
    by_cases htrips : b.tripsOnFailure s = true
    · simp [Breaker.recordFailure, htrips] at hclosed
    · have hbefore : b.phase = .closed := by
        simpa [Breaker.recordFailure, htrips] using hclosed
      have hbelow := h.below hbefore
      rw [h.tripsOnFailure_iff hfew hbefore] at htrips
      omega

theorem represents_reset (s : BreakerSettings) (b : Breaker) : b.reset.Represents s 0 := by
  refine ⟨⟨fun hout => absurd rfl hout, nofun⟩, rfl, fun _ => by simp [failureLimit]⟩

/-- One more call. -/
theorem Represents.perform (h : b.Represents s failures) {c : Call}
    (hfew : c.streakAfter failures < UInt64.size) (now : ℕ) :
    (b.perform s now c).2.Represents s (c.streakAfter failures) := by
  cases c with
  | allow => exact h.allow now
  | success => exact represents_recordSuccess s b
  | failure => exact h.recordFailure hfew now
  | reset => exact represents_reset s b

/-! ## Changes of phase -/

/-- A closed breaker opens in a failure that completes the failures that this takes. -/
theorem Represents.phase_ne_closed_iff (h : b.Represents s failures) {c : Call}
    (hfew : c.streakAfter failures < UInt64.size) (hclosed : b.phase = .closed) (now : ℕ) :
    (b.perform s now c).2.phase ≠ .closed ↔
      c = .failure ∧ c.streakAfter failures = failureLimit s := by
  cases c with
  | allow => simp [Breaker.perform, allow_of_closed hclosed, hclosed]
  | success => simp [Breaker.perform, Breaker.recordSuccess, hclosed]
  | failure =>
    have htrips := h.tripsOnFailure_iff hfew hclosed
    simp only [Breaker.perform, Breaker.recordFailure, hclosed, Call.streakAfter, true_and]
    rw [← htrips]
    split <;> simp_all
  | reset => simp [Breaker.perform, Breaker.reset]

/-- A breaker that is not closed closes by hand, or in the success of a trial. -/
theorem phase_closed_iff (hopen : b.phase ≠ .closed) (now : ℕ) (c : Call) :
    (b.perform s now c).2.phase = .closed ↔ c = .reset ∨ c = .success ∧ b.phase = .trial := by
  cases c with
  | allow =>
    rcases allow_cases (s := s) now b with ⟨hclosed, _⟩ | ⟨_, hallow⟩ | ⟨_, _, hallow⟩
    · exact absurd hclosed hopen
    · simp [Breaker.perform, hallow, hopen]
    · simp [Breaker.perform, hallow, withTrial]
  | success =>
    by_cases hphase : b.phase = .trial
    · simp [Breaker.perform, Breaker.recordSuccess, hphase]
    · simp [Breaker.perform, Breaker.recordSuccess, hphase, hopen]
  | failure =>
    obtain ⟨_, hcases⟩ := recordFailure_cases (s := s) now b
    rcases hcases with ⟨hclosed, _⟩ | ⟨_, hafter, _⟩ | ⟨_, hafter, _⟩
    · exact absurd hclosed hopen
    · simp [Breaker.perform, hafter]
    · simp [Breaker.perform, hafter]
  | reset => simp [Breaker.perform, Breaker.reset]

/-! ## Whole runs -/

/-- The breaker at the end of a run has counted the failures since the last success or reset. -/
theorem represents_run (s : BreakerSettings) (calls : List (Instant × Call))
    (hfew : calls.countP (·.2 = .failure) < UInt64.size) :
    (fresh.run s calls).Represents s (streak calls) := by
  induction calls using List.reverseRecOn with
  | nil => exact represents_fresh s
  | append_singleton calls c ih =>
    have hcount := streak_le_countP (calls ++ [c])
    have hbefore := ih <| by
      rw [List.countP_append] at hfew
      omega
    rw [streak_append_singleton] at hcount ⊢
    rw [run_append]
    exact hbefore.perform (by omega) (reading c.1)

/-- **Phases of a breaker.**  After any run with fewer failures than can be counted, under any
movements of the clock, the place of the trial call is taken exactly in the trial phase, the count
is that of the failures since the last success or reset, and it stays below the limit while the
breaker is closed.  Of all calls of the run, a closed breaker opens in those failures that complete
the limit, and any other one closes in resets and in successes of a trial. -/
theorem phases_of_run (s : BreakerSettings) (calls : List (Instant × Call))
    (hfew : calls.countP (·.2 = .failure) < UInt64.size) :
    ((fresh.run s calls).trialStart ≠ 0 ↔ (fresh.run s calls).phase = .trial) ∧
      (fresh.run s calls).failures.toNat = streak calls ∧
      ((fresh.run s calls).phase = .closed →
        (fresh.run s calls).failures.toNat < max s.failureThreshold 1) ∧
      ∀ past t c future, calls = past ++ (t, c) :: future →
        let before := fresh.run s past
        let after := fresh.run s (past ++ [(t, c)])
        (before.phase = .closed → (after.phase ≠ .closed ↔
          c = .failure ∧ after.failures.toNat = max s.failureThreshold 1)) ∧
        (before.phase ≠ .closed → (after.phase = .closed ↔
          c = .reset ∨ c = .success ∧ before.phase = .trial)) := by
  have hend := represents_run s calls hfew
  refine ⟨hend.trialStart_iff, hend.counted, fun hclosed => ?_, ?_⟩
  · rw [hend.counted]
    exact hend.below hclosed
  · intro past t c future hsplit before after
    -- the calls up to this one are a run with no more failures
    have hcount : (past ++ [(t, c)]).countP (·.2 = .failure) < UInt64.size := by
      rw [hsplit, List.append_cons, List.countP_append] at hfew
      omega
    have hbefore := represents_run s past <| by
      rw [List.countP_append] at hcount
      omega
    have hafter := represents_run s (past ++ [(t, c)]) hcount
    have hstreak := streak_append_singleton past (t, c)
    have hstep : after = (before.perform s (reading t) c).2 := run_append fresh past [(t, c)]
    refine ⟨fun hclosed => ?_, fun hopen => ?_⟩
    · have hlimit := hbefore.phase_ne_closed_iff (c := c) ?_ hclosed (reading t)
      · rw [hstep, hlimit, ← hstep, hafter.counted, hstreak]
        rfl
      · have hle := streak_le_countP (past ++ [(t, c)])
        rw [hstreak] at hle
        exact Nat.lt_of_le_of_lt hle hcount
    · rw [hstep]
      exact phase_closed_iff hopen (reading t) c

/-- Trips at the second failure, for ten seconds. -/
def patient : BreakerSettings := ⟨2, 10⟩

/-- Two failures, a success that comes late, a trial that fails, one that succeeds, a failure, and a
reset. -/
def callsInAllPhases : List (Instant × Call) :=
  [(atSecond 0, .failure), (atSecond 1, .failure), (atSecond 2, .success), (atSecond 3, .failure),
    (atSecond 13, .allow), (atSecond 14, .failure), (atSecond 9, .allow), (atSecond 30, .allow),
    (atSecond 31, .success), (atSecond 32, .failure), (atSecond 33, .reset)]

/-- The late success starts the count over, so the trial fails with the second failure in a row. -/
theorem phases_of_run_callsInAllPhases :
    callsInAllPhases.countP (·.2 = .failure) < UInt64.size ∧
      (callsInAllPhases.inits.map fun calls =>
        ((fresh.run patient calls).phase, streak calls)) =
        [(.closed, 0), (.closed, 1), (.tripped, 2), (.tripped, 0), (.tripped, 1), (.trial, 1),
          (.tripped, 2), (.tripped, 2), (.trial, 2), (.closed, 0), (.closed, 1), (.closed, 0)] ∧
      (fresh.run patient callsInAllPhases).failures.toNat = 0 ∧
      ∀ past t c future, callsInAllPhases = past ++ (t, c) :: future →
        (fresh.run patient past).phase = .closed →
        (fresh.run patient (past ++ [(t, c)])).phase ≠ .closed → c = .failure := by
  have hfew : callsInAllPhases.countP (·.2 = .failure) < UInt64.size := by decide
  obtain ⟨_, hcount, _, hchanges⟩ := phases_of_run patient callsInAllPhases hfew
  refine ⟨hfew, by decide, ?_, ?_⟩
  · rw [hcount]
    decide
  · intro past t c future hsplit hclosed hopens
    exact (((hchanges past t c future hsplit).1 hclosed).mp hopens).1

end Bulwark.Breaker
