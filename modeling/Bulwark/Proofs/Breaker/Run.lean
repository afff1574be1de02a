import Bulwark.Breaker
import Bulwark.Proofs.Time.Instant

/-!
# Runs of a breaker

A run of a breaker is a list of calls, each at its own moment.  What a call for permission can lead
to is said once (`allow_cases`): it passes a closed breaker, it is refused because something recent
stands against it, or it takes the place of the trial call.

A breaker reads the clock in 64 bits and cannot tell the moments before the epoch apart, nor those
after the last reading.  Readings never run faster than the clock (`timeBetween_of_reading`), which
is all that the bounds on moments need.
-/

namespace Bulwark.Breaker

/-! ## Readings -/

section Readings

variable {t u : Instant}

/-- Time that shows between two readings has passed between the moments. -/
theorem timeBetween_of_reading {d : ℕ} (hpos : 0 < d) (h : d ≤ reading u - reading t) :
    t.nanos + d ≤ u.nanos := by
  unfold reading at h
  omega

end Readings

variable (s : BreakerSettings)

/-! ## One call -/

/-- Something recent stands against a call: the last failure of a tripped breaker, or the start of
the trial that is out. -/
def Refuses (now : ℕ) (b : Breaker) : Prop :=
  b.phase = .tripped ∧ isRecent s b.lastFailure now = true ∨
    b.phase ≠ .closed ∧ b.trialStart ≠ 0 ∧ isRecent s b.trialStart (max now 1) = true

/-- A trial call that starts. -/
def withTrial (now : ℕ) (b : Breaker) : Breaker := { b with phase := .trial, trialStart := max now 1 }

variable {s}

theorem allow_of_closed {b : Breaker} (h : b.phase = .closed) (now : ℕ) :
    b.allow s now = (true, b) := by
  simp only [allow, h]

theorem startTrial_cases (now : ℕ) (b : Breaker) :
    (b.trialStart ≠ 0 ∧ isRecent s b.trialStart (max now 1) = true) ∧
        startTrial s now b = (false, b) ∨
      ¬ (b.trialStart ≠ 0 ∧ isRecent s b.trialStart (max now 1) = true) ∧
        startTrial s now b = (true, { b with trialStart := max now 1 }) := by
  unfold startTrial
  by_cases hout : b.trialStart ≠ 0 ∧ isRecent s b.trialStart (max now 1) = true
  · exact .inl ⟨hout, if_pos hout⟩
  · exact .inr ⟨hout, if_neg hout⟩

/-- What a call for permission leads to. -/
theorem allow_cases (now : ℕ) (b : Breaker) :
    b.phase = .closed ∧ b.allow s now = (true, b) ∨
      b.Refuses s now ∧ b.allow s now = (false, b) ∨
      b.phase ≠ .closed ∧ ¬ b.Refuses s now ∧ b.allow s now = (true, b.withTrial now) := by
  obtain ⟨phase, failures, lastFailure, trialStart⟩ := b
  unfold allow Refuses withTrial
  dsimp only
  cases phase with
  | closed => exact .inl ⟨rfl, rfl⟩
  | trial =>
    right
    rcases startTrial_cases now ⟨.trial, failures, lastFailure, trialStart⟩ with
      ⟨hout, hstart⟩ | ⟨hout, hstart⟩
    · exact .inl ⟨.inr ⟨nofun, hout⟩, hstart⟩
    · refine .inr ⟨nofun, ?_, hstart⟩
      rintro (⟨hnot, _⟩ | ⟨_, hrecent⟩)
      · cases hnot
      · exact hout hrecent
  | tripped =>
    right
    dsimp only
    by_cases hfailed : isRecent s lastFailure now = true
    · rw [if_pos hfailed]
      exact .inl ⟨.inl ⟨rfl, hfailed⟩, rfl⟩
    · rw [if_neg hfailed]
      rcases startTrial_cases now ⟨.tripped, failures, lastFailure, trialStart⟩ with
        ⟨hout, hstart⟩ | ⟨hout, hstart⟩
      · rw [hstart]
        exact .inl ⟨.inr ⟨nofun, hout⟩, rfl⟩
      · rw [hstart]
        refine .inr ⟨nofun, ?_, rfl⟩
        rintro (⟨_, hrecent⟩ | ⟨_, hrecent⟩)
        · exact hfailed hrecent
        · exact hout hrecent

/-- After a failure, a breaker that trips or has tripped before counts from this failure on.  Only
a closed one may stay as it is. -/
theorem recordFailure_cases (now : ℕ) (b : Breaker) :
    (b.recordFailure s now).lastFailure = now ∧
      (b.phase = .closed ∧ (b.recordFailure s now).phase = .closed ∧
          (b.recordFailure s now).trialStart = b.trialStart ∨
        b.phase ≠ .tripped ∧ (b.recordFailure s now).phase = .tripped ∧
          (b.recordFailure s now).trialStart = 0 ∨
        b.phase = .tripped ∧ (b.recordFailure s now).phase = .tripped ∧
          (b.recordFailure s now).trialStart = b.trialStart) := by
  refine ⟨rfl, ?_⟩
  unfold recordFailure tripsOnFailure
  cases b.phase with
  | trial => exact .inr (.inl ⟨nofun, rfl, rfl⟩)
  | tripped => exact .inr (.inr ⟨rfl, rfl, rfl⟩)
  | closed =>
    cases decide (s.failureThreshold ≤ (b.failures + 1).toNat) with
    | true => exact .inr (.inl ⟨nofun, rfl, rfl⟩)
    | false => exact .inl ⟨rfl, rfl, rfl⟩

/-! ## Many calls -/

variable (s)

/-- A breaker after calls, each at its moment. -/
def run (b : Breaker) (calls : List (Instant × Call)) : Breaker :=
  calls.foldl (fun b c => (b.perform s (reading c.1) c.2).2) b

/-- The moments of a run at which a call was let through. -/
def admissions (b : Breaker) : List (Instant × Call) → List Instant
  | [] => []
  | (t, c) :: rest =>
    let (answer, after) := b.perform s (reading t) c
    if answer = some true then t :: admissions after rest else admissions after rest

variable {s}

@[simp]
theorem run_cons (b : Breaker) (c : Instant × Call) (rest : List (Instant × Call)) :
    b.run s (c :: rest) = (b.perform s (reading c.1) c.2).2.run s rest := rfl

theorem run_append (b : Breaker) (calls calls' : List (Instant × Call)) :
    b.run s (calls ++ calls') = (b.run s calls).run s calls' := List.foldl_append

end Bulwark.Breaker
