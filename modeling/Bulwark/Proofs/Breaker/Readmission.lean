import Mathlib.Data.List.Induction
import Bulwark.Proofs.Breaker.Trials

/-!
# No breaker stays shut

However a breaker was called, and however the clock moved meanwhile, it lets a call through once the
recovery timeout is over for the last failure and for the trial that is out.  A success reported
then closes it (`allow_after_timeouts`).

The two moments are taken from the calls of the run, not from the breaker.  The invariant `Notes`
ties them together: what a breaker has noted is the last failure and the latest trial of its run,
and a breaker that is not closed has seen a failure.  Refusals go by these notes alone.
-/

namespace Bulwark.Breaker

/-! ## What a run leaves to be noted -/

/-- The readings at which calls of a run failed. -/
def failureReadings (calls : List (Instant × Call)) : List ℕ :=
  (calls.filter (·.2 = .failure)).map fun c => reading c.1

variable (s : BreakerSettings)

/-- The readings at which trials of a run started: those at which a call was let through and the
breaker was not closed.  A trial at zero is noted as one. -/
def trialStarts (b : Breaker) : List (Instant × Call) → List ℕ
  | [] => []
  | (t, c) :: rest =>
    let (answer, after) := b.perform s (reading t) c
    if b.phase ≠ .closed ∧ answer = some true then max (reading t) 1 :: trialStarts after rest
    else trialStarts after rest

theorem failureReadings_append (calls calls' : List (Instant × Call)) :
    failureReadings (calls ++ calls') = failureReadings calls ++ failureReadings calls' := by
  unfold failureReadings
  rw [List.filter_append, List.map_append]

theorem trialStarts_allow (b : Breaker) (t : Instant) :
    b.trialStarts s [(t, .allow)] =
      if b.phase ≠ .closed ∧ (b.allow s (reading t)).1 = true then [max (reading t) 1] else [] := by
  simp only [trialStarts, perform, Option.some.injEq]

/-- Only a call for permission starts a trial. -/
theorem trialStarts_report (b : Breaker) (t : Instant) {c : Call} (hc : c ≠ .allow) :
    b.trialStarts s [(t, c)] = [] := by
  cases c with
  | allow => exact absurd rfl hc
  | _ => exact if_neg fun hnot => nomatch hnot.2

theorem trialStarts_append (b : Breaker) (calls calls' : List (Instant × Call)) :
    b.trialStarts s (calls ++ calls') =
      b.trialStarts s calls ++ (b.run s calls).trialStarts s calls' := by
  induction calls generalizing b with
  | nil => rfl
  | cons c rest ih =>
    obtain ⟨t, c⟩ := c
    simp only [List.cons_append, trialStarts, run_cons, ih]
    split <;> rfl

/-! ## The notes of a breaker -/

/-- A breaker has noted the last of these failures and, while a trial is out, the latest of these
trials. -/
structure Notes (b : Breaker) (failures trials : List ℕ) : Prop where
  lastFailure : ∀ f ∈ failures.getLast?, b.lastFailure = f
  trialStart : b.trialStart ≠ 0 → trials.getLast? = some b.trialStart
  /-- Nothing but a failure trips a breaker. -/
  failed : b.phase ≠ .closed → failures ≠ []

theorem notes_fresh : Notes fresh [] [] where
  lastFailure := nofun
  trialStart := fun h => absurd rfl h
  failed := fun h => absurd rfl h

variable {s} {b : Breaker} {failures trials : List ℕ}

theorem Notes.allow (h : b.Notes failures trials) (t : Instant) :
    (b.allow s (reading t)).2.Notes failures (trials ++ b.trialStarts s [(t, .allow)]) := by
  have hstarts := trialStarts_allow s b t
  rcases allow_cases (s := s) (reading t) b with
    ⟨hclosed, hallow⟩ | ⟨_, hallow⟩ | ⟨hopen, _, hallow⟩
  · rw [if_neg fun hnot => hnot.1 hclosed] at hstarts
    rw [hallow, hstarts, List.append_nil]
    exact h
  · rw [hallow, if_neg fun hnot => nomatch hnot.2] at hstarts
    rw [hallow, hstarts, List.append_nil]
    exact h
  · rw [hallow, if_pos ⟨hopen, rfl⟩] at hstarts
    rw [hallow, hstarts]
    exact ⟨h.lastFailure, fun _ => List.getLast?_concat, fun _ => h.failed hopen⟩

theorem Notes.recordFailure (h : b.Notes failures trials) (t : Instant) :
    (b.recordFailure s (reading t)).Notes (failures ++ [reading t]) trials := by
  obtain ⟨hnoted, hcases⟩ := recordFailure_cases (s := s) (reading t) b
  refine ⟨fun f hf => ?_, fun hout => ?_, fun _ => List.concat_ne_nil _ _⟩
  · rw [List.getLast?_concat] at hf
    exact hnoted.trans (Option.some.inj hf)
  · rcases hcases with ⟨_, _, hsame⟩ | ⟨_, _, hidle⟩ | ⟨_, _, hsame⟩
    · rw [hsame] at hout ⊢
      exact h.trialStart hout
    · exact absurd hidle hout
    · rw [hsame] at hout ⊢
      exact h.trialStart hout

/-- One more call of a run. -/
theorem Notes.perform (h : b.Notes failures trials) (c : Instant × Call) :
    (b.perform s (reading c.1) c.2).2.Notes (failures ++ failureReadings [c])
      (trials ++ b.trialStarts s [c]) := by
  obtain ⟨t, call⟩ := c
  cases call with
  | allow =>
    have hnone : failureReadings [(t, .allow)] = [] := rfl
    rw [hnone, List.append_nil]
    exact h.allow t
  | failure =>
    rw [trialStarts_report s b t (c := .failure) nofun, List.append_nil]
    exact h.recordFailure t
  | success =>
    have hnone : failureReadings [(t, .success)] = [] := rfl
    rw [trialStarts_report s b t (c := .success) nofun, hnone, List.append_nil, List.append_nil]
    refine ⟨h.lastFailure, fun hout => absurd rfl hout, fun hopen => h.failed fun hclosed => ?_⟩
    exact hopen (by simp [Breaker.perform, recordSuccess, hclosed])
  | reset =>
    have hnone : failureReadings [(t, .reset)] = [] := rfl
    rw [trialStarts_report s b t (c := .reset) nofun, hnone, List.append_nil, List.append_nil]
    exact ⟨h.lastFailure, fun hout => absurd rfl hout, fun hopen => absurd rfl hopen⟩

/-- The notes of a breaker at the end of a run. -/
theorem notes_run (s : BreakerSettings) (calls : List (Instant × Call)) :
    (fresh.run s calls).Notes (failureReadings calls) (fresh.trialStarts s calls) := by
  induction calls using List.reverseRecOn with
  | nil => exact notes_fresh
  | append_singleton calls c ih =>
    rw [run_append, failureReadings_append, trialStarts_append]
    exact ih.perform c

/-! ## Calls after the timeouts -/

/-- Nothing recent is noted against a call. -/
theorem Notes.not_refuses (h : b.Notes failures trials) {now : ℕ}
    (hfailed : ∀ f ∈ failures.getLast?, f + s.recoveryTimeout.nanos ≤ now)
    (htried : b.trialStart ≠ 0 → ∀ u ∈ trials.getLast?, u + s.recoveryTimeout.nanos ≤ now) :
    ¬ b.Refuses s now := by
  unfold Refuses isRecent
  simp only [decide_eq_true_eq]
  rintro (⟨hphase, hrecent⟩ | ⟨_, hout, hrecent⟩)
  · have hsome : failures ≠ [] := h.failed (by rw [hphase]; nofun)
    have hlast := List.getLast?_eq_some_getLast hsome
    have hwaited := hfailed _ hlast
    rw [h.lastFailure _ hlast] at hrecent
    omega
  · have hwaited := htried hout _ (h.trialStart hout)
    omega

/-- A success right after a call that was let through closes the breaker. -/
theorem phase_recordSuccess_of_allow {now : ℕ} (h : (b.allow s now).1 = true) :
    (b.allow s now).2.recordSuccess.phase = .closed := by
  rcases allow_cases (s := s) now b with ⟨hclosed, hallow⟩ | ⟨_, hallow⟩ | ⟨_, _, hallow⟩
  · rw [hallow]
    simp [recordSuccess, hclosed]
  · rw [hallow] at h
    cases h
  · rw [hallow]
    rfl

/-- **No breaker stays shut.**  After any run, under any movements of the clock, a call is let
through at every reading that lies the recovery timeout past the last failure of the run and, if a
trial is out, past the start of the latest one.  A success reported next leaves the breaker closed,
without failures and without a trial, so the call after it is let through too. -/
theorem allow_after_timeouts (s : BreakerSettings) (calls : List (Instant × Call)) (now : Instant)
    (hfailed : ∀ f ∈ (failureReadings calls).getLast?,
      f + s.recoveryTimeout.nanos ≤ reading now)
    (htried : (fresh.run s calls).trialStart ≠ 0 →
      ∀ u ∈ (fresh.trialStarts s calls).getLast?, u + s.recoveryTimeout.nanos ≤ reading now) :
    let asked := (fresh.run s calls).perform s (reading now) .allow
    asked.1 = some true ∧ ∀ reported later : Instant,
      let closed := (asked.2.perform s (reading reported) .success).2
      closed.phase = .closed ∧ closed.failures = 0 ∧ closed.trialStart = 0 ∧
        (closed.perform s (reading later) .allow).1 = some true := by
  intro asked
  have hallowed : ((fresh.run s calls).allow s (reading now)).1 = true := by
    rcases allow_cases (s := s) (reading now) (fresh.run s calls) with
      ⟨_, hallow⟩ | ⟨hrefuses, _⟩ | ⟨_, _, hallow⟩
    · rw [hallow]
    · exact absurd hrefuses ((notes_run s calls).not_refuses hfailed htried)
    · rw [hallow]
  refine ⟨congrArg some hallowed, fun reported later => ?_⟩
  have hphase := phase_recordSuccess_of_allow hallowed
  have hnext := allow_of_closed (s := s) hphase (reading later)
  exact ⟨hphase, rfl, rfl, congrArg some (congrArg Prod.fst hnext)⟩

/-- A trial that starts before the epoch and is noted as one, a clock that goes back, a success that
nobody waited for, and a trial that never reports. -/
def callsBackInTime : List (Instant × Call) :=
  [(atSecond (-60), .failure), (atSecond (-30), .allow), (atSecond 100, .failure),
    (atSecond 110, .allow), (atSecond 50, .failure), (atSecond 55, .success),
    (atSecond 70, .allow), (atSecond 71, .allow)]

/-- The trial at 70 s has not reported by 80 s and is replaced. -/
theorem allow_after_timeouts_callsBackInTime :
    failureReadings callsBackInTime = [0, 100 * nanosPerSecond, 50 * nanosPerSecond] ∧
      fresh.trialStarts touchy callsBackInTime =
        [110 * nanosPerSecond, 70 * nanosPerSecond] ∧
      ((fresh.run touchy callsBackInTime).perform touchy (reading (atSecond 80)) .allow).1 =
        some true := by
  refine ⟨by decide, by decide, ?_⟩
  exact (allow_after_timeouts touchy callsBackInTime (atSecond 80) (by decide) (by decide)).1

end Bulwark.Breaker
