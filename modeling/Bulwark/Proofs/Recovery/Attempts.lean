import Mathlib.Data.List.Range
import Bulwark.Recovery.Course
import Bulwark.Proofs.Recovery.Policy

/-!
# How attempts follow each other

An operation with one result is tried again as long as its faults are retried and retries are left.
`ofAttempts_ends` says which attempt is the last, and what the course of the operation is up to
there: each attempt but the last is followed by its own pause.
-/

namespace Bulwark

namespace Happening

/-- Whether a step is a start. -/
def isStart {β : Type} : Happening β → Bool
  | start => true
  | _ => false

/-- Whether a step is a start or a pause. -/
def isOutline {β : Type} : Happening β → Bool
  | start => true
  | pause _ => true
  | _ => false

end Happening

namespace Course

variable {α β γ : Type}

/-- How often the operation is started. -/
def startsOf (hs : List (Happening β)) : ℕ := hs.countP Happening.isStart

/-- The starts and the pauses, in order. -/
def outlineOf (hs : List (Happening β)) : List (Happening β) := hs.filter Happening.isOutline

theorem outlineOf_append (hs hs' : List (Happening β)) :
    outlineOf (hs ++ hs') = outlineOf hs ++ outlineOf hs' := List.filter_append hs hs'

theorem startsOf_append (hs hs' : List (Happening β)) :
    startsOf (hs ++ hs') = startsOf hs + startsOf hs' := List.countP_append

theorem startsOf_start_cons (hs : List (Happening β)) :
    startsOf (.start :: hs) = startsOf hs + 1 := List.countP_cons_of_pos rfl

@[simp]
theorem outlineOf_happenings (a : Attempt β) :
    outlineOf (a.happenings : List (Happening γ)) = [.start] := by
  unfold Attempt.happenings Attempt.work
  cases a.takes <;> rfl

/-- An outline keeps every start. -/
theorem startsOf_outlineOf (hs : List (Happening β)) : startsOf (outlineOf hs) = startsOf hs := by
  unfold startsOf outlineOf
  rw [List.countP_filter]
  congr 1
  funext h
  cases h <;> rfl

/-- Attempts with a pause after each but the last. -/
def attemptsWithPauses (ds : List Duration) : List (Happening β) :=
  ds.flatMap (fun d => [.start, .pause d]) ++ [.start]

theorem startsOf_attemptsWithPauses (ds : List Duration) :
    startsOf (attemptsWithPauses ds : List (Happening β)) = ds.length + 1 := by
  induction ds with
  | nil => rfl
  | cons d ds ih =>
    show startsOf (.start :: .pause d :: attemptsWithPauses ds) = _
    unfold startsOf at ih ⊢
    rw [List.countP_cons_of_pos rfl, List.countP_cons_of_neg Bool.false_ne_true, ih]
    rfl

section Policies

variable [Quantity α] (policy : RetryPolicy α) (samples : ℕ → α) (operation : String)

/-- A fault that the policy retries. -/
def Retried (r : Except Fault β) : Prop := ∃ f, r = .error f ∧ policy.isRetryable f.kind = true

variable {policy}

/-- A fault that is retried is followed by a pause. -/
theorem sequel_of_retried (hdelays : policy.HoldsDelays) (n : ℕ) {r : Except Fault β}
    (h : Retried policy r) :
    ∃ entry d, policy.jitteredDelay? n (samples n) = some d ∧
      sequel policy samples operation n r = .retry [.log entry, .pause d] := by
  obtain ⟨f, rfl, hf⟩ := h
  obtain ⟨d, hd⟩ := Option.isSome_iff_exists.mp (hdelays n (samples n))
  refine ⟨retryLog operation (n + 1) f d, d, hd, ?_⟩
  show (if policy.isRetryable f.kind then _ else _ : Sequel β) = _
  rw [if_pos hf, hd]

/-- Any other result is the end. -/
theorem sequel_of_not_retried (n : ℕ) {r : Except Fault β} (h : ¬ Retried policy r) :
    sequel policy samples operation n r = .ending (.ofResult r) := by
  cases r with
  | ok value => rfl
  | error f => exact if_neg fun hf => h ⟨f, rfl, hf⟩

/-- Attempts go on from `n` until one is not retried or no retry is left, and that is the last. -/
theorem ofAttempts_ends (hdelays : policy.HoldsDelays) (attempt : ℕ → Attempt β) (left n : ℕ) :
    ∃ retries ds, retries ≤ left ∧
      (∀ i < retries, Retried policy (attempt (n + i)).result) ∧
      (Retried policy (attempt (n + retries)).result → retries = left) ∧
      ds.map some = (List.range' n retries).map (fun i => policy.jitteredDelay? i (samples i)) ∧
      let c := ofAttempts policy samples operation attempt left n
      c.starts = n + retries + 1 ∧ c.ending = .ofResult (attempt (n + retries)).result ∧
        outlineOf c.happenings = attemptsWithPauses ds := by
  induction left generalizing n with
  | zero =>
    refine ⟨0, [], le_rfl, fun i hi => absurd hi (Nat.not_lt_zero i), fun _ => rfl, rfl, rfl, rfl, ?_⟩
    exact outlineOf_happenings (attempt n)
  | succ left ih =>
    by_cases hretried : Retried policy (attempt n).result
    · obtain ⟨entry, d, hd, hsequel⟩ := sequel_of_retried samples operation hdelays n hretried
      obtain ⟨retries, ds, hle, hbefore, hlast, hds, hstarts, hending, houtline⟩ := ih (n + 1)
      refine ⟨retries + 1, d :: ds, Nat.succ_le_succ hle, ?_, ?_, ?_, ?_⟩
      · intro i hi
        cases i with
        | zero => exact hretried
        | succ i =>
          rw [show n + (i + 1) = n + 1 + i by omega]
          exact hbefore i (Nat.lt_of_succ_lt_succ hi)
      · intro h
        rw [show n + (retries + 1) = n + 1 + retries by omega] at h
        rw [hlast h]
      · rw [List.map_cons, hds, List.range'_succ, List.map_cons, hd]
      · dsimp only
        rw [ofAttempts, hsequel]
        refine ⟨?_, ?_, ?_⟩
        · show (ofAttempts policy samples operation attempt left (n + 1)).starts = _
          rw [hstarts]
          omega
        · show (ofAttempts policy samples operation attempt left (n + 1)).ending = _
          rw [hending, show n + (retries + 1) = n + 1 + retries by omega]
        · show outlineOf (((attempt n).happenings ++ [.log entry, .pause d]) ++
            (ofAttempts policy samples operation attempt left (n + 1)).happenings) = _
          rw [outlineOf_append, outlineOf_append, outlineOf_happenings, houtline]
          rfl
    · refine ⟨0, [], Nat.zero_le _, fun i hi => absurd hi (Nat.not_lt_zero i),
        fun h => absurd h hretried, rfl, ?_⟩
      dsimp only
      rw [ofAttempts, sequel_of_not_retried samples operation n hretried]
      exact ⟨rfl, rfl, outlineOf_happenings (attempt n)⟩

end Policies

/-! ## Courses cut at a deadline -/

/-- What happens up to a deadline is the beginning of what happens. -/
theorem cutAt_isPrefix (deadline : ℕ) (w : Watch) (hs : List (Happening β)) :
    (cutAt deadline w hs).1 <+: hs := by
  induction hs generalizing w with
  | nil => exact List.prefix_refl []
  | cons h rest ih =>
    unfold cutAt
    cases w.after? deadline h with
    | none => exact List.nil_prefix
    | some w => exact (List.prefix_cons_inj h).mpr (ih w)

/-- A deadline leaves all of a course, or a beginning. -/
theorem within_cases (deadline : ℕ) (w : Watch) (c : Course β γ) :
    within deadline w c = .whole c ∨
      ∃ hs, within deadline w c = .part hs ∧ hs <+: c.happenings := by
  have hprefix := cutAt_isPrefix deadline w c.happenings
  unfold within
  rcases hcut : cutAt deadline w c.happenings with ⟨hs, _ | w'⟩ <;> rw [hcut] at hprefix
  · exact .inr ⟨hs, rfl, hprefix⟩
  · exact .inl rfl

end Course
end Bulwark
