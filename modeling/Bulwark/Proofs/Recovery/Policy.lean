import Bulwark.Configuration
import Bulwark.Proofs.Decimal.Magnitude

/-!
# Configured policies

What a guard may rely on when its policy comes out of a configuration that makes sense: there is at
least one attempt, no terminal class is retried, and every delay before a retry can be held.

The last of these is about doubles.  A delay is spread by up to its own length, and one that is too
long to be held would end the call that asked for it.  A configuration gives delays in milliseconds
of 64 bits, and twice as much is far from too long, whatever the doubles in between are rounded to
(`holdsDelays_of_policies`).
-/

namespace Bulwark

/-! ## What a configuration asks for -/

/-- The changes to the policy of a profile. -/
def RetrySettings.of {α : Type} (s : RetrySettings α) : RetryProfile → RetryOverrides α
  | .generic => s.generic
  | .backpressure => s.backpressure
  | .streaming => s.streaming

/-- The longest delay fits into a word of 64 bits, as it does in a configuration. -/
def RetrySettings.Fits {α : Type} (s : RetrySettings α) : Prop :=
  ∀ profile, ∀ ms ∈ (s.of profile).maxDelayMs, ms ≤ Text.maxUnsigned

/-- No change fits. -/
theorem RetrySettings.fits_none {α : Type} : (RetrySettings.none : RetrySettings α).Fits := by
  intro profile ms hms
  cases profile <;> cases hms

section Asked

variable {α : Type} [Quantity α] (s : RetrySettings α) (profile : RetryProfile)

/-- How many attempts a configuration allows. -/
def RetrySettings.attempts : ℕ :=
  (s.of profile).maxAttempts.getD (RetryPolicy.standard (α := α) profile).maxAttempts

/-- Whether a configuration retries faults of a class: it has to list the class, and the class must
not be terminal. -/
def RetrySettings.Retries (c : FaultClass) : Prop :=
  c ∈ (s.of profile).retryOn.getD (RetryPolicy.standard (α := α) profile).retryable ∧
    c ≠ .validation ∧ c ≠ .circuitOpen

/-- How long a configuration waits before the first attempt. -/
def RetrySettings.pause : Duration :=
  ((s.of profile).preDelayMs.map Duration.ofMillis).getD
    (RetryPolicy.standard (α := α) profile).preDelay

end Asked

theorem FaultClass.isTerminal_iff {c : FaultClass} :
    c.isTerminal = true ↔ c = .validation ∨ c = .circuitOpen := by
  cases c <;> decide

/-- A policy that does what a configuration asks for. -/
structure RetryPolicy.Follows {α : Type} [Quantity α] (p : RetryPolicy α) (s : RetrySettings α)
    (profile : RetryProfile) : Prop where
  attempts_eq : p.maxAttempts = s.attempts profile
  attempts_pos : 0 < p.maxAttempts
  preDelay_eq : p.preDelay = s.pause profile
  retries_iff : ∀ c, p.isRetryable c = true ↔ s.Retries profile c
  jitter : Quantity.zero ≤ p.jitterFraction ∧ p.jitterFraction ≤ Quantity.one
  maxDelay_eq : p.maxDelay = ((s.of profile).maxDelayMs.map Duration.ofMillis).getD
    (RetryPolicy.standard (α := α) profile).maxDelay

/-- A policy is made only of parameters that make sense. -/
theorem RetryPolicy.make_eq_ok {α : Type} [Quantity α] {maxAttempts : ℕ}
    {initialDelay maxDelay : Duration} {jitter : α} {retryable : List FaultClass}
    {p : RetryPolicy α}
    (h : RetryPolicy.make maxAttempts initialDelay maxDelay jitter retryable = .ok p) :
    maxAttempts ≠ 0 ∧ (Quantity.zero ≤ jitter ∧ jitter ≤ Quantity.one) ∧
      p = ⟨maxAttempts, initialDelay, maxDelay, jitter, .zero,
        retryable.filter (!·.isTerminal)⟩ := by
  unfold RetryPolicy.make at h
  by_cases hzero : maxAttempts = 0
  · rw [if_pos hzero] at h
    cases h
  · rw [if_neg hzero] at h
    by_cases hjitter : ¬ (Quantity.zero ≤ jitter ∧ jitter ≤ Quantity.one)
    · rw [if_pos hjitter] at h
      cases h
    · rw [if_neg hjitter] at h
      split at h
      · cases h
      · exact ⟨hzero, not_not.mp hjitter, (Except.ok.inj h).symm⟩

/-- A profile's changes are resolved to a policy that follows them. -/
theorem RetrySettings.follows_of_resolve {α : Type} [Quantity α] {s : RetrySettings α}
    {profile : RetryProfile} {p : RetryPolicy α}
    (h : (s.of profile).resolve profile = .ok p) : p.Follows s profile := by
  unfold RetryOverrides.resolve at h
  dsimp only at h
  split at h
  · rename_i made hmade
    obtain ⟨hpos, hjitter, rfl⟩ := RetryPolicy.make_eq_ok hmade
    obtain rfl := Except.ok.inj h
    refine ⟨rfl, Nat.pos_of_ne_zero hpos, rfl, fun c => ?_, hjitter, rfl⟩
    show (List.filter _ _).contains c = true ↔ _
    rw [List.contains_iff_mem, List.mem_filter, Bool.not_eq_true', Bool.eq_false_iff, Ne,
      FaultClass.isTerminal_iff, not_or]
    rfl
  · cases h

theorem exists_of_bind_eq_ok {ε β γ : Type} {x : Except ε β} {f : β → Except ε γ} {c : γ}
    (h : x >>= f = .ok c) : ∃ b, x = .ok b ∧ f b = .ok c := by
  cases x with
  | error e => cases h
  | ok b => exact ⟨b, rfl, h⟩

/-- The three policies follow the configuration that they come from. -/
theorem RetrySettings.follows_of_policies {α : Type} [Quantity α] {s : RetrySettings α}
    {ps : RetryPolicies α} (h : s.policies = .ok ps) (profile : RetryProfile) :
    (ps.of profile).Follows s profile := by
  obtain ⟨generic, hgeneric, h⟩ := exists_of_bind_eq_ok h
  obtain ⟨backpressure, hbackpressure, h⟩ := exists_of_bind_eq_ok h
  obtain ⟨streaming, hstreaming, h⟩ := exists_of_bind_eq_ok h
  obtain rfl := Except.ok.inj h
  cases profile with
  | generic => exact follows_of_resolve hgeneric
  | backpressure => exact follows_of_resolve hbackpressure
  | streaming => exact follows_of_resolve hstreaming

/-! ## Delays that can be held -/

theorem Duration.shorter_le (a b : Duration) : (a.shorter b).nanos ≤ b.nanos := by
  unfold Duration.shorter
  split
  · assumption
  · exact le_rfl

/-- The longest delay that a configuration can name. -/
def Duration.longestMillis : Duration := .ofMillis Text.maxUnsigned

namespace RetryPolicy

/-- Every delay before a retry can be held, whatever the sample that spreads it. -/
def HoldsDelays {α : Type} [Quantity α] (p : RetryPolicy α) : Prop :=
  ∀ n sample, (p.jitteredDelay? n sample).isSome = true

theorem baseDelay_le {α : Type} [Quantity α] (p : RetryPolicy α) (n : ℕ) :
    (p.baseDelay n).nanos ≤ p.maxDelay.nanos := Duration.shorter_le _ _

open Binary64 in
/-- A configured length of time in seconds. -/
theorem bounded_ofDuration {d : Duration} (h : d.nanos ≤ Duration.longestMillis.nanos) :
    Bounded 58 (Quantity.ofDuration d) := by
  have hseconds : d.seconds < 2 ^ 55 := by
    show d.nanos / 1000000000 < 2 ^ 55
    change d.nanos ≤ 18446744073709551615 * 1000000 at h
    omega
  have hsubsecond : d.subsecond < 2 ^ 30 := by
    show d.nanos % 1000000000 < 2 ^ 30
    omega
  have hnanos : (Quantity.ofNat nanosPerSecond : Float).toModel.unpack =
      .finite .positive (1000000000 * 2 ^ 23) (-23) (by decide) := rfl
  have hplaces : Float.Model.totalExponent (1000000000 * 2 ^ 23) (-23) = 30 := by decide
  have hfraction := bounded_div (bounded_ofNat hsubsecond (by decide)) hnanos
    (by rw [hplaces]; decide) (by rw [hplaces]; decide)
  rw [hplaces] at hfraction
  exact bounded_add (k := 56) (bounded_ofNat hseconds (by decide)) (hfraction.mono (by decide))
    (by decide) (by decide)

open Binary64 in
/-- A policy whose delays are spread by a fraction of themselves, and are no longer than a
configuration can say. -/
theorem holdsDelays_of_le {p : RetryPolicy Float}
    (hjitter : Quantity.zero ≤ p.jitterFraction ∧ p.jitterFraction ≤ Quantity.one)
    (hmax : p.maxDelay.nanos ≤ Duration.longestMillis.nanos) : p.HoldsDelays := by
  intro n sample
  have hbase := bounded_ofDuration ((p.baseDelay_le n).trans hmax)
  have hshare := bounded_mul (bounded_clamp sample) (bounded_of_fraction hjitter.1 hjitter.2)
    (by decide) (by decide)
  have hfactor := bounded_add (k := 3) (bounded_one.mono (by decide)) hshare (by decide) (by decide)
  exact toDuration?_isSome (bounded_mul hbase hfactor (by decide) (by decide))

end RetryPolicy

/-- No configuration leads to a delay that is too long to be held. -/
theorem RetrySettings.holdsDelays_of_policies {s : RetrySettings Float} {ps : RetryPolicies Float}
    (h : s.policies = .ok ps) (hfits : s.Fits) (profile : RetryProfile) :
    (ps.of profile).HoldsDelays := by
  have hfollows := follows_of_policies h profile
  refine RetryPolicy.holdsDelays_of_le hfollows.jitter ?_
  rw [hfollows.maxDelay_eq]
  cases hmax : (s.of profile).maxDelayMs with
  | none => cases profile <;> decide
  | some ms => exact Nat.mul_le_mul_right _ (hfits profile ms (by rw [hmax]; rfl))

end Bulwark
