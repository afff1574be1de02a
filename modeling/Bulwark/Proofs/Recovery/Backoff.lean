import Bulwark.Proofs.Quantity.Exact
import Bulwark.Proofs.Recovery.Policy

/-!
# How delays double

The delay before a retry is the initial one, doubled from retry to retry and cut to the maximum.  A
product too long to be held makes no difference to that, because the maximum can be held
(`nanos_mul?_getD_shorter`).  The factor does: it stops one short of `2^32`, so a delay stops
doubling there even if the maximum is further away (`baseDelay_nanos`), and it is the doubled one
exactly where the cut factor reaches the maximum (`baseDelay_doubles_iff`).

Either way no delay is shorter than the one before it (`baseDelay_mono`).
-/

namespace Bulwark

/-- A product that is cut to a length that can be held need not be held itself. -/
theorem Duration.nanos_mul?_getD_shorter {longest : Duration} (hheld : longest.isHeld = true)
    (d : Duration) (factor : ℕ) :
    (((d.mul? factor).getD longest).shorter longest).nanos =
      min longest.nanos (d.nanos * factor) := by
  have hlimit : longest.nanos < Duration.limit := of_decide_eq_true hheld
  unfold mul? shorter isHeld
  by_cases hproduct : d.nanos * factor < limit
  · simp only [hproduct, decide_true, if_true, Option.getD_some]
    split
    · exact (min_eq_right ‹_›).symm
    · exact (min_eq_left (not_le.mp ‹_›).le).symm
  · simp only [hproduct, decide_false, Bool.false_eq_true, if_false, Option.getD_none, ite_self]
    omega

namespace RetryPolicy

/-- The factor of a retry: doubled up to `2^31`, and then one short of `2^32` for good. -/
theorem factor_eq (n : ℕ) :
    (if n < 32 then Nat.pow 2 n else maxFactor) = min (2 ^ n) maxFactor := by
  have hmax : maxFactor = 2 ^ 32 - 1 := rfl
  by_cases hn : n < 32
  · have hpow : 2 ^ n ≤ 2 ^ 31 := Nat.pow_le_pow_right (by decide) (by omega)
    rw [if_pos hn, min_eq_left (by omega)]
    rfl
  · have hpow : 2 ^ 32 ≤ 2 ^ n := Nat.pow_le_pow_right (by decide) (not_lt.mp hn)
    rw [if_neg hn, min_eq_right (by omega)]

theorem two_pow_le_maxFactor_iff {n : ℕ} : 2 ^ n ≤ maxFactor ↔ n < 32 := by
  rw [show maxFactor = 2 ^ 32 - 1 from rfl, ← Nat.pow_lt_pow_iff_right (a := 2) (by decide)]
  omega

section BaseDelay

variable {α : Type} {p : RetryPolicy α}

/-- The delay before a retry, exactly. -/
theorem baseDelay_nanos (hheld : p.maxDelay.isHeld = true) (n : ℕ) :
    (p.baseDelay n).nanos =
      min p.maxDelay.nanos (p.initialDelay.nanos * min (2 ^ n) maxFactor) := by
  unfold baseDelay
  simp only [factor_eq]
  exact Duration.nanos_mul?_getD_shorter hheld p.initialDelay _

theorem baseDelay_isHeld (hheld : p.maxDelay.isHeld = true) (n : ℕ) :
    (p.baseDelay n).isHeld = true := by
  have hle : (p.baseDelay n).nanos ≤ p.maxDelay.nanos := by
    rw [baseDelay_nanos hheld]
    exact min_le_left _ _
  exact decide_eq_true (hle.trans_lt (of_decide_eq_true hheld))

/-- No delay is shorter than the one before it. -/
theorem baseDelay_mono (hheld : p.maxDelay.isHeld = true) {m n : ℕ} (h : m ≤ n) :
    (p.baseDelay m).nanos ≤ (p.baseDelay n).nanos := by
  rw [baseDelay_nanos hheld, baseDelay_nanos hheld]
  have hfactor : min (2 ^ m) maxFactor ≤ min (2 ^ n) maxFactor :=
    min_le_min_right _ (Nat.pow_le_pow_right (by decide) h)
  exact min_le_min_left _ (Nat.mul_le_mul_left _ hfactor)

end BaseDelay

/-- A factor may be cut where the product has reached the longest length anyway. -/
theorem min_mul_min_eq_iff {longest initial factor cut : ℕ} :
    min longest (initial * min factor cut) = min longest (initial * factor) ↔
      factor ≤ cut ∨ initial = 0 ∨ longest ≤ initial * cut := by
  by_cases hfactor : factor ≤ cut
  · rw [min_eq_left hfactor]
    exact iff_of_true rfl (.inl hfactor)
  by_cases hinitial : initial = 0
  · rw [hinitial, Nat.zero_mul, Nat.zero_mul]
    exact iff_of_true rfl (.inr (.inl rfl))
  have hproduct : initial * cut < initial * factor :=
    Nat.mul_lt_mul_of_pos_left (not_le.mp hfactor) (Nat.pos_of_ne_zero hinitial)
  rw [min_eq_right (not_le.mp hfactor).le]
  omega

/-- **Delays double as far as a factor of 32 bits goes.**  For every policy that makes sense, the
delay before each retry can be held and is the initial one times the power of two, but at most times
`2^32 - 1`, cut to the maximum.  It is the initial one times the power of two, cut to the maximum,
exactly before the first 32 retries, or if there is nothing to double, or if the largest factor
reaches the maximum. -/
theorem baseDelay_doubles_iff {α : Type} [Quantity α] {attempts : ℕ} {initial longest : Duration}
    {jitter : α} {retryable : List FaultClass} {p : RetryPolicy α}
    (hmade : make attempts initial longest jitter retryable = .ok p)
    (hheld : longest.isHeld = true) (n : ℕ) :
    (p.baseDelay n).isHeld = true ∧
      (p.baseDelay n).nanos = min longest.nanos (initial.nanos * min (2 ^ n) (2 ^ 32 - 1)) ∧
      ((p.baseDelay n).nanos = min longest.nanos (initial.nanos * 2 ^ n) ↔
        n < 32 ∨ initial.nanos = 0 ∨ longest.nanos ≤ initial.nanos * (2 ^ 32 - 1)) := by
  obtain ⟨_, _, hp⟩ := make_eq_ok hmade
  obtain rfl : p.initialDelay = initial := by rw [hp]
  obtain rfl : p.maxDelay = longest := by rw [hp]
  have hnanos := baseDelay_nanos hheld n
  refine ⟨baseDelay_isHeld hheld n, hnanos, ?_⟩
  rw [hnanos, ← two_pow_le_maxFactor_iff]
  exact min_mul_min_eq_iff

/-- A millisecond that may double up to a hundred days. -/
def patient : RetryPolicy ℚ :=
  ⟨40, .ofMillis 1, .ofSeconds 8640000, 0, .zero, [.transient]⟩

/-- The last doubling is the one before retry 31. -/
theorem baseDelay_doubles_patient :
    make 40 (.ofMillis 1) (.ofSeconds 8640000) (0 : ℚ) [.transient] = .ok patient ∧
      (Duration.ofSeconds 8640000).isHeld = true ∧
      (patient.baseDelay 31).nanos = 1000000 * 2 ^ 31 ∧
      (patient.baseDelay 33).nanos = 1000000 * (2 ^ 32 - 1) := by
  have hmade : make 40 (.ofMillis 1) (.ofSeconds 8640000) (0 : ℚ) [.transient] = .ok patient := by
    decide +kernel
  have hheld : (Duration.ofSeconds 8640000).isHeld = true := by decide +kernel
  refine ⟨hmade, hheld, ?_, ?_⟩
  · exact (baseDelay_doubles_iff hmade hheld 31).2.1
  · exact (baseDelay_doubles_iff hmade hheld 33).2.1

/-- Before retry 33 the delay should be twice the one before retry 32, and is the same. -/
theorem patient_stopsDoubling :
    make 40 (.ofMillis 1) (.ofSeconds 8640000) (0 : ℚ) [.transient] = .ok patient ∧
      (Duration.ofSeconds 8640000).isHeld = true ∧
      (patient.baseDelay 33).nanos ≠
        min (Duration.ofSeconds 8640000).nanos ((Duration.ofMillis 1).nanos * 2 ^ 33) ∧
      patient.baseDelay 33 = patient.baseDelay 32 ∧
      (patient.baseDelay 33).nanos < (Duration.ofSeconds 8640000).nanos := by
  decide +kernel

end RetryPolicy
end Bulwark
