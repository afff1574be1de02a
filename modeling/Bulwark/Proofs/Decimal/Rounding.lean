import Mathlib.Algebra.Order.Field.Basic
import Mathlib.Algebra.Order.Field.Rat
import Mathlib.Tactic.Linarith
import Mathlib.Tactic.NormNum
import Bulwark.Decimal.Binary64

/-!
# Rounding to whole numbers

`NearestEven x k` says that `k` is the whole number nearest to `x`, and the even one if there are
two.  So equal numbers are rounded to the same one and larger numbers to larger ones
(`NearestEven.mono`).  This is what `roundHalfEven` does (`nearestEven_roundHalfEven`).
-/

namespace Bulwark

/-- The whole number nearest to a number, and the even one of two. -/
structure NearestEven (x : ℚ) (k : ℕ) : Prop where
  le : |x - k| ≤ 1 / 2
  even : |x - k| = 1 / 2 → k % 2 = 0

theorem nearestEven_natCast (k : ℕ) : NearestEven k k where
  le := by rw [sub_self, abs_zero]; norm_num
  even := by
    rw [sub_self, abs_zero]
    intro h
    norm_num at h

/-- Two neighbours that a number is rounded to would be half away from it and both even. -/
theorem NearestEven.mono {x y : ℚ} {j k : ℕ} (hx : NearestEven x j) (hy : NearestEven y k)
    (h : x ≤ y) : j ≤ k := by
  by_contra hlt
  have hstep : (k : ℚ) + 1 ≤ j := by exact_mod_cast not_le.mp hlt
  have hj := abs_le.mp hx.le
  have hk := abs_le.mp hy.le
  have hbelow : x - j = -(1 / 2) := by linarith
  have habove : y - k = 1 / 2 := by linarith
  have hevenj := hx.even (by rw [hbelow]; norm_num)
  have hevenk := hy.even (by rw [habove]; norm_num)
  have hnext : j = k + 1 := by
    have hcast : (j : ℚ) = k + 1 := by linarith
    exact_mod_cast hcast
  omega

/-- How far a quotient is rounded, in halves of a divisor. -/
theorem two_mul_natAbs_sub_roundHalfEven (num : ℕ) {den : ℕ} (hden : 0 < den) :
    2 * ((num : ℤ) - roundHalfEven num den * den).natAbs ≤ den ∧
      (2 * ((num : ℤ) - roundHalfEven num den * den).natAbs = den →
        roundHalfEven num den % 2 = 0) := by
  have hparts : ((num / den : ℕ) : ℤ) * den + (num % den : ℕ) = num := by
    exact_mod_cast Nat.div_add_mod' num den
  have hrest := Nat.mod_lt num hden
  unfold roundHalfEven
  dsimp only
  generalize num / den = q at hparts
  generalize num % den = r at hparts hrest
  have hup : ((q + 1 : ℕ) : ℤ) * den = q * den + den := by
    push_cast
    rw [add_one_mul]
  by_cases hlow : 2 * r < den
  · rw [if_pos hlow]
    omega
  · rw [if_neg hlow]
    by_cases hhigh : den < 2 * r
    · rw [if_pos hhigh, hup]
      omega
    · rw [if_neg hhigh]
      by_cases heven : q % 2 = 0
      · rw [if_pos heven]
        omega
      · rw [if_neg heven, hup]
        omega

/-- A quotient is rounded to the nearest whole number, a half to the even one. -/
theorem nearestEven_roundHalfEven (num : ℕ) {den : ℕ} (hden : 0 < den) :
    NearestEven ((num : ℚ) / den) (roundHalfEven num den) := by
  obtain ⟨hle, heven⟩ := two_mul_natAbs_sub_roundHalfEven num hden
  set k := roundHalfEven num den
  have hden' : (0 : ℚ) < den := by exact_mod_cast hden
  have hdistance : |(num : ℚ) / den - k| = (((num : ℤ) - k * den).natAbs : ℚ) / den := by
    rw [Nat.cast_natAbs, div_sub' hden'.ne', abs_div, abs_of_pos hden']
    push_cast
    rw [mul_comm]
  constructor
  · rw [hdistance, div_le_div_iff₀ hden' two_pos, mul_comm, one_mul]
    exact_mod_cast hle
  · intro htie
    rw [hdistance, div_eq_div_iff hden'.ne' two_ne_zero, mul_comm, one_mul] at htie
    exact heven (by exact_mod_cast htie)

end Bulwark
