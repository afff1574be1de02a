import Mathlib.Data.Rat.Floor
import Mathlib.Tactic.NormNum
import Bulwark.Quantity

/-!
# Exact quantities

The rational numbers as quantities.  Every operation is the exact one of arithmetic, no number is
unordered, and none is infinite; so what is proved over them is what the rules of the library say
before any rounding.

The lemmas below say which operation of arithmetic each operation of a quantity is.  They are the
only place where the instance is opened.
-/

namespace Bulwark

/-- Exact numbers as quantities.  A length of time is rounded to nanoseconds from the exact
quotient. -/
instance Quantity.rational : Quantity ℚ where
  decLt := inferInstance
  decLe := inferInstance
  ofNat n := n
  floor x := (⌊x⌋ : ℤ)
  ceil x := (⌈x⌉ : ℤ)
  isFinite _ := true
  wholePart x := min (UInt64.size - 1) ⌊x⌋.toNat
  toDuration? x :=
    let d : Duration := ⟨roundHalfEven (x.num.toNat * nanosPerSecond) x.den⟩
    if x < 0 ∨ ¬ d.isHeld then none else some d

namespace Quantity

@[simp]
theorem zero_rational : (zero : ℚ) = 0 := rfl

@[simp]
theorem isFinite_rational (x : ℚ) : isFinite x = true := rfl

theorem maximum_rational (a b : ℚ) : maximum a b = max a b := by
  show (if b < a ∨ ¬ b ≤ b then a else b) = max a b
  by_cases h : b < a
  · rw [if_pos (Or.inl h), max_eq_left h.le]
  · rw [if_neg (by simp [h]), max_eq_right (not_lt.mp h)]

theorem minimum_rational (a b : ℚ) : minimum a b = min a b := by
  show (if a < b ∨ ¬ b ≤ b then a else b) = min a b
  by_cases h : a < b
  · rw [if_pos (Or.inl h), min_eq_left h.le]
  · rw [if_neg (by simp [h]), min_eq_right (not_lt.mp h)]

end Quantity
end Bulwark
