import Bulwark.Proofs.Quantity.Exact
import Bulwark.Proofs.Store.TakeTokens
import Bulwark.Proofs.Text.Digits

/-!
# Exact numbers in writing

A written form for exact numbers, as fractions such as `-3/4`.  It loses nothing
(`lossless_fractions`), so a store can hold the buckets of exact arithmetic.
-/

namespace Bulwark.Quantity

/-- A number as a fraction in lowest terms. -/
def renderFraction (x : ℚ) : String :=
  (if x.num < 0 then "-" else "") ++ Nat.repr x.num.natAbs ++ "/" ++ Nat.repr x.den

/-- Digits, a stroke and digits. -/
def magnitude? (cs : List Char) : Option ℚ :=
  match cs.dropWhile Char.isDigit with
  | '/' :: ds => some (Text.natOfDigits (cs.takeWhile Char.isDigit) / Text.natOfDigits ds)
  | _ => none

/-- The number that a fraction denotes. -/
def readFraction? (s : String) : Option ℚ :=
  match s.toList with
  | '-' :: rest => (magnitude? rest).map fun x => -x
  | cs => magnitude? cs

/-- Fractions as the written form of exact numbers. -/
@[reducible]
def fractions : QuantityText ℚ where
  render := renderFraction
  read? := readFraction?
  renderLog := renderFraction

theorem magnitude?_toDigits (n d : Nat) :
    magnitude? (Nat.toDigits 10 n ++ '/' :: Nat.toDigits 10 d) = some ((n : ℚ) / d) := by
  have hdigits : ∀ c ∈ Nat.toDigits 10 n, c.isDigit = true :=
    fun c hc => Text.isDigit_of_mem_toDigits hc
  have hstroke : ∀ c ∈ ('/' :: Nat.toDigits 10 d).head?, c.isDigit = false := by
    rintro c ⟨⟩
    rfl
  unfold magnitude?
  rw [Text.dropWhile_digits hdigits hstroke, Text.takeWhile_digits hdigits hstroke]
  simp only [Text.natOfDigits_toDigits]

theorem readFraction?_renderFraction (x : ℚ) : readFraction? (renderFraction x) = some x := by
  have hlist : (renderFraction x).toList =
      (if x.num < 0 then ['-'] else []) ++
        (Nat.toDigits 10 x.num.natAbs ++ '/' :: Nat.toDigits 10 x.den) := by
    unfold renderFraction
    simp only [String.toList_append, Nat.toList_repr, List.append_assoc]
    split <;> rfl
  unfold readFraction?
  rw [hlist]
  by_cases hneg : x.num < 0
  · have hnum : -((x.num.natAbs : ℤ) : ℚ) = x.num := by
      rw [Int.ofNat_natAbs_of_nonpos hneg.le]
      push_cast
      ring
    rw [if_pos hneg]
    simp only [List.cons_append, List.nil_append, magnitude?_toDigits, Option.map_some]
    rw [← neg_div, ← Int.cast_natCast, hnum, Rat.num_div_den]
  · have hnum : ((x.num.natAbs : ℤ) : ℚ) = x.num := by
      rw [Int.natAbs_of_nonneg (not_lt.mp hneg)]
    rw [if_neg hneg, List.nil_append]
    -- without a sign the text starts with a digit of the numerator
    have hhead : ∀ cs,
        Nat.toDigits 10 x.num.natAbs ++ '/' :: Nat.toDigits 10 x.den ≠ '-' :: cs := by
      intro cs heq
      obtain ⟨c, ds, hds⟩ :=
        List.exists_cons_of_ne_nil (Nat.toDigits_ne_nil (n := x.num.natAbs) (b := 10))
      rw [hds, List.cons_append, List.cons.injEq] at heq
      have hdigit := Text.isDigit_of_mem_toDigits (n := x.num.natAbs) (c := c) (by rw [hds]; simp)
      rw [heq.1] at hdigit
      exact absurd hdigit (by decide)
    split
    · exact absurd ‹_› (hhead _)
    · rw [magnitude?_toDigits, ← Int.cast_natCast, hnum, Rat.num_div_den]

theorem lossless_fractions : @QuantityText.Lossless ℚ fractions := readFraction?_renderFraction

end Bulwark.Quantity
