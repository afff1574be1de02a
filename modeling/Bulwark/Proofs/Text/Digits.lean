import Mathlib.Data.List.Basic
import Mathlib.Tactic.IntervalCases
import Bulwark.Text.Digits

/-!
# Digits read back

Whole numbers in decimal digits are read as what they were written from, with or without zeros in
front.  The other lemmas say what a reader that takes characters off a text has to know about such
digits: that they are digits, how many there are, and where they end.
-/

namespace Bulwark.Text

theorem natOfDigits_eq (ds : List Char) : natOfDigits ds = Nat.ofDigitChars 10 ds 0 := rfl

@[simp]
theorem natOfDigits_toDigits (n : Nat) : natOfDigits (Nat.toDigits 10 n) = n :=
  Nat.ofDigitChars_ten_toDigits

theorem natOfDigits_zeros_append (k : Nat) (ds : List Char) :
    natOfDigits (List.replicate k '0' ++ ds) = natOfDigits ds := by
  rw [natOfDigits_eq, Nat.ofDigitChars_append, Nat.ofDigitChars_replicate_zero, Nat.mul_zero]
  rfl

theorem isDigit_of_mem_toDigits {n : Nat} {c : Char} (h : c ∈ Nat.toDigits 10 n) :
    c.isDigit = true :=
  Nat.isDigit_of_mem_toDigits (by decide) (by decide) h

/-- No zero stands in front of another digit. -/
theorem head_toDigits_ne_zero {n : Nat} (h : 0 < n) : (Nat.toDigits 10 n).head? ≠ some '0' := by
  induction n using Nat.strongRecOn with
  | _ n ih =>
    by_cases hn : n < 10
    · rw [Nat.toDigits_of_lt_base hn]
      interval_cases n <;> decide
    · rw [Nat.toDigits_of_base_le (by decide) (not_lt.mp hn)]
      have hpos : 0 < n / 10 := Nat.div_pos (not_lt.mp hn) (by decide)
      rw [List.head?_append_of_ne_nil _ Nat.toDigits_ne_nil]
      exact ih (n / 10) (Nat.div_lt_self h (by decide)) hpos

/-! ## Whole numbers -/

section Whole

variable (n : Nat)

theorem digits?_toDigits (n : Nat) : digits? (Nat.toDigits 10 n) = some n := by
  have hall : (Nat.toDigits 10 n).all Char.isDigit = true :=
    List.all_eq_true.mpr fun c hc => isDigit_of_mem_toDigits hc
  rw [digits?, if_pos ⟨Nat.toDigits_ne_nil, hall⟩, natOfDigits_toDigits]

theorem toList_toString (n : Nat) : (toString (n : Int)).toList = Nat.toDigits 10 n :=
  Nat.toList_repr

/-- No sign stands in front of a number. -/
theorem toDigits_ne_cons {c : Char} (h : c.isDigit = false) (rest : List Char) :
    Nat.toDigits 10 n ≠ c :: rest := by
  intro heq
  have hdigit := isDigit_of_mem_toDigits (n := n) (c := c) (by rw [heq]; exact List.mem_cons_self)
  rw [h] at hdigit
  cases hdigit

/-- A written number is read, if it is in range. -/
theorem signed?_toString (h : (n : Int) ≤ maxSigned) : signed? (toString (n : Int)) = some (n : Int) := by
  have hfits : fitsSigned n = true := by
    have hmin : minSigned ≤ (n : Int) := (by decide : minSigned ≤ 0).trans (Int.natCast_nonneg n)
    rw [fitsSigned, decide_eq_true hmin, decide_eq_true h]
    rfl
  unfold signed?
  rw [toList_toString]
  split
  · rename_i heq
    exact absurd heq (toDigits_ne_cons n rfl _)
  · rename_i heq
    exact absurd heq (toDigits_ne_cons n rfl _)
  · rw [digits?_toDigits]
    exact (Option.filter_some ..).trans (if_pos hfits)

theorem unsigned?_toString (h : n ≤ maxUnsigned) : unsigned? (toString (n : Int)) = some n := by
  unfold unsigned?
  rw [toList_toString]
  dsimp only
  split
  · rename_i heq
    exact absurd heq (toDigits_ne_cons n rfl _)
  · rw [digits?_toDigits]
    exact (Option.filter_some ..).trans (if_pos (decide_eq_true h))

end Whole

/-! ## Numbers with a sign -/

section Signed

theorem toList_toString_negSucc (n : Nat) :
    (toString (Int.negSucc n)).toList = '-' :: Nat.toDigits 10 (n + 1) := by
  show ("-" ++ Nat.repr (n + 1)).toList = _
  rw [String.toList_append, Nat.toList_repr]
  rfl

theorem signed?_toString_of_fits {n : Int} (h : fitsSigned n = true) :
    signed? (toString n) = some n := by
  cases n with
  | ofNat n =>
    refine signed?_toString n ?_
    simp only [fitsSigned, Bool.and_eq_true, decide_eq_true_eq] at h
    exact h.2
  | negSucc n =>
    unfold signed?
    rw [toList_toString_negSucc]
    simp only [digits?_toDigits]
    exact (Option.filter_some ..).trans (if_pos h)

/-- A sum that stops at the ends of the range is in range. -/
theorem fitsSigned_addSaturating (a b : Int) : fitsSigned (addSaturating a b) = true := by
  have hmin : minSigned ≤ addSaturating a b := Int.le_max_left _ _
  have hmax : addSaturating a b ≤ maxSigned :=
    Int.max_le.mpr ⟨by decide, Int.min_le_left _ _⟩
  rw [fitsSigned, decide_eq_true hmin, decide_eq_true hmax]
  rfl

end Signed

/-! ## Padded numbers -/

section Padded

variable (width n : Nat)

theorem toList_padded :
    (padded width n).toList =
      List.replicate (width - (Nat.toDigits 10 n).length) '0' ++ Nat.toDigits 10 n := by
  unfold padded
  rw [String.toList_append, String.toList_ofList, Nat.toList_repr, ← String.length_toList,
    Nat.toList_repr]

@[simp]
theorem natOfDigits_padded : natOfDigits (padded width n).toList = n := by
  rw [toList_padded, natOfDigits_zeros_append, natOfDigits_toDigits]

variable {width n}

theorem isDigit_of_mem_padded {c : Char} (h : c ∈ (padded width n).toList) : c.isDigit = true := by
  rw [toList_padded, List.mem_append] at h
  rcases h with h | h
  · rw [List.eq_of_mem_replicate h]
    rfl
  · exact isDigit_of_mem_toDigits h

theorem padded_ne_nil : (padded width n).toList ≠ [] := by
  rw [toList_padded]
  exact List.append_ne_nil_of_right_ne_nil _ Nat.toDigits_ne_nil

/-- A number that fits into the width fills it. -/
theorem length_padded (hwidth : 0 < width) (h : n < 10 ^ width) :
    (padded width n).toList.length = width := by
  have hle : (Nat.toDigits 10 n).length ≤ width :=
    (Nat.length_toDigits_le_iff (by decide) hwidth).mpr h
  rw [toList_padded, List.length_append, List.length_replicate]
  omega

end Padded

/-! ## Runs of digits -/

section Runs

variable {ds rest : List Char}

theorem takeWhile_digits (hds : ∀ c ∈ ds, c.isDigit = true)
    (hrest : ∀ c ∈ rest.head?, c.isDigit = false) : (ds ++ rest).takeWhile Char.isDigit = ds := by
  rw [List.takeWhile_append_of_pos hds]
  cases rest with
  | nil => rw [List.takeWhile_nil, List.append_nil]
  | cons c rest =>
    have hc : ¬ c.isDigit = true := by rw [hrest c rfl]; decide
    rw [List.takeWhile_cons_of_neg hc, List.append_nil]

theorem dropWhile_digits (hds : ∀ c ∈ ds, c.isDigit = true)
    (hrest : ∀ c ∈ rest.head?, c.isDigit = false) : (ds ++ rest).dropWhile Char.isDigit = rest := by
  rw [List.dropWhile_append_of_pos hds]
  cases rest with
  | nil => rfl
  | cons c rest =>
    have hc : ¬ c.isDigit = true := by rw [hrest c rfl]; decide
    rw [List.dropWhile_cons_of_neg hc]

end Runs
end Bulwark.Text
