import Mathlib.Data.Finset.Card
import Mathlib.Order.Interval.Finset.Nat
import Bulwark.Revocation.Mask

/-!
# What a mask tells of a token

A mask shows the first and the last characters of a token, and of its length no more than one of
three classes.  That is exact: two tokens have one mask if and only if they are of one class and
their shown ends are the same (`maskToken_eq_iff`).  For tokens of one length it means that they
agree at certain positions, a third of all at most (`agree_iff`, `card_shownPositions_le`), so
whatever stands elsewhere cannot be told from a mask.
-/

namespace Bulwark

/-! ## Classes of lengths -/

/-- What a mask tells of the length of a token. -/
inductive LengthClass where
  /-- Below twelve characters. -/
  | short
  /-- Twelve characters and more, below twenty-four. -/
  | medium
  /-- Twenty-four characters and more. -/
  | long
  deriving DecidableEq, Repr

namespace LengthClass

/-- The class of a length. -/
def of (n : Nat) : LengthClass := if n < 12 then .short else if n < 24 then .medium else .long

/-- How many characters a mask shows at each end of a token of this class. -/
def shown : LengthClass → Nat
  | .short => 0
  | .medium => 2
  | .long => 4

theorem shown_of (n : Nat) : (of n).shown = shownAtEachEnd n := by
  unfold of shownAtEachEnd
  split
  · rfl
  · split <;> rfl

theorem shown_inj {a b : LengthClass} : a.shown = b.shown ↔ a = b := by
  cases a <;> cases b <;> decide

end LengthClass

theorem shownAtEachEnd_eq_iff {m n : Nat} :
    shownAtEachEnd m = shownAtEachEnd n ↔ LengthClass.of m = LengthClass.of n := by
  rw [← LengthClass.shown_of, ← LengthClass.shown_of, LengthClass.shown_inj]

/-- Both ends together are a third of the token at most. -/
theorem shownAtEachEnd_le (n : Nat) : 2 * shownAtEachEnd n ≤ n / 3 := by
  unfold shownAtEachEnd
  split
  · omega
  · split <;> omega

theorem shownAtEachEnd_eq_zero_iff {n : Nat} : shownAtEachEnd n = 0 ↔ n < 12 := by
  unfold shownAtEachEnd
  split
  · omega
  · split <;> omega

/-! ## The ends of a token -/

/-- The characters that a mask shows of the start of a token. -/
def shownStart (token : String) : List Char := token.toList.take (shownAtEachEnd token.length)

/-- The characters that a mask shows of the end of a token. -/
def shownEnd (token : String) : List Char :=
  token.toList.drop (token.length - shownAtEachEnd token.length)

variable {t u : String}

theorem length_shownStart (t : String) : (shownStart t).length = shownAtEachEnd t.length := by
  have hthird := shownAtEachEnd_le t.length
  rw [shownStart, List.length_take, String.length_toList]
  omega

theorem length_shownEnd (t : String) : (shownEnd t).length = shownAtEachEnd t.length := by
  have hthird := shownAtEachEnd_le t.length
  rw [shownEnd, List.length_drop, String.length_toList]
  omega

theorem shownStart_of_short (h : t.length < 12) : shownStart t = [] :=
  List.eq_nil_of_length_eq_zero <|
    (length_shownStart t).trans (shownAtEachEnd_eq_zero_iff.mpr h)

theorem shownEnd_of_short (h : t.length < 12) : shownEnd t = [] :=
  List.eq_nil_of_length_eq_zero <| (length_shownEnd t).trans (shownAtEachEnd_eq_zero_iff.mpr h)

theorem maskToken_of_short (h : t.length < 12) : maskToken t = "***" := by
  unfold maskToken
  exact if_pos (by rw [String.length_toList, shownAtEachEnd_eq_zero_iff.mpr h])

theorem toList_maskToken (h : 12 ≤ t.length) :
    (maskToken t).toList = shownStart t ++ ("...".toList ++ shownEnd t) := by
  have hshown : ¬ shownAtEachEnd t.length = 0 := by
    rw [shownAtEachEnd_eq_zero_iff]
    omega
  unfold maskToken shownStart shownEnd
  simp only [String.length_toList]
  rw [if_neg hshown, String.toList_ofList, List.append_assoc]

/-- The length of a mask tells how many characters it shows. -/
theorem length_maskToken (t : String) :
    (maskToken t).length = 2 * shownAtEachEnd t.length + 3 := by
  by_cases h : t.length < 12
  · rw [maskToken_of_short h, shownAtEachEnd_eq_zero_iff.mpr h]
    rfl
  · rw [← String.length_toList, toList_maskToken (by omega), List.length_append,
      List.length_append, length_shownStart, length_shownEnd]
    have hdots : "...".toList.length = 3 := rfl
    omega

theorem shown_eq_of_maskToken_eq (h : maskToken t = maskToken u) :
    shownAtEachEnd t.length = shownAtEachEnd u.length := by
  have hlength := length_maskToken t
  rw [h, length_maskToken] at hlength
  omega

/-- A mask is the class of a token's length and its shown ends, and no more. -/
theorem maskToken_eq_iff : maskToken t = maskToken u ↔
    LengthClass.of t.length = LengthClass.of u.length ∧ shownStart t = shownStart u ∧
      shownEnd t = shownEnd u := by
  rw [← shownAtEachEnd_eq_iff, ← and_iff_right_of_imp shown_eq_of_maskToken_eq]
  refine and_congr_right fun hshown => ?_
  have hshort : t.length < 12 ↔ u.length < 12 := by
    rw [← shownAtEachEnd_eq_zero_iff, hshown, shownAtEachEnd_eq_zero_iff]
  by_cases h : t.length < 12
  · -- nothing is shown at either end
    rw [maskToken_of_short h, maskToken_of_short (hshort.mp h), shownStart_of_short h,
      shownStart_of_short (hshort.mp h), shownEnd_of_short h, shownEnd_of_short (hshort.mp h)]
    exact iff_of_true rfl ⟨rfl, rfl⟩
  · have hstart : (shownStart t).length = (shownStart u).length := by
      rw [length_shownStart, length_shownStart, hshown]
    rw [← String.toList_inj, toList_maskToken (by omega), toList_maskToken (by omega),
      List.append_eq_append_iff_of_size_eq_left hstart, List.append_cancel_left_eq]

/-! ## Positions -/

/-- The positions of a token of `n` characters that a mask shows. -/
def shownPositions (n : Nat) : Finset Nat :=
  Finset.range (shownAtEachEnd n) ∪ Finset.Ico (n - shownAtEachEnd n) n

theorem shownPositions_subset (n : Nat) : shownPositions n ⊆ Finset.range n := by
  have hthird := shownAtEachEnd_le n
  intro i hi
  simp only [shownPositions, Finset.mem_union, Finset.mem_range, Finset.mem_Ico] at hi ⊢
  omega

theorem card_shownPositions_le (n : Nat) : (shownPositions n).card ≤ n / 3 :=
  calc (shownPositions n).card
      ≤ (Finset.range (shownAtEachEnd n)).card + (Finset.Ico (n - shownAtEachEnd n) n).card :=
        Finset.card_union_le _ _
    _ = shownAtEachEnd n + (n - (n - shownAtEachEnd n)) := by
        rw [Finset.card_range, Nat.card_Ico]
    _ ≤ 2 * shownAtEachEnd n := by omega
    _ ≤ n / 3 := shownAtEachEnd_le n

/-- Tokens of one length have the same shown ends if they agree at the shown positions. -/
theorem agree_iff (h : t.length = u.length) :
    (shownStart t = shownStart u ∧ shownEnd t = shownEnd u) ↔
      ∀ i ∈ shownPositions t.length, t.toList[i]? = u.toList[i]? := by
  have hthird := shownAtEachEnd_le t.length
  unfold shownStart shownEnd shownPositions
  rw [← h]
  simp only [Finset.mem_union, Finset.mem_range, Finset.mem_Ico]
  constructor
  · rintro ⟨hstart, hend⟩ i (hi | ⟨hi, -⟩)
    · have hat := congrArg (·[i]?) hstart
      simpa only [List.getElem?_take, if_pos hi] using hat
    · have hat := congrArg (·[i - (t.length - shownAtEachEnd t.length)]?) hend
      simpa only [List.getElem?_drop, Nat.add_sub_cancel' hi] using hat
  · intro hagree
    constructor
    · refine List.ext_getElem? fun i => ?_
      rw [List.getElem?_take, List.getElem?_take]
      split
      · exact hagree i (.inl ‹_›)
      · rfl
    · refine List.ext_getElem? fun i => ?_
      rw [List.getElem?_drop, List.getElem?_drop]
      by_cases hi : t.length - shownAtEachEnd t.length + i < t.length
      · exact hagree _ (.inr ⟨Nat.le_add_right _ _, hi⟩)
      · -- both tokens have ended
        rw [List.getElem?_eq_none (by rw [String.length_toList]; omega),
          List.getElem?_eq_none (by rw [String.length_toList]; omega)]

/-- **A mask shows a third of a token at most.**  The number of characters gives the positions that a
mask shows, and tokens of one length have one mask exactly if they agree there; below twelve
characters all masks are the same.  Of the length a mask tells the class alone: tokens of any
lengths have one mask exactly if these are of one class and the shown ends are the same. -/
theorem maskToken_shows_third :
    (∀ n, shownPositions n ⊆ Finset.range n ∧ (shownPositions n).card ≤ n / 3) ∧
      (∀ t u : String, t.length = u.length → (maskToken t = maskToken u ↔
        ∀ i ∈ shownPositions t.length, t.toList[i]? = u.toList[i]?)) ∧
      (∀ t : String, t.length < 12 → maskToken t = "***") ∧
      ∀ t u : String, maskToken t = maskToken u ↔
        LengthClass.of t.length = LengthClass.of u.length ∧ shownStart t = shownStart u ∧
          shownEnd t = shownEnd u := by
  refine ⟨fun n => ⟨shownPositions_subset n, card_shownPositions_le n⟩, ?_, ?_, ?_⟩
  · intro t u hlength
    rw [maskToken_eq_iff, agree_iff hlength]
    exact and_iff_right (congrArg LengthClass.of hlength)
  · intro t
    exact maskToken_of_short
  · intro t u
    exact maskToken_eq_iff

/-- Accented letters count as one character each, and a mask does not tell twelve characters from
twenty-three. -/
theorem maskToken_shows_third_accented :
    "ééééxxxxüüüü".length = 12 ∧ "éé4fd1c2b7-9a0e-41d8-üü".length = 23 ∧
      shownPositions 12 = {0, 1, 10, 11} ∧
      maskToken "ééééxxxxüüüü" = "éé...üü" ∧
      maskToken "ééééxxxxüüüü" = maskToken "éé4fd1c2b7-9a0e-41d8-üü" ∧
      maskToken "ééééxxxxüüüü" = maskToken "éé4fd1c2b7üü" ∧
      maskToken "ééééxxxxüüü" = "***" := by
  have hthird := maskToken_shows_third
  refine ⟨by decide, by decide, by decide, by decide, ?_, ?_, ?_⟩
  · exact (hthird.2.2.2 _ _).mpr ⟨by decide, by decide, by decide⟩
  · exact (hthird.2.1 _ _ (by decide)).mpr (by decide)
  · exact hthird.2.2.1 _ (by decide)

end Bulwark
