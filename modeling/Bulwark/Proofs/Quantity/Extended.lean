import Bulwark.Proofs.Quantity.Exact

/-!
# Exact quantities with infinities and not-a-number

What a double can hold besides numbers, next to exact numbers in place of rounded ones.  The
operations follow the arithmetic of doubles: what has no meaning gives not-a-number, which is
unordered, and dividing by zero gives an infinity.  Zero has no sign here.

On numbers every operation is the one over `ℚ`, which the `finite_` lemmas say.
-/

namespace Bulwark

/-- An exact number, an infinity of either sign, or not-a-number. -/
inductive Extended where
  | finite (q : ℚ)
  | infinite (negative : Bool)
  | nan
  deriving DecidableEq

namespace Extended

/-- The opposite. -/
def neg : Extended → Extended
  | finite a => finite (-a)
  | infinite s => infinite (!s)
  | nan => nan

/-- The sum.  Opposite infinities have none. -/
def add : Extended → Extended → Extended
  | finite a, finite b => finite (a + b)
  | finite _, infinite t => infinite t
  | infinite s, finite _ => infinite s
  | infinite s, infinite t => if s = t then infinite s else nan
  | _, _ => nan

/-- The product.  An infinity and zero have none. -/
def mul : Extended → Extended → Extended
  | finite a, finite b => finite (a * b)
  | finite a, infinite t => if a = 0 then nan else infinite (decide (a < 0) != t)
  | infinite s, finite b => if b = 0 then nan else infinite (s != decide (b < 0))
  | infinite s, infinite t => infinite (s != t)
  | _, _ => nan

/-- The quotient.  Two zeros and two infinities have none. -/
def div : Extended → Extended → Extended
  | finite a, finite b =>
    if b ≠ 0 then finite (a / b) else if a = 0 then nan else infinite (decide (a < 0))
  | finite _, infinite _ => finite 0
  | infinite s, finite b => infinite (s != decide (b < 0))
  | _, _ => nan

/-- Whether one is below the other. -/
def below : Extended → Extended → Bool
  | finite a, finite b => decide (a < b)
  | finite _, infinite t => !t
  | infinite s, finite _ => s
  | infinite s, infinite t => s && !t
  | _, _ => false

/-- Whether one is below the other, or they are equal and ordered. -/
def atMost (a b : Extended) : Bool := below a b || (decide (a = b) && decide (a ≠ nan))

end Extended

open Extended in
/-- Exact numbers, infinities and not-a-number as quantities. -/
instance Quantity.extended : Quantity Extended where
  add := add
  sub a b := add a (neg b)
  mul := mul
  div := div
  lt a b := below a b = true
  le a b := atMost a b = true
  decLt a b := inferInstanceAs (Decidable (below a b = true))
  decLe a b := inferInstanceAs (Decidable (atMost a b = true))
  ofNat n := finite n
  floor
    | finite q => finite (Quantity.floor q)
    | x => x
  ceil
    | finite q => finite (Quantity.ceil q)
    | x => x
  isFinite
    | finite _ => true
    | _ => false
  wholePart
    | finite q => Quantity.wholePart q
    | infinite false => UInt64.size - 1
    | _ => 0
  toDuration?
    | finite q => Quantity.toDuration? q
    | _ => none

namespace Extended

open Quantity

/-! ## Numbers -/

section Numbers

variable (a b : ℚ)

@[simp]
theorem zero_eq : (zero : Extended) = finite 0 := by
  show finite ((0 : ℕ) : ℚ) = finite 0
  rw [Nat.cast_zero]

@[simp]
theorem finite_add : finite a + finite b = finite (a + b) := rfl

@[simp]
theorem finite_sub : finite a - finite b = finite (a - b) := by
  show finite (a + -b) = finite (a - b)
  rw [sub_eq_add_neg]

@[simp]
theorem finite_mul : finite a * finite b = finite (a * b) := rfl

@[simp]
theorem finite_div (h : b ≠ 0) : finite a / finite b = finite (a / b) := if_pos h

@[simp]
theorem finite_lt_finite : finite a < finite b ↔ a < b := decide_eq_true_iff

@[simp]
theorem finite_le_finite : finite a ≤ finite b ↔ a ≤ b := by
  show (decide (a < b) || (decide (finite a = finite b) && decide (finite a ≠ nan))) = true ↔ _
  simp [le_iff_lt_or_eq]

@[simp]
theorem floor_finite : floor (finite a) = finite (floor a) := rfl

theorem isFinite_iff {x : Extended} : isFinite x = true ↔ ∃ q, x = finite q := by
  cases x with
  | finite q => exact ⟨fun _ => ⟨q, rfl⟩, fun _ => rfl⟩
  | infinite s => exact ⟨nofun, nofun⟩
  | nan => exact ⟨nofun, nofun⟩

@[simp]
theorem maximum_finite : maximum (finite a) (finite b) = finite (max a b) := by
  have hrational := congrArg finite (maximum_rational a b)
  unfold maximum at hrational ⊢
  simpa [apply_ite finite] using hrational

@[simp]
theorem minimum_finite : minimum (finite a) (finite b) = finite (min a b) := by
  have hrational := congrArg finite (minimum_rational a b)
  unfold minimum at hrational ⊢
  simpa [apply_ite finite] using hrational

end Numbers

/-! ## Limits against a number

What `maximum` and `minimum` make of an infinity or not-a-number when the other side is a number. -/

section Limits

variable (b : ℚ)

@[simp]
theorem maximum_nan : maximum nan (finite b) = finite b := by
  simp [maximum, LT.lt, below]

@[simp]
theorem maximum_negative : maximum (infinite true) (finite b) = finite b := by
  simp [maximum, LT.lt, below]

@[simp]
theorem maximum_positive : maximum (infinite false) (finite b) = infinite false := if_pos (.inl rfl)

@[simp]
theorem minimum_nan : minimum nan (finite b) = finite b := by
  simp [minimum, LT.lt, below]

@[simp]
theorem minimum_positive : minimum (infinite false) (finite b) = finite b := by
  simp [minimum, LT.lt, below]

end Limits

end Extended
end Bulwark
