import Bulwark.Decimal.Reader
import Bulwark.Decimal.Shortest
import Bulwark.Time.Instant

/-!
# Quantities

Token counts, rates and fractional seconds are real numbers that a machine holds as doubles.  What
the library does with them is written once, over any type with the operations of `Quantity`, so it
can be run on doubles and reasoned about on exact numbers.

`Quantity.maximum` and `Quantity.minimum` are the two operations that treat not-a-number as absent:
they give the other operand.  Of two equal operands, such as zeros of either sign, both give the
second.  An unordered element is one that is not below itself or equal to itself, so no operation of
its own is needed to recognise it.
-/

namespace Bulwark

/-- Numbers with the operations that buckets, delays and their limits need. -/
class Quantity (α : Type) extends Add α, Sub α, Mul α, Div α, LT α, LE α where
  decLt : DecidableLT α
  decLe : DecidableLE α
  /-- The number nearest to a natural number. -/
  ofNat : Nat → α
  /-- The largest whole number not above. -/
  floor : α → α
  /-- The smallest whole number not below. -/
  ceil : α → α
  /-- Neither infinite nor not-a-number. -/
  isFinite : α → Bool
  /-- The whole part, `0` below zero and for not-a-number, `2^64 - 1` from there on. -/
  wholePart : α → Nat
  /-- So many seconds, rounded to the nearest nanosecond, a half to the even one.  There is none for
  a negative or infinite number or one of `2^64` and more. -/
  toDuration? : α → Option Duration

instance Quantity.decidableLT {α : Type} [Quantity α] : DecidableLT α :=
  fun a b => Quantity.decLt a b

instance Quantity.decidableLE {α : Type} [Quantity α] : DecidableLE α :=
  fun a b => Quantity.decLe a b

/-- The written forms of a quantity. -/
class QuantityText (α : Type) where
  /-- How a store holds it. -/
  render : α → String
  /-- What a store's text means. -/
  read? : String → Option α
  /-- How a log field shows it. -/
  renderLog : α → String

namespace Quantity

variable {α : Type} [Quantity α]

/-- Zero. -/
def zero : α := ofNat 0

/-- One. -/
def one : α := ofNat 1

/-- The larger of two numbers, the second if neither is, and the other one when one is
unordered. -/
def maximum (a b : α) : α := if b < a ∨ ¬ b ≤ b then a else b

/-- The smaller of two numbers, the second if neither is, and the other one when one is
unordered. -/
def minimum (a b : α) : α := if a < b ∨ ¬ b ≤ b then a else b

/-- The nearest number between two ends.  An unordered number stays. -/
def clamp (low high x : α) : α :=
  let raised := if x < low then low else x
  if high < raised then high else raised

/-- A length of time in seconds: the whole seconds and the fraction are rounded apart. -/
def ofDuration (d : Duration) : α :=
  ofNat d.seconds + ofNat d.subsecond / ofNat nanosPerSecond

/-- A clock's reading in seconds since the Unix epoch, zero before it. -/
def ofInstant (t : Instant) : α := if t.nanos < 0 then zero else ofDuration t.sinceEpoch

end Quantity

/-- So many seconds in nanoseconds, for a double. -/
def floatToDuration? (x : Float) : Option Duration :=
  match Binary64.decode x with
  | .finite negative m q =>
    let d : Duration :=
      ⟨roundHalfEven (m * nanosPerSecond * Nat.pow 2 q.toNat) (Nat.pow 2 (-q).toNat)⟩
    if (negative ∧ m ≠ 0) ∨ ¬ d.isHeld then none else some d
  | _ => none

instance : Quantity Float where
  decLt := inferInstance
  decLe := inferInstance
  ofNat n := Binary64.ofDecimal false n 0
  floor := Float.floor
  ceil := Float.ceil
  isFinite := Float.isFinite
  wholePart x := x.toUInt64.toNat
  toDuration? := floatToDuration?

instance : QuantityText Float where
  render := NumberStyle.plain.render
  read? := Decimal.float?
  renderLog := NumberStyle.log.render

end Bulwark
