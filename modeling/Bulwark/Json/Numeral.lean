import Bulwark.Decimal.Binary64
import Bulwark.Text.Digits

/-!
# Numbers in JSON text

A number as it is spelled, and the value it has.  A number spelled without point and exponent is a
whole number if it fits into 64 bits, without sign or with one; every other is a double.  The double
is not the nearest one: the digits that fit into 64 bits are gathered into one whole number, further
ones only count as places or are dropped, and the result is scaled by powers of ten in double
arithmetic.  A magnitude beyond the largest double is refused.
-/

namespace Bulwark.Json

/-- The spelling of a number: the digits before and after the point, and the exponent. -/
structure Numeral where
  negative : Bool
  whole : List Char
  fraction : Option (List Char)
  /-- Whether the exponent is negative, and its digits. -/
  exponent : Option (Bool × List Char)
  deriving DecidableEq, Repr

/-- The value of a number. -/
inductive Number where
  | int (n : Int)
  | float (x : Float)

namespace Numeral

/-- Whether a digit can be added to a number without leaving 64 bits. -/
def fits (significand : Nat) (c : Char) : Bool :=
  significand * 10 + (c.toNat - 48) ≤ Text.maxUnsigned

/-- The leading digits that fit into 64 bits after `significand`, and the number of the others. -/
def gather : Nat → List Char → Nat × Nat
  | significand, [] => (significand, 0)
  | significand, c :: rest =>
    if fits significand c then gather (significand * 10 + (c.toNat - 48)) rest
    else (significand, rest.length + 1)

/-- The double nearest to `10^k`. -/
def powerOfTen (k : Nat) : Float := Binary64.ofDecimal false 1 k

/-- Multiplies by `10^exponent` in double arithmetic, dividing by at most `10^308` at a time.
Refuses an infinite product. -/
def scale : Nat → Float → Int → Option Float
  | 0, x, _ => some x
  | fuel + 1, x, exponent =>
    if exponent.natAbs ≤ 308 then
      if 0 ≤ exponent then
        let y := x * powerOfTen exponent.natAbs
        if y.isInf then none else some y
      else some (x / powerOfTen exponent.natAbs)
    else if x == 0 then some x
    else if 0 ≤ exponent then none
    else scale fuel (x / powerOfTen 308) (exponent + 308)

/-- The largest exponent that is not taken for an overflow. -/
def maxExponent : Nat := 2147483647

/-- A double from its significand, the exponent that its point implies, and its written exponent. -/
def assemble (negative : Bool) (significand : Nat) (implied : Int)
    (exponent : Option (Bool × List Char)) : Option Float :=
  let magnitude := match exponent with
    | none => scale 5 significand.toUInt64.toFloat implied
    | some (down, ds) =>
      let e := Text.natOfDigits ds
      if maxExponent < e then
        if significand ≠ 0 ∧ down = false then none else some 0
      else scale 5 significand.toUInt64.toFloat (if down then implied - e else implied + e)
  magnitude.map fun x => if negative then -x else x

/-- The double that a spelling stands for. -/
def float? (n : Numeral) : Option Float :=
  let (significand, dropped) := gather 0 n.whole
  match n.fraction with
  | none => assemble n.negative significand dropped n.exponent
  | some ds =>
    let (all, left) := gather significand ds
    assemble n.negative all (dropped - (ds.length - left : Nat)) n.exponent

/-- The value of a spelling. -/
def value? (n : Numeral) : Option Number :=
  if n.fraction.isNone ∧ n.exponent.isNone then
    let magnitude := Text.natOfDigits n.whole
    if n.negative then
      if 0 < magnitude ∧ Text.fitsSigned (-(magnitude : Int)) then some (.int (-(magnitude : Int)))
      else n.float?.map .float
    else if magnitude ≤ Text.maxUnsigned then some (.int magnitude)
    else n.float?.map .float
  else n.float?.map .float

end Numeral
end Bulwark.Json
