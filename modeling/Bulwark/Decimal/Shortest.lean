import Bulwark.Decimal.Binary64

/-!
# Shortest decimals

The written form of a double is the shortest decimal that reads back to it, and of those the one
nearest to its value.  `Decimal.shortest` finds it on exact integers: the reals that round to
`m * 2^q` form an interval whose ends belong to it exactly when `m` is even, and for one digit, two
digits and so on the two neighbours of the value on that decimal grid are tried against the
interval.  The first grid with a hit wins; of two hits the nearer, and of two equally near the
upper.

How the digits are laid out is a `NumberStyle`.  The library has three: the plain style of stored
numbers, the style of log fields, and the style of JSON.
-/

namespace Bulwark

/-- The decimal number `digits * 10^exponent`. -/
structure Decimal where
  digits : Nat
  exponent : Int
  deriving DecidableEq, Repr

namespace Decimal

/-- A closed or open interval of rationals over one denominator, with a point inside it. -/
structure Window where
  low : Nat
  value : Nat
  high : Nat
  den : Nat
  closed : Bool
  deriving DecidableEq, Repr

/-- The reals that round to `m * 2^q`.  Below a power of two the doubles lie twice as close. -/
def Window.ofBinary (m : Nat) (q : Int) : Window :=
  let up := Nat.pow 2 q.toNat
  let below := if m = Binary64.fractionSize ∧ -1074 < q then 1 else 2
  { low := (4 * m - below) * up
    value := 4 * m * up
    high := (4 * m + 2) * up
    den := 4 * Nat.pow 2 (-q).toNat
    closed := m % 2 = 0 }

/-- The number of places before the decimal point of `num / den`: the `k` with
`10^(k-1) ≤ num / den < 10^k`. -/
def pointPosition (num den : Nat) : Int :=
  if den ≤ num then (Nat.repr (num / den)).length
  else
    let j := (Nat.repr (den / num)).length - 1
    if den = num * Nat.pow 10 j then 1 - j else -j

/-- Whether `c * 10^e` lies in the window. -/
def Window.contains (w : Window) (c : Nat) (e : Int) : Bool :=
  let x := c * Nat.pow 10 e.toNat * w.den
  let scale := Nat.pow 10 (-e).toNat
  if w.closed then w.low * scale ≤ x && x ≤ w.high * scale
  else w.low * scale < x && x < w.high * scale

/-- The neighbour of the value on the grid of multiples of `10^e` that lies in the window. -/
def Window.onGrid? (w : Window) (e : Int) : Option Nat :=
  let num := w.value * Nat.pow 10 (-e).toNat
  let den := w.den * Nat.pow 10 e.toNat
  let c := num / den
  match w.contains c e, w.contains (c + 1) e with
  | true, true => some (if 2 * (num % den) < den then c else c + 1)
  | true, false => some c
  | false, true => some (c + 1)
  | false, false => none

/-- The same number with no zero at the end of its digits. -/
def stripZeros : Nat → Decimal → Decimal
  | 0, d => d
  | fuel + 1, d =>
    if d.digits ≠ 0 ∧ d.digits % 10 = 0 then stripZeros fuel ⟨d.digits / 10, d.exponent + 1⟩ else d

/-- The first grid, from `count` digits on, that has a point in the window. -/
def search (w : Window) (k : Int) : (fuel count : Nat) → Decimal
  | 0, count =>
    ⟨w.value * Nat.pow 10 (count - k).toNat / (w.den * Nat.pow 10 (k - count).toNat), k - count⟩
  | fuel + 1, count =>
    match w.onGrid? (k - count) with
    | some c => stripZeros 20 ⟨c, k - count⟩
    | none => search w k fuel (count + 1)

/-- The shortest decimal that rounds to `m * 2^q`, for `0 < m`.  Seventeen digits always do. -/
def shortest (m : Nat) (q : Int) : Decimal :=
  let w := Window.ofBinary m q
  search w (pointPosition w.value w.den) 17 1

end Decimal

/-- How the digits of a number are laid out. -/
structure NumberStyle where
  /-- What follows a number without fraction. -/
  wholeMark : String
  /-- Whether a number with its point after `k` digits is written without an exponent. -/
  positional : Int → Bool

namespace NumberStyle

/-- Stored numbers: never an exponent, nothing after a whole number. -/
def plain : NumberStyle := ⟨"", fun _ => true⟩

/-- Log fields: positional from `0.0001` up to below `10^16`, a whole number ends in `.0`. -/
def log : NumberStyle := ⟨".0", fun k => -3 ≤ k && k ≤ 16⟩

/-- JSON: positional from `0.00001` up to below `10^16`, a whole number ends in `.0`. -/
def json : NumberStyle := ⟨".0", fun k => -4 ≤ k && k ≤ 16⟩

/-- The digits of a decimal without an exponent. -/
def layPositional (style : NumberStyle) (d : Decimal) : String :=
  let ds := (Nat.repr d.digits).toList
  let k := ds.length + d.exponent
  if 0 ≤ d.exponent then
    String.ofList (ds ++ List.replicate d.exponent.toNat '0') ++ style.wholeMark
  else if 0 < k then
    String.ofList (ds.take k.toNat ++ '.' :: ds.drop k.toNat)
  else
    String.ofList ('0' :: '.' :: List.replicate (-k).toNat '0' ++ ds)

/-- The digits of a decimal with the point after the first and an exponent. -/
def layScientific (d : Decimal) : String :=
  let ds := (Nat.repr d.digits).toList
  let e := ds.length + d.exponent - 1
  let fraction := if ds.length = 1 then [] else '.' :: ds.drop 1
  String.ofList (ds.take 1 ++ fraction) ++ "e" ++ toString e

/-- The text of a double. -/
def render (style : NumberStyle) (x : Float) : String :=
  match Binary64.decode x with
  | .nan => "NaN"
  | .infinite negative => if negative then "-inf" else "inf"
  | .finite negative m q =>
    let sign := if negative then "-" else ""
    if m = 0 then sign ++ "0" ++ style.wholeMark
    else
      let d := Decimal.shortest m q
      if style.positional ((Nat.repr d.digits).length + d.exponent) then
        sign ++ style.layPositional d
      else sign ++ layScientific d

end NumberStyle
end Bulwark
