/-!
# Doubles as exact numbers

A finite double is `m * 2^q` with whole `m` and `q`.  `Binary64.decode` gives that view and
`Binary64.ofRatio` goes back: it rounds an exact quotient of natural numbers to the nearest double,
a half to the even neighbour.  Both work on the bit pattern, so nothing here depends on how the
machine adds or prints doubles.
-/

namespace Bulwark

/-- A quotient rounded to the nearest whole number; a half goes to the even neighbour. -/
def roundHalfEven (num den : Nat) : Nat :=
  let q := num / den
  let r := num % den
  if 2 * r < den then q
  else if den < 2 * r then q + 1
  else if q % 2 = 0 then q
  else q + 1

namespace Binary64

/-- What a bit pattern stands for. -/
inductive Decoded where
  /-- Not a number. -/
  | nan
  /-- An infinity, negative or not. -/
  | infinite (negative : Bool)
  /-- The number `± significand * 2^exponent`. -/
  | finite (negative : Bool) (significand : Nat) (exponent : Int)
  deriving DecidableEq, Repr

/-- The number of fractions between two powers of two: `2^52`. -/
def fractionSize : Nat := 4503599627370496

/-- The bit of the sign: `2^63`. -/
def signBit : Nat := 9223372036854775808

/-- The bits of the sign of a double. -/
def signBits (negative : Bool) : Nat := if negative then signBit else 0

/-- The exact value of a double. -/
def decode (x : Float) : Decoded :=
  let bits := x.toBits.toNat
  let negative := signBit ≤ bits
  let biased : Nat := bits / fractionSize % 2048
  let fraction := bits % fractionSize
  if biased = 2047 then
    if fraction = 0 then .infinite negative else .nan
  else if biased = 0 then .finite negative fraction (-1074)
  else .finite negative (fraction + fractionSize) ((biased : Int) - 1075)

/-- The bit pattern of the infinity with the given sign is this plus the sign bit. -/
def infinityBits : Nat := 2047 * fractionSize

/-- The magnitude bits of the double nearest to `num / den`, for `0 < den`. -/
def magnitudeBits (num den : Nat) : Nat :=
  if num = 0 then 0 else
    -- the quotient by `2^e` lies between `2^52` and `2^54`, or below when the result is subnormal
    let e := max ((num.log2 : Int) - den.log2 - 53) (-1074)
    let quotient (e : Int) : Nat × Nat := (num * Nat.pow 2 (-e).toNat, den * Nat.pow 2 e.toNat)
    let e := if (quotient e).1 / (quotient e).2 < 2 * fractionSize then e else e + 1
    let m := roundHalfEven (quotient e).1 (quotient e).2
    min infinityBits ((e + 1074).toNat * fractionSize + m)

/-- The double nearest to `± num / den`, a half going to the even neighbour. -/
def ofRatio (negative : Bool) (num den : Nat) : Float :=
  Float.ofBits (UInt64.ofNat (signBits negative + magnitudeBits num den))

/-- The infinity of the given sign. -/
def infinity (negative : Bool) : Float :=
  Float.ofBits (UInt64.ofNat (signBits negative + infinityBits))

/-- The double nearest to `± digits * 10^exponent`.  Numbers of more than 310 places before the
point, or of more than 330 zeros after it, are infinite or zero whatever their digits. -/
def ofDecimal (negative : Bool) (digits : Nat) (exponent : Int) : Float :=
  let places := (Nat.repr digits).length + exponent
  if digits = 0 ∨ places < -330 then ofRatio negative 0 1
  else if 310 < places then infinity negative
  else ofRatio negative (digits * Nat.pow 10 exponent.toNat) (Nat.pow 10 (-exponent).toNat)

end Binary64
end Bulwark
