/-!
# Whole numbers in decimal digits

Reading and writing of whole numbers.  The readers take ASCII digits only, an optional sign, and
refuse whatever falls outside the range they are asked for; they never clamp.
-/

namespace Bulwark.Text

/-- The number that a list of decimal digits denotes, most significant digit first. -/
def natOfDigits (ds : List Char) : Nat := ds.foldl (fun n c => 10 * n + (c.toNat - 48)) 0

/-- A non-empty run of decimal digits. -/
def digits? (cs : List Char) : Option Nat :=
  if cs ≠ [] ∧ cs.all Char.isDigit then some (natOfDigits cs) else none

/-- The largest unsigned 64-bit number. -/
def maxUnsigned : Nat := UInt64.size - 1

/-- A whole number from `0` to `2^64 - 1`, with an optional plus sign. -/
def unsigned? (s : String) : Option Nat :=
  let digits := match s.toList with
    | '+' :: rest => rest
    | cs => cs
  (digits? digits).filter (· ≤ maxUnsigned)

/-- The smallest signed 64-bit number: `-2^63`. -/
def minSigned : Int := -9223372036854775808

/-- The largest signed 64-bit number: `2^63 - 1`. -/
def maxSigned : Int := 9223372036854775807

/-- Whether a number fits into 64 bits with a sign. -/
def fitsSigned (n : Int) : Bool := minSigned ≤ n && n ≤ maxSigned

/-- A whole number from `-2^63` to `2^63 - 1`, with an optional sign. -/
def signed? (s : String) : Option Int :=
  let value := match s.toList with
    | '+' :: rest => (digits? rest).map Int.ofNat
    | '-' :: rest => (digits? rest).map (fun n => -(n : Int))
    | cs => (digits? cs).map Int.ofNat
  value.filter fitsSigned

/-- Addition of signed 64-bit numbers that stops at the ends of the range. -/
def addSaturating (a b : Int) : Int := max minSigned (min maxSigned (a + b))

/-- A number written with at least `width` digits, zeros in front. -/
def padded (width n : Nat) : String :=
  let text := Nat.repr n
  String.ofList (List.replicate (width - text.length) '0') ++ text

end Bulwark.Text
