import Bulwark.Decimal.Binary64
import Bulwark.Text.Digits

/-!
# Reading doubles

A number in free form: an optional sign, then digits with an optional point and exponent, or one of
the words for infinity and not-a-number in any case.  There must be a digit on one side of the
point, and no blank anywhere.  The value is the double nearest to what is written.
-/

namespace Bulwark.Decimal

/-- The exponent part: `e` or `E`, an optional sign, at least one digit, and nothing after. -/
def exponent? : List Char → Option Int
  | [] => some 0
  | c :: rest =>
    if c = 'e' ∨ c = 'E' then
      match rest with
      | '+' :: ds => (Text.digits? ds).map Int.ofNat
      | '-' :: ds => (Text.digits? ds).map (fun n => -(n : Int))
      | ds => (Text.digits? ds).map Int.ofNat
    else none

/-- A number without its sign. -/
def magnitude? (negative : Bool) (cs : List Char) : Option Float :=
  let whole := cs.takeWhile Char.isDigit
  let rest := cs.dropWhile Char.isDigit
  let (fraction, tail) := match rest with
    | '.' :: after => (after.takeWhile Char.isDigit, after.dropWhile Char.isDigit)
    | _ => ([], rest)
  if whole.isEmpty ∧ fraction.isEmpty then none
  else (exponent? tail).map fun e =>
    Binary64.ofDecimal negative (Text.natOfDigits (whole ++ fraction)) (e - fraction.length)

/-- A double in free form. -/
def float? (s : String) : Option Float :=
  let (negative, cs) := match s.toList with
    | '-' :: rest => (true, rest)
    | '+' :: rest => (false, rest)
    | cs => (false, cs)
  let word := String.ofList (cs.map Char.toLower)
  if word = "inf" ∨ word = "infinity" then some (Binary64.infinity negative)
  else if word = "nan" then some (Float.ofBits 0x7ff8000000000000)
  else magnitude? negative cs

end Bulwark.Decimal
