import Bulwark.Text.Digits

/-!
# Durations

A length of time is a whole number of nanoseconds.  Durations written by hand hold at most
`2^64 - 1` whole seconds and a fraction below one second; `Duration.limit` is the first length that
is too long, and the operations that could reach it say so.
-/

namespace Bulwark

/-- Nanoseconds in a second. -/
def nanosPerSecond : Nat := 1000000000

/-- A length of time, in nanoseconds. -/
structure Duration where
  nanos : Nat
  deriving DecidableEq, Repr, Inhabited

namespace Duration

/-- The first length that cannot be held: `2^64` seconds. -/
def limit : Nat := UInt64.size * nanosPerSecond

/-- Whether a length can be held. -/
def isHeld (d : Duration) : Bool := d.nanos < limit

/-- No time at all. -/
def zero : Duration := ⟨0⟩

/-- So many seconds. -/
def ofSeconds (n : Nat) : Duration := ⟨n * nanosPerSecond⟩

/-- So many milliseconds. -/
def ofMillis (n : Nat) : Duration := ⟨n * 1000000⟩

/-- The whole seconds. -/
def seconds (d : Duration) : Nat := d.nanos / nanosPerSecond

/-- What is left over the whole seconds, in nanoseconds. -/
def subsecond (d : Duration) : Nat := d.nanos % nanosPerSecond

/-- The whole milliseconds. -/
def millis (d : Duration) : Nat := d.nanos / 1000000

/-- The milliseconds after which a clock that ticks in milliseconds shows that the time is over. -/
def ticks (d : Duration) : Nat := (d.nanos + 999999) / 1000000

/-- Multiplication, where the product can be held. -/
def mul? (d : Duration) (factor : Nat) : Option Duration :=
  let product : Duration := ⟨d.nanos * factor⟩
  if product.isHeld then some product else none

/-- The shorter of two lengths. -/
def shorter (a b : Duration) : Duration := if a.nanos ≤ b.nanos then a else b

/-- A whole part and a fraction of so many places, the fraction without zeros at its end. -/
def fractional (whole fraction places : Nat) : String :=
  let digits := (Text.padded places fraction).toList
  let kept := (digits.reverse.dropWhile (· == '0')).reverse
  Nat.repr whole ++ (if kept.isEmpty then "" else "." ++ String.ofList kept)

/-- The length in the largest unit that makes it at least one: `5s`, `1.5s`, `100ms`, `1.5µs`,
`0ns`. -/
def render (d : Duration) : String :=
  if nanosPerSecond ≤ d.nanos then fractional d.seconds d.subsecond 9 ++ "s"
  else if 1000000 ≤ d.nanos then fractional (d.nanos / 1000000) (d.nanos % 1000000) 6 ++ "ms"
  else if 1000 ≤ d.nanos then fractional (d.nanos / 1000) (d.nanos % 1000) 3 ++ "µs"
  else Nat.repr d.nanos ++ "ns"

end Duration
end Bulwark
