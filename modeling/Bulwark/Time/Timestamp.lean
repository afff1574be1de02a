import Bulwark.Time.Civil
import Bulwark.Time.Instant

/-!
# Timestamps

A timestamp is a moment that can be written as a date: a second since the Unix epoch and the
nanoseconds in it.  Written dates may name a leap second, the sixtieth of a minute; it is held as
the fifty-ninth with a thousand million nanoseconds more, so it sorts after every moment of the
fifty-ninth and before the next second.  A clock never shows one.

Dates run from year -262143 to year 262142.  `Timestamp.ofInstant?` refuses a moment outside, and
`Timestamp.later?` refuses to leave the range.  A step from one date to another is counted in
milliseconds with 64 bits and a sign, and `Timestamp.stepOfSeconds?` refuses a longer one.
-/

namespace Bulwark

/-- A second since the Unix epoch and the nanoseconds in it, `10^9` and more in a leap second. -/
structure Timestamp where
  second : Int
  nano : Nat
  deriving DecidableEq, Repr, Inhabited

namespace Timestamp

/-- Seconds in a day. -/
def secondsPerDay : Int := 86400

/-- The first year of the calendar's range. -/
def firstYear : Int := -262143

/-- The last year of the calendar's range. -/
def lastYear : Int := 262142

/-- The first second in range: the start of year -262143. -/
def firstSecond : Int := Civil.toDays ⟨firstYear, 1, 1⟩ * secondsPerDay

/-- The last second in range: the end of year 262142. -/
def lastSecond : Int := (Civil.toDays ⟨lastYear, 12, 31⟩ + 1) * secondsPerDay - 1

/-- The last moment that can be dated. -/
def latest : Timestamp := ⟨lastSecond, 999999999⟩

/-- Whether a second can be dated. -/
def inRange (second : Int) : Bool := firstSecond ≤ second && second ≤ lastSecond

/-- The date of a clock's reading, where it has one. -/
def ofInstant? (t : Instant) : Option Timestamp :=
  if inRange t.second then some ⟨t.second, t.subsecond⟩ else none

instance : LT Timestamp :=
  ⟨fun a b => a.second < b.second ∨ (a.second = b.second ∧ a.nano < b.nano)⟩

instance : LE Timestamp :=
  ⟨fun a b => a.second < b.second ∨ (a.second = b.second ∧ a.nano ≤ b.nano)⟩

instance : DecidableLT Timestamp := fun a b =>
  inferInstanceAs (Decidable (a.second < b.second ∨ (a.second = b.second ∧ a.nano < b.nano)))

instance : DecidableLE Timestamp := fun a b =>
  inferInstanceAs (Decidable (a.second < b.second ∨ (a.second = b.second ∧ a.nano ≤ b.nano)))

/-- The longest step between two dates: `2^63 - 1` milliseconds. -/
def longestStep : Duration := .ofMillis Text.maxSigned.toNat

/-- So many seconds as a step between two dates, where no longer than the longest. -/
def stepOfSeconds? (n : Nat) : Option Duration :=
  let d := Duration.ofSeconds n
  if d.nanos ≤ longestStep.nanos then some d else none

/-- The timestamp a step later, where it can be dated.  A step within a leap second stays in it, and
a step out of one starts from the same fraction of the second that holds it. -/
def later? (t : Timestamp) (d : Duration) : Option Timestamp :=
  if nanosPerSecond ≤ t.nano ∧ t.nano + d.nanos < 2 * nanosPerSecond then
    some ⟨t.second, t.nano + d.nanos⟩
  else
    let sum := t.nano % nanosPerSecond + d.nanos
    let second := t.second + (sum / nanosPerSecond : Nat)
    if inRange second then some ⟨second, sum % nanosPerSecond⟩ else none

end Timestamp
end Bulwark
