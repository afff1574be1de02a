import Bulwark.Time.Duration

/-!
# Instants

A moment of wall-clock time, to the nanosecond, counted from the Unix epoch and possibly before it.
A clock holds moments whose whole second fits into 64 bits with a sign; `Instant.later?` refuses to
leave that range, so a deadline that cannot be held is no deadline.
-/

namespace Bulwark

/-- A moment of wall-clock time, in nanoseconds since the Unix epoch. -/
structure Instant where
  nanos : Int
  deriving DecidableEq, Repr, Inhabited

namespace Instant

/-- The whole second that a moment falls into, rounded towards the past. -/
def second (t : Instant) : Int := t.nanos / nanosPerSecond

/-- The nanoseconds since the whole second. -/
def subsecond (t : Instant) : Nat := (t.nanos % nanosPerSecond).toNat

/-- Whether a clock can show this moment. -/
def isHeld (t : Instant) : Bool := Text.fitsSigned t.second

/-- The moment a length of time later, where a clock can show it. -/
def later? (t : Instant) (d : Duration) : Option Instant :=
  let sum : Instant := ⟨t.nanos + d.nanos⟩
  if sum.isHeld then some sum else none

/-- The time from one moment to a later one, and no time when it is not later. -/
def timeTo (t target : Instant) : Duration := ⟨(target.nanos - t.nanos).toNat⟩

/-- The time since the Unix epoch, and no time before it. -/
def sinceEpoch (t : Instant) : Duration := ⟨t.nanos.toNat⟩

instance : LT Instant := ⟨fun a b => a.nanos < b.nanos⟩
instance : LE Instant := ⟨fun a b => a.nanos ≤ b.nanos⟩
instance : DecidableLT Instant := fun a b => inferInstanceAs (Decidable (a.nanos < b.nanos))
instance : DecidableLE Instant := fun a b => inferInstanceAs (Decidable (a.nanos ≤ b.nanos))

end Instant
end Bulwark
