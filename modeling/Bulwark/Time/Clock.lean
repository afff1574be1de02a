import Bulwark.Halt
import Bulwark.Time.Timestamp

/-!
# Clocks

A clock shows one moment until somebody moves it, forwards by a length of time or to any moment.  A
move to a moment that no clock can show halts, and so does dating a moment outside the calendar.
-/

namespace Bulwark

/-- How a clock is moved. -/
inductive ClockMove where
  | advance (d : Duration)
  /-- Possibly into the past. -/
  | set (t : Instant)
  deriving DecidableEq, Repr

/-- What a clock shows after a move. -/
def ClockMove.apply (now : Instant) : ClockMove → Except Halt Instant
  | .advance d => match now.later? d with
    | some t => .ok t
    | none => .error .clockOverflow
  | .set t => if t.isHeld then .ok t else .error .clockOverflow

/-- The date of what a clock shows. -/
def Timestamp.ofClock {σ : Type} (now : Instant) : StateT σ (Except Halt) Timestamp := fun s =>
  match Timestamp.ofInstant? now with
  | some t => .ok (t, s)
  | none => .error .undatable

end Bulwark
