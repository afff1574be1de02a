/-!
# Calls without an answer

A few inputs leave a call with nothing to answer: a moment that the calendar cannot date, a moment
that no clock can show, a delay too long to be held, a queue too long to be set up.  Such a call
halts, and with it the run that made it.
-/

namespace Bulwark

/-- Why a call halts. -/
inductive Halt where
  /-- The clock shows a moment outside the calendar. -/
  | undatable
  /-- The clock is set to a moment that it cannot show. -/
  | clockOverflow
  /-- A delay is too long to be held. -/
  | delayOverflow
  /-- The queue to the shared statistics is too long to be set up. -/
  | queueOverflow
  /-- There is no layer of that number. -/
  | noSuchLayer
  deriving DecidableEq, Repr

end Bulwark
