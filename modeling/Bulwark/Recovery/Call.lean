import Bulwark.Recovery.Engine

/-!
# Calls of a recovery engine

The calls of an engine as data, so that a run is a list of them.  `Engine.perform` makes one.
-/

namespace Bulwark.Engine

/-- A call of an engine. -/
inductive Call (β : Type) where
  /-- Guards an operation, which is waited for no longer than `patience` if that is given. -/
  | wrap (spec : OperationSpec) (attempt : Nat → Attempt β) (patience : Option Duration)
  /-- Guards a stream, of which only so many items are read if that is given. -/
  | stream (spec : OperationSpec) (subscriptions : List (List (Attempt β))) (wanted : Option Nat)
  /-- Answers at once with a degraded response. -/
  | degrade (operation : String) (category : DegradationCategory) (f : Fault)
  /-- Answers at once that the circuit is open. -/
  | trip (operation : String) (f : Fault)

/-- The answer to a call, for guarded ones after what has happened. -/
inductive Reply (β : Type) where
  /-- There is no answer if the operation was given up. -/
  | wrapped (happenings : List (Happening Empty)) (answer : Option (Except Fault (Outcome β)))
  | streamed (happenings : List (Happening β))
  | degraded (response : DegradedResponse)
  | tripped (f : Fault)

/-- Makes a call.  The delay before retry `i` is spread by `samples i`. -/
def perform {α β : Type} [Quantity α] (e : Engine α) (now : Instant) (samples : Nat → α) :
    Call β → Action (Reply β)
  | .wrap spec attempt none => do
    let (happenings, answer) ← e.wrap now spec samples attempt
    return .wrapped happenings (some answer)
  | .wrap spec attempt (some patience) => do
    let (happenings, answer) ← e.wrapWithin patience now spec samples attempt
    return .wrapped happenings answer
  | .stream spec subscriptions none => return .streamed (← e.stream spec samples subscriptions)
  | .stream spec subscriptions (some wanted) =>
    return .streamed (← e.streamTaking wanted spec samples subscriptions)
  | .degrade operation category f => return .degraded (← degrade now operation category 0 f)
  | .trip operation f => return .tripped (← trip operation 0 f)

end Bulwark.Engine
