import Bulwark.Degradation
import Bulwark.Recovery.Course
import Bulwark.Statistics
import Bulwark.Time.Clock

/-!
# The recovery engine

Guards operations by retries and, when they have failed for good, by a fallback: a degraded response
or an open circuit.  Faults of the two terminal classes go back to the caller as they are, whatever
the fallback.  Attempts and the ending are counted together at the end, so an operation that is
given up half-way counts nowhere.

A call works on an `Engine.Session`: the counts of finished operations and the events so far.
-/

namespace Bulwark

/-- What happens when an operation has failed for good. -/
inductive Fallback where
  | degrade (category : DegradationCategory)
  | circuitBreak
  deriving DecidableEq, Repr

/-- A guarded operation. -/
structure OperationSpec where
  /-- The name in events and degraded responses. -/
  name : String
  profile : RetryProfile
  fallback : Fallback
  deriving DecidableEq, Repr

/-- The answer of an operation that has not failed hard. -/
inductive Outcome (β : Type) where
  | success (value : β)
  | degraded (response : DegradedResponse)

/-- The policies in force, and whether anything is retried at all. -/
structure Engine (α : Type) where
  policies : RetryPolicies α
  retriesEnabled : Bool

namespace Engine

/-- What the calls of an engine work on. -/
structure Session where
  counts : RecoveryCount
  events : List Event

/-- A call of an engine. -/
abbrev Action := StateT Session (Except Halt)

/-- Reports events. -/
def report (events : List Event) : Action Unit :=
  modify fun s => { s with events := s.events ++ events }

/-- Counts a finished operation. -/
def count (attempts : Nat) (ending : Ending) : Action Unit :=
  modify fun s => { s with counts := s.counts.record attempts ending }

/-- An audit event of the engine. -/
def audit (operation message : String) : Event := .audit ⟨"recovery", operation, message⟩

/-! ## Endings -/

/-- Answers with a degraded response. -/
def degrade (now : Instant) (operation : String) (category : DegradationCategory) (attempts : Nat)
    (f : Fault) : Action DegradedResponse := do
  report [
    .log (.of .warn "Operation degraded"
      [("operation", operation), ("category", category.name), ("attempts", Nat.repr attempts),
        ("error", f.message)]),
    audit operation ("degraded to " ++ category.name ++ " payload after " ++ Nat.repr attempts
      ++ " attempt(s): " ++ f.message)]
  count attempts .degradation
  return .make operation category f.message (← Timestamp.ofClock now)

/-- Answers that the circuit is open. -/
def trip (operation : String) (attempts : Nat) (f : Fault) : Action Fault := do
  report [
    .log (.of .error "Circuit breaker activated"
      [("operation", operation), ("attempts", Nat.repr attempts), ("error", f.message)]),
    audit operation ("circuit opened after " ++ Nat.repr attempts ++ " attempt(s): " ++ f.message)]
  count attempts .circuitTrip
  pure (.circuitOpen operation)

/-- Ends an operation that has failed for good. -/
def conclude {β : Type} (now : Instant) (spec : OperationSpec) (attempts : Nat) (f : Fault) :
    Action (Except Fault (Outcome β)) := do
  if f.kind.isTerminal then
    report [.log (.of .debug "Operation failed with a terminal error"
      [("operation", spec.name), ("error", f.message)])]
    count attempts .failure
    pure (.error f)
  else
    match spec.fallback with
    | .degrade category => return .ok (.degraded (← degrade now spec.name category attempts f))
    | .circuitBreak => return .error (← trip spec.name attempts f)

/-- Ends a stream at a fault that is not retried. -/
def truncate (spec : OperationSpec) (subscriptions : Nat) (f : Fault) : Action Unit := do
  report [
    .log (.of .warn "Stream truncated"
      [("operation", spec.name), ("subscriptions", Nat.repr subscriptions), ("error", f.message)]),
    audit spec.name ("stream truncated after " ++ Nat.repr subscriptions ++ " subscription(s): "
      ++ f.message)]
  count subscriptions (if f.kind.isTerminal then .failure else .degradation)

/-! ## Guarding -/

section Guarding

variable {α : Type} [Quantity α] (e : Engine α)

/-- How often an operation may be started. -/
def attemptLimit (policy : RetryPolicy α) : Nat :=
  if e.retriesEnabled then policy.maxAttempts else 1

/-- The pause before an operation is started at all. -/
def pauseBefore {β : Type} (policy : RetryPolicy α) : List (Happening β) :=
  if e.retriesEnabled then Course.preDelay policy.preDelay else []

/-- The course of an operation with one result. -/
def wrapCourse {β : Type} (spec : OperationSpec) (samples : Nat → α) (attempt : Nat → Attempt β) :
    Course Empty β :=
  let policy := e.policies.of spec.profile
  (Course.ofAttempts policy samples spec.name attempt (e.attemptLimit policy - 1) 0).after
    (e.pauseBefore policy)

/-- What a deadline in milliseconds leaves of the course of an operation with one result. -/
def wrapCut {β : Type} (deadline : Nat) (spec : OperationSpec) (samples : Nat → α)
    (attempt : Nat → Attempt β) : Course.Cut Empty β :=
  let policy := e.policies.of spec.profile
  Course.thenWithin deadline .start (e.pauseBefore policy) fun watch =>
    Course.attemptsWithin policy samples spec.name deadline attempt watch
      (e.attemptLimit policy - 1) 0

/-- The course is cut, and no other. -/
theorem wrapCut_eq_within {β : Type} (deadline : Nat) (spec : OperationSpec) (samples : Nat → α)
    (attempt : Nat → Attempt β) :
    e.wrapCut deadline spec samples attempt =
      (e.wrapCourse spec samples attempt).within deadline .start := by
  simp only [wrapCut, wrapCourse, Course.within_after, Course.attemptsWithin_eq_within]

/-- Ends an operation whose course is over. -/
def finish {β : Type} (now : Instant) (spec : OperationSpec) (c : Course Empty β) :
    Action (Except Fault (Outcome β)) :=
  match c.ending with
  | .success value => do
    count c.starts .success
    pure (.ok (.success value))
  | .fault f => conclude now spec c.starts f
  | .halt => throw .delayOverflow

/-- Guards an operation: attempt `i` does what `attempt i` says.  Gives what has happened, and the
answer. -/
def wrap {β : Type} (now : Instant) (spec : OperationSpec) (samples : Nat → α)
    (attempt : Nat → Attempt β) : Action (List (Happening Empty) × Except Fault (Outcome β)) := do
  let c := e.wrapCourse spec samples attempt
  report ((Course.logOf c.happenings).map .log)
  return (c.happenings, ← finish now spec c)

/-- Guards an operation that is waited for no longer than `patience`.  One that is given up then has
no answer, and leaves nothing but what it had logged. -/
def wrapWithin {β : Type} (patience : Duration) (now : Instant) (spec : OperationSpec)
    (samples : Nat → α) (attempt : Nat → Attempt β) :
    Action (List (Happening Empty) × Option (Except Fault (Outcome β))) := do
  let cut := e.wrapCut patience.ticks spec samples attempt
  report ((Course.logOf cut.happenings).map .log)
  match cut with
  | .whole c => return (c.happenings, some (← finish now spec c))
  | .part hs => pure (hs, none)

/-- The course of a stream. -/
def streamCourse {β : Type} (spec : OperationSpec) (samples : Nat → α)
    (subscriptions : List (List (Attempt β))) : Course β Unit :=
  let policy := e.policies.of spec.profile
  (Course.ofSubscriptions policy samples spec.name (e.attemptLimit policy) 0 0 subscriptions).after
    (e.pauseBefore policy)

/-- Ends a stream whose course is over. -/
def finishStream {β : Type} (spec : OperationSpec) (c : Course β Unit) : Action Unit :=
  match c.ending with
  | .success () => count c.starts .success
  | .fault f => truncate spec c.starts f
  | .halt => throw .delayOverflow

/-- Guards a stream that is read to its end, and gives what has happened. -/
def stream {β : Type} (spec : OperationSpec) (samples : Nat → α)
    (subscriptions : List (List (Attempt β))) : Action (List (Happening β)) := do
  let c := e.streamCourse spec samples subscriptions
  report ((Course.logOf c.happenings).map .log)
  finishStream spec c
  pure c.happenings

/-- Guards a stream of which so many items are read.  One that is dropped before its end leaves
nothing but what it had logged. -/
def streamTaking {β : Type} (wanted : Nat) (spec : OperationSpec) (samples : Nat → α)
    (subscriptions : List (List (Attempt β))) : Action (List (Happening β)) := do
  let c := e.streamCourse spec samples subscriptions
  let (hs, enough) := Course.cutAfter wanted c.happenings
  report ((Course.logOf hs).map .log)
  if !enough then finishStream spec c
  pure hs

end Guarding

end Engine
end Bulwark
