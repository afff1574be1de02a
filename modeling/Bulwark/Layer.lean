import Bulwark.Configuration
import Bulwark.Limiter.Call
import Bulwark.Recovery.Call
import Bulwark.Revocation.Call

/-!
# Layers

A layer is a limiter, a recovery engine and a blacklist behind one handle.  `Layer.ofConfiguration`
makes one out of a configuration that is complete and makes sense.

A layer can be switched off.  Then its admission checks let everything in without asking the store,
and its operations are started once and go straight to their fallback.  The blacklist works on: it
is a matter of security and not of load.

A call works on a `Layer.Session`, which holds what the three parts work on.  `limiting`, `guarding`
and `revoking` run a call of one part there; each of them gives its part only what it may touch.
-/

namespace Bulwark

/-- Why a configuration makes no layer. -/
inductive LayerError (α : Type) where
  /-- Nobody has chosen how lookups of the blacklist answer without the store. -/
  | missingFailureMode
  /-- A retry policy makes no sense. -/
  | retry (e : RetrySettingsError α)
  deriving DecidableEq, Repr

/-- The text of an error. -/
def LayerError.message {α : Type} [QuantityText α] : LayerError α → String
  | .missingFailureMode =>
    "revocation failure mode must be set explicitly (fail_safe or fail_closed)"
  | .retry e => e.message

/-- Admission control, recovery and revocation behind one handle. -/
structure Layer (α : Type) where
  /-- Whether admission is limited and anything is retried. -/
  enabled : Bool
  limiter : LimiterSettings α
  engine : Engine α
  blacklist : Blacklist

namespace Layer

variable {α β γ : Type}

/-- The layer of a configuration.  The failure mode is looked at first. -/
def ofConfiguration [Quantity α] (c : Configuration α) : Except (LayerError α) (Layer α) :=
  match c.failureMode with
  | none => .error .missingFailureMode
  | some failureMode =>
    match c.retry.policies with
    | .error e => .error (.retry e)
    | .ok policies => .ok {
        enabled := c.enabled
        limiter := c.limiter
        engine := ⟨policies, c.enabled⟩
        blacklist := ⟨c.blacklistPrefix, failureMode⟩ }

/-- What the calls of a layer work on. -/
structure Session where
  gate : Gate
  breaker : Breaker
  backlog : Backlog
  counters : Counters
  events : List Event

/-- A call of a layer. -/
abbrev Action := StateT Session (Except Halt)

/-- Runs a call of the limiter.  The queue to the shared statistics is set up with its first
decision, which halts if it may be too long. -/
def limiting (capacity : Nat) (call : Limiter.Action γ) : Action γ := fun s =>
  let session : Limiter.Session := ⟨s.gate, s.breaker, s.backlog, s.counters.admission, []⟩
  let (answer, t) := Id.run (StateT.run call session)
  if Backlog.maxCapacity < capacity ∧ ¬ t.backlog.queue.isEmpty then .error .queueOverflow
  else .ok (answer, {
    gate := t.gate
    breaker := t.breaker
    backlog := t.backlog
    counters := { s.counters with admission := t.admission }
    events := s.events ++ t.log.map .log })

/-- Runs a call of the recovery engine. -/
def guarding (call : Engine.Action γ) : Action γ := fun s => do
  let (answer, t) ← StateT.run call ⟨s.counters.recovery, s.events⟩
  .ok (answer, { s with counters := { s.counters with recovery := t.counts }, events := t.events })

/-- Runs a call of the blacklist. -/
def revoking (call : Blacklist.Action γ) : Action γ := fun s => do
  let (answer, t) ← StateT.run call ⟨s.gate, s.counters.revocation, s.events⟩
  .ok (answer, { s with
    gate := t.gate
    counters := { s.counters with revocation := t.counts }
    events := t.events })

/-- A call of a layer. -/
inductive Call (α β : Type) where
  /-- Checks one dimension.  Of the global kind there is one dimension only, whatever the key. -/
  | check (kind : DimensionKind) (key : String)
  /-- Checks all dimensions of a request. -/
  | checkAll (ip : String) (user : Option String) (endpoint : String)
  /-- A call of the limiter, which does not know whether the layer is switched off. -/
  | limiter (c : Limiter.Call α)
  | engine (c : Engine.Call β)
  | blacklist (c : Blacklist.Call)
  /-- The counts of decisions on a kind. -/
  | admissionCount (kind : DimensionKind)
  /-- How many decisions found the queue to the shared statistics full. -/
  | droppedCount
  | breakerState
  | resetBreaker
  | revocationCount
  | recoveryCount
  | resetRecoveryCount
  | resetCounters

/-- The answer to a call. -/
inductive Reply (α β : Type) where
  | limiter (r : Limiter.Reply α)
  | engine (r : Engine.Reply β)
  | blacklist (r : Blacklist.Reply)
  | admissionCount (c : AdmissionCount)
  | droppedCount (n : UInt64)
  | breakerState (b : Breaker)
  | revocationCount (c : RevocationCount)
  | recoveryCount (c : RecoveryCount)
  | done

/-- The dimension of a kind and a key, where there is only one of the global kind. -/
def dimension (kind : DimensionKind) (key : String) : Dimension :=
  match kind with
  | .global => .global
  | _ => ⟨kind, key⟩

/-- Changes the counters. -/
def recount (f : Counters → Counters) : Action Unit :=
  modify fun s => { s with counters := f s.counters }

section Calls

variable [Quantity α] [QuantityText α] (l : Layer α) (now : Instant)

/-- Makes a call of the limiter. -/
def limit (c : Limiter.Call α) : Action (Limiter.Reply α) :=
  limiting l.limiter.backlogCapacity (Limiter.perform l.limiter now c)

/-- Makes a call of the limiter, or lets the request in if the layer is switched off. -/
def limitIfEnabled (c : Limiter.Call α) : Action (Limiter.Reply α) :=
  if l.enabled then l.limit now c else pure (.decided true)

/-- Makes a call.  Delays before retries are spread by `samples`. -/
def perform (samples : Nat → α) : Call α β → Action (Reply α β)
  | .check kind key => return .limiter (← l.limitIfEnabled now (.check (dimension kind key)))
  | .checkAll ip user endpoint =>
    return .limiter (← l.limitIfEnabled now (.checkAll ip user endpoint))
  | .limiter c => return .limiter (← l.limit now c)
  | .engine c => return .engine (← guarding (l.engine.perform now samples c))
  | .blacklist c => return .blacklist (← revoking (l.blacklist.perform now c))
  | .admissionCount kind => return .admissionCount ((← get).counters.admission.get kind)
  | .droppedCount => return .droppedCount (← get).backlog.dropped
  | .breakerState => return .breakerState (← get).breaker
  | .resetBreaker => do
    modify fun s => { s with breaker := s.breaker.reset }
    pure .done
  | .revocationCount => return .revocationCount (← get).counters.revocation
  | .recoveryCount => return .recoveryCount (← get).counters.recovery
  | .resetRecoveryCount => do
    recount fun c => { c with recovery := .zero }
    pure .done
  | .resetCounters => do
    recount fun _ => .zero
    pure .done

/-- Makes a call so many times, with nothing else in between. -/
def performTimes (samples : Nat → α) (c : Call α β) : Nat → Action (List (Reply α β))
  | 0 => pure []
  | n + 1 => do
    let reply ← l.perform now samples c
    return reply :: (← performTimes samples c n)

/-- Writes what waits for the shared statistics. -/
def drain : Action Unit :=
  limiting l.limiter.backlogCapacity (Limiter.drain l.limiter.keyPrefix now)

end Calls

end Layer
end Bulwark
