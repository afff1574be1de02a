import Bulwark.Event
import Bulwark.Time.Instant

/-!
# The circuit breaker

Guards calls to the store.  After so many failures in a row the breaker trips, and callers go
without the store until a recovery timeout has passed.  Then one trial call is let through; while it
is out nobody else is, and its report closes the breaker or trips it again.  A trial that never
reports is replaced after another timeout.

The breaker reads clocks in nanoseconds since the Unix epoch, cut to 64 bits: moments before the
epoch read as zero.  A trial that starts at reading zero is noted as one, because zero stands for no
trial.  Each function takes the reading as an argument and keeps none.
-/

namespace Bulwark

/-- When a breaker trips, and for how long. -/
structure BreakerSettings where
  /-- Failures in a row that trip the breaker. -/
  failureThreshold : Nat
  /-- Seconds before a trial call, and before replacing one that has not reported. -/
  recoveryTimeoutSeconds : Nat
  deriving DecidableEq, Repr

namespace BreakerSettings

/-- Five failures, thirty seconds. -/
def standard : BreakerSettings := ⟨5, 30⟩

/-- The recovery timeout as a length of time. -/
def recoveryTimeout (s : BreakerSettings) : Duration := .ofSeconds s.recoveryTimeoutSeconds

end BreakerSettings

/-- Whether calls pass a breaker. -/
inductive BreakerPhase where
  /-- Calls pass. -/
  | closed
  /-- Calls are refused until the timeout has passed. -/
  | tripped
  /-- One trial call is out. -/
  | trial
  deriving DecidableEq, Repr, Inhabited

/-- The name of a phase. -/
def BreakerPhase.name : BreakerPhase → String
  | .closed => "closed"
  | .tripped => "open"
  | .trial => "half_open"

/-- The state of a breaker. -/
structure Breaker where
  phase : BreakerPhase
  /-- Failures since the last success or reset. -/
  failures : UInt64
  /-- The reading at the last failure. -/
  lastFailure : Nat
  /-- The reading at the start of the trial that is out, zero when none is. -/
  trialStart : Nat
  deriving DecidableEq, Repr

namespace Breaker

/-- A breaker that has seen nothing yet. -/
def fresh : Breaker := ⟨.closed, 0, 0, 0⟩

/-- What a breaker reads off a clock. -/
def reading (t : Instant) : Nat := min (UInt64.size - 1) t.nanos.toNat

variable (s : BreakerSettings)

/-- Whether less than the recovery timeout has passed since an earlier reading. -/
def isRecent (since now : Nat) : Bool := now - since < s.recoveryTimeout.nanos

/-- Takes the place of the trial call, unless one that started recently is out. -/
def startTrial (now : Nat) (b : Breaker) : Bool × Breaker :=
  let now := max now 1
  if b.trialStart ≠ 0 ∧ isRecent s b.trialStart now then (false, b)
  else (true, { b with trialStart := now })

/-- Whether a call may pass. -/
def allow (now : Nat) (b : Breaker) : Bool × Breaker :=
  match b.phase with
  | .closed => (true, b)
  | .trial => startTrial s now b
  | .tripped =>
    if isRecent s b.lastFailure now then (false, b)
    else match startTrial s now b with
      | (true, started) => (true, { started with phase := .trial })
      | (false, unchanged) => (false, unchanged)

/-- A call has succeeded.  The success of a trial closes the breaker. -/
def recordSuccess (b : Breaker) : Breaker :=
  { b with
    phase := if b.phase = .trial then .closed else b.phase
    failures := 0
    trialStart := 0 }

/-- Whether one more failure trips the breaker. -/
def tripsOnFailure (b : Breaker) : Bool :=
  b.phase == .trial
    || (b.phase == .closed && decide (s.failureThreshold ≤ (b.failures + 1).toNat))

/-- A call has failed.  The failure of a trial trips the breaker at once. -/
def recordFailure (now : Nat) (b : Breaker) : Breaker :=
  let trips := b.tripsOnFailure s
  { phase := if trips then .tripped else b.phase
    failures := b.failures + 1
    lastFailure := now
    trialStart := if trips then 0 else b.trialStart }

/-- Closes the breaker by hand. -/
def reset (b : Breaker) : Breaker := { b with phase := .closed, failures := 0, trialStart := 0 }

/-! ## What a breaker logs -/

/-- The log entries of a success reported to a breaker in this state. -/
def successLog (b : Breaker) : List LogEntry :=
  if b.phase = .trial then [.of .info "Store circuit closed after successful trial call" []] else []

/-- The log entries of a failure reported to a breaker in this state. -/
def failureLog (b : Breaker) : List LogEntry :=
  let failures := ("failures", Nat.repr (b.failures + 1).toNat)
  if ¬ b.tripsOnFailure s then []
  else if b.phase = .trial then
    [.of .warn "Store trial call failed, circuit reopened" [failures]]
  else
    [.of .warn "Store circuit opened"
      [failures, ("recovery_timeout_secs", Nat.repr s.recoveryTimeoutSeconds)]]

/-! ## Runs -/

/-- A call on a breaker. -/
inductive Call where
  | allow
  | success
  | failure
  | reset
  deriving DecidableEq, Repr

/-- The answer to a call, if it has one, and the state after it. -/
def perform (now : Nat) (b : Breaker) : Call → Option Bool × Breaker
  | .allow => let (allowed, after) := b.allow s now; (some allowed, after)
  | .success => (none, b.recordSuccess)
  | .failure => (none, b.recordFailure s now)
  | .reset => (none, b.reset)

end Breaker
end Bulwark
