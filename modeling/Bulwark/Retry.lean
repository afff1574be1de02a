import Bulwark.Fault
import Bulwark.Quantity

/-!
# Retry policies

How often a failed operation is tried again, and after what delay.  The delay before a retry doubles
from retry to retry up to a maximum, and is spread by a random sample around that value.  There are
three profiles, each with a policy of its own, and a policy is checked when it is made: there is at
least one attempt, the jitter is a fraction between zero and one, and the initial delay does not
exceed the maximum.
-/

namespace Bulwark

/-- Which policy governs an operation. -/
inductive RetryProfile where
  /-- Retries transient failures. -/
  | generic
  /-- Waits before the first attempt, and retries overload only. -/
  | backpressure
  /-- Subscribes again after stream faults. -/
  | streaming
  deriving DecidableEq, Repr, Inhabited

namespace RetryProfile

/-- Every profile, in the order in which they are checked. -/
def all : List RetryProfile := [.generic, .backpressure, .streaming]

/-- The name in configuration and messages. -/
def name : RetryProfile → String
  | .generic => "generic"
  | .backpressure => "backpressure"
  | .streaming => "streaming"

/-- The profile of a name. -/
def ofName? (s : String) : Option RetryProfile := all.find? (·.name == s)

end RetryProfile

/-- The parameters of one profile. -/
structure RetryPolicy (α : Type) where
  /-- Attempts, the first included. -/
  maxAttempts : Nat
  /-- The delay before the first retry. -/
  initialDelay : Duration
  /-- The longest delay, before it is spread. -/
  maxDelay : Duration
  /-- How far a delay is spread, as a fraction of it. -/
  jitterFraction : α
  /-- The delay before the first attempt. -/
  preDelay : Duration
  /-- The classes of faults that are retried. -/
  retryable : List FaultClass
  deriving DecidableEq, Repr

/-- Why a policy makes no sense. -/
inductive RetryPolicyError (α : Type) where
  | zeroAttempts
  | jitterOutOfRange (jitter : α)
  | delayOrder (initial max : Duration)
  deriving DecidableEq, Repr

/-- The text of an error. -/
def RetryPolicyError.message {α : Type} [QuantityText α] : RetryPolicyError α → String
  | .zeroAttempts => "max_attempts must be greater than 0"
  | .jitterOutOfRange jitter =>
    "jitter_fraction must be within [0, 1], got " ++ QuantityText.render jitter
  | .delayOrder initial max =>
    "initial_delay " ++ initial.render ++ " exceeds max_delay " ++ max.render

namespace RetryPolicy

variable {α : Type} [Quantity α]

open Quantity

/-- A policy from its parameters.  Terminal classes are left out of the ones to retry. -/
def make (maxAttempts : Nat) (initialDelay maxDelay : Duration) (jitterFraction : α)
    (retryable : List FaultClass) : Except (RetryPolicyError α) (RetryPolicy α) :=
  if maxAttempts = 0 then .error .zeroAttempts
  else if ¬ (zero ≤ jitterFraction ∧ jitterFraction ≤ one) then
    .error (.jitterOutOfRange jitterFraction)
  else if maxDelay.nanos < initialDelay.nanos then .error (.delayOrder initialDelay maxDelay)
  else .ok {
    maxAttempts, initialDelay, maxDelay, jitterFraction
    preDelay := .zero
    retryable := retryable.filter (!·.isTerminal) }

/-- Three attempts, 100 ms doubling to 2 s, spread by half. -/
def generic : RetryPolicy α where
  maxAttempts := 3
  initialDelay := .ofMillis 100
  maxDelay := .ofSeconds 2
  jitterFraction := one / ofNat 2
  preDelay := .zero
  retryable := [.transient, .storeUnavailable]

/-- Five attempts after a wait of 100 ms, 200 ms doubling to 5 s, spread by a quarter. -/
def backpressure : RetryPolicy α where
  maxAttempts := 5
  initialDelay := .ofMillis 200
  maxDelay := .ofSeconds 5
  jitterFraction := one / ofNat 4
  preDelay := .ofMillis 100
  retryable := [.backpressure]

/-- Three attempts, 500 ms doubling to 10 s, spread by a fifth. -/
def streaming : RetryPolicy α where
  maxAttempts := 3
  initialDelay := .ofMillis 500
  maxDelay := .ofSeconds 10
  jitterFraction := one / ofNat 5
  preDelay := .zero
  retryable := [.streaming]

/-- The policy of a profile that nobody has configured. -/
def standard : RetryProfile → RetryPolicy α
  | .generic => generic
  | .backpressure => backpressure
  | .streaming => streaming

/-- Whether faults of a class are retried. -/
def isRetryable (p : RetryPolicy α) (c : FaultClass) : Bool := p.retryable.contains c

/-- The largest factor by which an initial delay is multiplied. -/
def maxFactor : Nat := UInt32.size - 1

/-- The delay before retry `n`, counted from zero, before it is spread.  Factors from `2^32` on are
cut to `maxFactor`, and a product too long to be held is the maximum. -/
def baseDelay (p : RetryPolicy α) (n : Nat) : Duration :=
  let factor := if n < 32 then Nat.pow 2 n else maxFactor
  ((p.initialDelay.mul? factor).getD p.maxDelay).shorter p.maxDelay

/-- The delay before retry `n`, spread by a sample between minus one and one; a sample outside
counts as the nearer end.  There is none if the delay is too long to be held. -/
def jitteredDelay? (p : RetryPolicy α) (n : Nat) (sample : α) : Option Duration :=
  let unit := clamp (zero - one) one sample
  toDuration? (maximum (ofDuration (p.baseDelay n) * (one + unit * p.jitterFraction)) zero)

end RetryPolicy

/-- One policy per profile. -/
structure RetryPolicies (α : Type) where
  generic : RetryPolicy α
  backpressure : RetryPolicy α
  streaming : RetryPolicy α
  deriving DecidableEq, Repr

/-- The policy of a profile. -/
def RetryPolicies.of {α : Type} (ps : RetryPolicies α) : RetryProfile → RetryPolicy α
  | .generic => ps.generic
  | .backpressure => ps.backpressure
  | .streaming => ps.streaming

end Bulwark
