import Bulwark.Limiter.Settings
import Bulwark.Retry
import Bulwark.Revocation.Entry

/-!
# Configuration

What a deployment chooses: the settings of admission control, changes to the retry policies, where
the blacklist is kept, and how its lookups answer without the store.  That last choice has no
default and has to be made.  The retry policies are checked; the parameters of buckets are not,
since a limiter lets requests in when they are useless.
-/

namespace Bulwark

/-- Changes to the policy of one profile. -/
structure RetryOverrides (α : Type) where
  maxAttempts : Option Nat
  initialDelayMs : Option Nat
  maxDelayMs : Option Nat
  jitterFraction : Option α
  preDelayMs : Option Nat
  retryOn : Option (List FaultClass)
  deriving DecidableEq, Repr, Inhabited

/-- A policy that makes no sense, and its profile. -/
structure RetrySettingsError (α : Type) where
  profile : RetryProfile
  cause : RetryPolicyError α
  deriving DecidableEq, Repr

/-- The text of an error. -/
def RetrySettingsError.message {α : Type} [QuantityText α] (e : RetrySettingsError α) : String :=
  "retry profile '" ++ e.profile.name ++ "': " ++ e.cause.message

namespace RetryOverrides

variable {α : Type}

/-- No change. -/
def none : RetryOverrides α := ⟨.none, .none, .none, .none, .none, .none⟩

/-- The policy of a profile with the changes made. -/
def resolve [Quantity α] (o : RetryOverrides α) (profile : RetryProfile) :
    Except (RetrySettingsError α) (RetryPolicy α) :=
  let base : RetryPolicy α := .standard profile
  let delay (ms : Option Nat) (d : Duration) : Duration := (ms.map Duration.ofMillis).getD d
  match RetryPolicy.make (o.maxAttempts.getD base.maxAttempts)
      (delay o.initialDelayMs base.initialDelay) (delay o.maxDelayMs base.maxDelay)
      (o.jitterFraction.getD base.jitterFraction) (o.retryOn.getD base.retryable) with
  | .ok policy => .ok { policy with preDelay := delay o.preDelayMs base.preDelay }
  | .error cause => .error ⟨profile, cause⟩

end RetryOverrides

/-- Changes to the policies. -/
structure RetrySettings (α : Type) where
  generic : RetryOverrides α
  backpressure : RetryOverrides α
  streaming : RetryOverrides α
  deriving DecidableEq, Repr

namespace RetrySettings

variable {α : Type}

/-- No change. -/
def none : RetrySettings α := ⟨.none, .none, .none⟩

/-- Replaces the changes to one policy. -/
def set (s : RetrySettings α) (profile : RetryProfile) (o : RetryOverrides α) : RetrySettings α :=
  match profile with
  | .generic => { s with generic := o }
  | .backpressure => { s with backpressure := o }
  | .streaming => { s with streaming := o }

/-- The three policies, or the first that makes no sense. -/
def policies [Quantity α] (s : RetrySettings α) :
    Except (RetrySettingsError α) (RetryPolicies α) := do
  let generic ← s.generic.resolve .generic
  let backpressure ← s.backpressure.resolve .backpressure
  let streaming ← s.streaming.resolve .streaming
  .ok ⟨generic, backpressure, streaming⟩

end RetrySettings

/-- What a deployment chooses. -/
structure Configuration (α : Type) where
  /-- Whether admission is limited and anything is retried.  The blacklist always works. -/
  enabled : Bool
  limiter : LimiterSettings α
  retry : RetrySettings α
  blacklistPrefix : String
  failureMode : Option FailureMode
  deriving DecidableEq, Repr

/-- What a deployment has that chooses nothing. -/
def Configuration.standard {α : Type} [Quantity α] : Configuration α where
  enabled := true
  limiter := .standard
  retry := .none
  blacklistPrefix := "auth:blacklist:"
  failureMode := none

end Bulwark
