import Bulwark.Breaker
import Bulwark.Dimension

/-!
# Settings of admission control

Where buckets are kept, how large they are, when the breaker in front of the store trips, and how
many decisions may wait for the shared statistics.
-/

namespace Bulwark

/-- The settings of a limiter. -/
structure LimiterSettings (α : Type) where
  /-- What the keys of buckets and of shared statistics start with. -/
  keyPrefix : String
  allowances : PerKind (Allowance α)
  breaker : BreakerSettings
  /-- Decisions waiting for the shared statistics; further ones are dropped. -/
  backlogCapacity : Nat
  deriving DecidableEq, Repr

namespace LimiterSettings

variable {α : Type} [Quantity α]

open Quantity

/-- The settings that nobody has changed. -/
def standard : LimiterSettings α where
  keyPrefix := "rate_limit:"
  allowances := {
    global := .of (ofNat 10000) (ofNat 10000) (ofNat 60)
    ip := .of (ofNat 100) (ofNat 100) (ofNat 60)
    user := .of (ofNat 1000) (ofNat 1000) (ofNat 60)
    endpoint := .of (ofNat 500) (ofNat 500) (ofNat 60) }
  breaker := .standard
  backlogCapacity := 1024

end LimiterSettings

/-- The store key of the shared statistics of a kind. -/
def statisticsKey (keyPrefix : String) (kind : DimensionKind) : String :=
  keyPrefix ++ "stats:" ++ kind.name

end Bulwark
