import Bulwark.Breaker
import Bulwark.Bucket
import Bulwark.Dimension
import Bulwark.Json.Decode

/-!
# Settings and buckets in JSON

The records that other programs hand over as JSON text beside blacklist entries and degraded
responses: the parameters of buckets, the settings of a breaker, and the state of a bucket.
Settings have a default for every field, a bucket has none for any.
-/

namespace Bulwark

/-- The parameters of buckets in a JSON text. -/
def Allowance.decode : Json.Decoder (Allowance Float) := fun r => do
  let base : Allowance Float := .standard
  match ← Json.recordFields?
      ["enabled", "capacity", "requests_per_interval", "interval_seconds"] r with
  | [enabled, capacity, rate, interval] =>
    some {
      enabled := ← Json.withDefault base.enabled Json.Decoder.bool enabled
      capacity := ← Json.withDefault base.capacity Json.Decoder.float capacity
      rate := ← Json.withDefault base.rate Json.Decoder.float rate
      interval := ← Json.withDefault base.interval Json.Decoder.float interval }
  | _ => none

/-- The settings of a breaker in a JSON text. -/
def BreakerSettings.decode : Json.Decoder BreakerSettings := fun r => do
  let base := BreakerSettings.standard
  match ← Json.recordFields? ["failure_threshold", "recovery_timeout_secs"] r with
  | [threshold, timeout] =>
    some {
      failureThreshold :=
        ← Json.withDefault base.failureThreshold (Json.Decoder.natUpTo (UInt32.size - 1)) threshold
      recoveryTimeoutSeconds :=
        ← Json.withDefault base.recoveryTimeoutSeconds (Json.Decoder.natUpTo Text.maxUnsigned)
          timeout }
  | _ => none

/-- The state of a bucket in a JSON text. -/
def Bucket.decode : Json.Decoder (Bucket Float) := fun r => do
  match ← Json.recordFields? [tokensField, lastRefillField] r with
  | [tokens, lastRefill] =>
    some {
      tokens := ← Json.required Json.Decoder.float tokens
      lastRefill := ← Json.required Json.Decoder.float lastRefill }
  | _ => none

end Bulwark
