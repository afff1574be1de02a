import Bulwark.Configuration
import Bulwark.Toml.Document

/-!
# Configuration documents

A configuration is written in TOML.  Every table may be left out, and so may every key; unknown keys
are passed over, but not in the tables of retry profiles.  A table can also be written as an array
of its values in their declared order, and a date in the place of a table counts as a table of which
no key is known.
-/

namespace Bulwark

namespace Toml

/-- A reader of one value. -/
abbrev Decoder (α : Type) := Node → Option α

namespace Decoder

/-- A truth value. -/
def bool : Decoder Bool
  | .bool b => some b
  | _ => none

/-- A string. -/
def string : Decoder String
  | .string s => some s
  | _ => none

/-- A whole number from `0` to `limit`. -/
def natUpTo (limit : Nat) : Decoder Nat
  | .int n => if 0 ≤ n ∧ n ≤ limit then some n.toNat else none
  | _ => none

/-- A double; whole numbers count. -/
def float : Decoder Float
  | .float x => some x
  | .int n => some (Binary64.ofDecimal (n < 0) n.natAbs 0)
  | _ => none

/-- Whether a value is an empty array or table. -/
def isEmpty : Node → Bool
  | .array items => items.isEmpty
  | .table _ fields => fields.isEmpty
  | .tables items => items.isEmpty
  | _ => false

/-- One of finitely many names, as a string, or as the one key of a table with nothing in it. -/
def name {α : Type} (ofName? : String → Option α) : Decoder α
  | .string s => ofName? s
  | .table _ [(key, v)] => if isEmpty v then ofName? key else none
  | _ => none

/-- The items of an array. -/
def list {α : Type} (item : Decoder α) : Decoder (List α)
  | .array items => items.mapM item
  | .tables items => (items.map (Node.table .header)).mapM item
  | _ => none

end Decoder

/-- The fields of a table in declared order, absent ones as `none`.  A table that is `strict` has no
other keys. -/
def recordFields? (strict : Bool) (names : List String) : Node → Option (List (Option Node))
  | .table _ fields =>
    if strict ∧ fields.any (fun e => !names.contains e.1) then none
    else some (names.map (Fields.get? fields))
  | .datetime => if strict then none else some (names.map fun _ => none)
  | .array items =>
    some ((items.take names.length).map some ++ List.replicate (names.length - items.length) none)
  | .tables items =>
    let items := items.map (Node.table .header)
    some ((items.take names.length).map some ++ List.replicate (names.length - items.length) none)
  | _ => none

/-- A field with a default. -/
def withDefault {α : Type} (default : α) (decode : Decoder α) (field : Option Node) : Option α :=
  match field with
  | none => some default
  | some v => decode v

/-- A field that may be absent. -/
def optional {α : Type} (decode : Decoder α) : Option Node → Option (Option α) :=
  withDefault none fun v => (decode v).map some

end Toml

namespace Configuration

open Toml

/-- The largest whole number of 32 bits. -/
def maxWord : Nat := UInt32.size - 1

/-- The parameters of one kind of bucket. -/
def decodeAllowance : Decoder (Allowance Float) := fun v => do
  let base : Allowance Float := .standard
  match ← recordFields? false
      ["enabled", "capacity", "requests_per_interval", "interval_seconds"] v with
  | [enabled, capacity, rate, interval] =>
    some {
      enabled := ← withDefault base.enabled Decoder.bool enabled
      capacity := ← withDefault base.capacity Decoder.float capacity
      rate := ← withDefault base.rate Decoder.float rate
      interval := ← withDefault base.interval Decoder.float interval }
  | _ => none

/-- The settings of the breaker. -/
def decodeBreaker : Decoder BreakerSettings := fun v => do
  let base := BreakerSettings.standard
  match ← recordFields? false ["failure_threshold", "recovery_timeout_secs"] v with
  | [threshold, timeout] =>
    some {
      failureThreshold := ← withDefault base.failureThreshold (Decoder.natUpTo maxWord) threshold
      recoveryTimeoutSeconds :=
        ← withDefault base.recoveryTimeoutSeconds (Decoder.natUpTo Text.maxUnsigned) timeout }
  | _ => none

/-- The settings of admission control. -/
def decodeLimiter : Decoder (LimiterSettings Float) := fun v => do
  let base : LimiterSettings Float := .standard
  match ← recordFields? false
      ["key_prefix", "global", "ip", "user", "endpoint", "breaker", "stats_mirror_capacity"] v with
  | [keyPrefix, global, ip, user, endpoint, breaker, capacity] =>
    some {
      keyPrefix := ← withDefault base.keyPrefix Decoder.string keyPrefix
      allowances := {
        global := ← withDefault base.allowances.global decodeAllowance global
        ip := ← withDefault base.allowances.ip decodeAllowance ip
        user := ← withDefault base.allowances.user decodeAllowance user
        endpoint := ← withDefault base.allowances.endpoint decodeAllowance endpoint }
      breaker := ← withDefault base.breaker decodeBreaker breaker
      backlogCapacity :=
        ← withDefault base.backlogCapacity (Decoder.natUpTo Text.maxUnsigned) capacity }
  | _ => none

/-- The changes to the policy of one profile. -/
def decodeOverrides : Decoder (RetryOverrides Float) := fun v => do
  match ← recordFields? true
      ["max_attempts", "initial_delay_ms", "max_delay_ms", "jitter_fraction", "pre_delay_ms",
        "retry_on"] v with
  | [attempts, initial, max, jitter, pre, classes] =>
    some {
      maxAttempts := ← optional (Decoder.natUpTo maxWord) attempts
      initialDelayMs := ← optional (Decoder.natUpTo Text.maxUnsigned) initial
      maxDelayMs := ← optional (Decoder.natUpTo Text.maxUnsigned) max
      jitterFraction := ← optional Decoder.float jitter
      preDelayMs := ← optional (Decoder.natUpTo Text.maxUnsigned) pre
      retryOn := ← optional (Decoder.list (Decoder.name FaultClass.ofName?)) classes }
  | _ => none

/-- The changes to the policies. -/
def decodeRetry : Decoder (RetrySettings Float) := fun v => do
  match ← recordFields? false ["generic", "backpressure", "streaming"] v with
  | [generic, backpressure, streaming] =>
    some {
      generic := ← withDefault .none decodeOverrides generic
      backpressure := ← withDefault .none decodeOverrides backpressure
      streaming := ← withDefault .none decodeOverrides streaming }
  | _ => none

/-- The settings of the blacklist: its prefix and the failure mode. -/
def decodeRevocation : Decoder (String × Option FailureMode) := fun v => do
  let base : Configuration Float := .standard
  match ← recordFields? false ["key_prefix", "failure_mode"] v with
  | [keyPrefix, mode] =>
    some (← withDefault base.blacklistPrefix Decoder.string keyPrefix,
      ← optional (Decoder.name FailureMode.ofName?) mode)
  | _ => none

/-- A whole configuration. -/
def decode : Decoder (Configuration Float) := fun v => do
  let base : Configuration Float := .standard
  match ← recordFields? false ["enabled", "rate_limit", "retry", "revocation"] v with
  | [enabled, limiter, retry, revocation] =>
    let (blacklistPrefix, failureMode) ←
      withDefault (base.blacklistPrefix, base.failureMode) decodeRevocation revocation
    some {
      enabled := ← withDefault base.enabled Decoder.bool enabled
      limiter := ← withDefault base.limiter decodeLimiter limiter
      retry := ← withDefault base.retry decodeRetry retry
      blacklistPrefix, failureMode }
  | _ => none

/-- Why a document is no configuration. -/
inductive DocumentError where
  /-- It is no TOML, or says something that the configuration has no place for. -/
  | unreadable
  /-- A retry policy makes no sense. -/
  | retry (e : RetrySettingsError Float)

/-- The configuration in a document. -/
def ofDocument (s : String) : Except DocumentError (Configuration Float) :=
  match (parse? s).bind fun fields => decode (.table .header fields) with
  | none => .error .unreadable
  | some configuration =>
    match configuration.retry.policies with
    | .error e => .error (.retry e)
    | .ok _ => .ok configuration

end Configuration
end Bulwark
