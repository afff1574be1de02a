import Bulwark.Json.Decode
import Bulwark.Time.Rfc3339

/-!
# Blacklist entries

The record that a store keeps for a revoked token: why it was revoked, when, and for how long.  The
entry itself says when it lapses, beside the expiry that the store gives its key, and it is kept as
JSON text.
-/

namespace Bulwark

/-- How a lookup answers when the store cannot. -/
inductive FailureMode where
  /-- The token counts as not revoked. -/
  | failSafe
  /-- The token counts as revoked. -/
  | failClosed
  deriving DecidableEq, Repr, Inhabited

namespace FailureMode

/-- The name in configuration. -/
def name : FailureMode → String
  | .failSafe => "fail_safe"
  | .failClosed => "fail_closed"

/-- The name in log fields. -/
def logName : FailureMode → String
  | .failSafe => "FailSafe"
  | .failClosed => "FailClosed"

/-- The mode of a name. -/
def ofName? (s : String) : Option FailureMode := [.failSafe, .failClosed].find? (·.name == s)

/-- The answer to a lookup that failed. -/
def revokedOnError (m : FailureMode) : Bool := m == .failClosed

end FailureMode

/-- The record of a revoked token. -/
structure BlacklistEntry where
  reason : String
  insertedAt : Timestamp
  /-- The lifetime granted at insertion. -/
  ttlSeconds : Nat
  deriving DecidableEq, Repr

namespace BlacklistEntry

/-- The step from the insertion to the end of the lifetime: the longest step, if a lifetime does not
fit into 64 bits with a sign or is too long for a step between two dates. -/
def lifetime (e : BlacklistEntry) : Duration :=
  let step := if Text.fitsSigned e.ttlSeconds then Timestamp.stepOfSeconds? e.ttlSeconds else none
  step.getD Timestamp.longestStep

/-- When the entry lapses: the end of its lifetime, or the end of the calendar. -/
def expiresAt (e : BlacklistEntry) : Timestamp :=
  (e.insertedAt.later? e.lifetime).getD .latest

/-- Whether the entry has lapsed. -/
def isExpiredAt (e : BlacklistEntry) (now : Timestamp) : Bool := e.expiresAt ≤ now

/-- The entry as a JSON value. -/
def toJson (e : BlacklistEntry) : Json :=
  .object [("reason", .string e.reason), ("inserted_at", .string e.insertedAt.render),
    ("ttl_seconds", .nat e.ttlSeconds)]

/-- The text that a store keeps. -/
def render (e : BlacklistEntry) : String := e.toJson.render

/-- A timestamp in a JSON text. -/
def decodeTimestamp : Json.Decoder Timestamp :=
  fun r => (Json.Decoder.string r).bind Timestamp.read?

/-- An entry in a JSON text. -/
def decode : Json.Decoder BlacklistEntry := fun r => do
  match ← Json.recordFields? ["reason", "inserted_at", "ttl_seconds"] r with
  | [reason, insertedAt, ttl] =>
    some {
      reason := ← Json.required Json.Decoder.string reason
      insertedAt := ← Json.required decodeTimestamp insertedAt
      ttlSeconds := ← Json.required (Json.Decoder.natUpTo Text.maxUnsigned) ttl }
  | _ => none

/-- The entry that a store's text stands for. -/
def read? (s : String) : Option BlacklistEntry := do decode (← Json.Raw.parse? s)

end BlacklistEntry
end Bulwark
