import Bulwark.Fault
import Bulwark.Revocation.Entry

/-!
# Degraded responses

What an operation answers when it has failed for good and may not fail hard.  The shape of the
payload follows a category that the caller names; the operation's name is only reported.
-/

namespace Bulwark

/-- The shape of a degraded payload. -/
inductive DegradationCategory where
  /-- A list of users, empty. -/
  | user
  /-- A result set, empty and not cached. -/
  | data
  /-- A failed authentication, to be tried later. -/
  | auth
  /-- A notice only. -/
  | generic
  deriving DecidableEq, Repr, Inhabited

namespace DegradationCategory

/-- Every category. -/
def all : List DegradationCategory := [.user, .data, .auth, .generic]

/-- The name of a category. -/
def name : DegradationCategory → String
  | .user => "user"
  | .data => "data"
  | .auth => "auth"
  | .generic => "generic"

/-- The category of a name. -/
def ofName? (s : String) : Option DegradationCategory := all.find? (·.name == s)

/-- The payload of a category. -/
def payload : DegradationCategory → Json
  | .user => .object [("users", .array []), ("total", .nat 0),
      ("message", .string "User service temporarily unavailable, showing no users")]
  | .data => .object [("data", .array []), ("cached", .bool false),
      ("message", .string "Data service temporarily unavailable, returning empty result")]
  | .auth => .object [("authenticated", .bool false), ("retry_later", .bool true),
      ("message", .string "Authentication service temporarily unavailable")]
  | .generic => .object [("message", .string "Service temporarily unavailable, please retry later")]

end DegradationCategory

/-- The answer that stands in for a failed operation's. -/
structure DegradedResponse where
  status : String
  category : DegradationCategory
  /-- The name of the operation that failed. -/
  operation : String
  /-- The text of the fault. -/
  error : String
  degradedAt : Timestamp
  payload : Json

namespace DegradedResponse

/-- The status of every degraded response made here. -/
def degradedStatus : String := "DEGRADED"

/-- The response of a category to a fault. -/
def make (operation : String) (category : DegradationCategory) (error : String)
    (degradedAt : Timestamp) : DegradedResponse :=
  ⟨degradedStatus, category, operation, error, degradedAt, category.payload⟩

/-- Whether the status says so. -/
def isDegraded (r : DegradedResponse) : Bool := r.status == degradedStatus

/-- The response as a JSON value. -/
def toJson (r : DegradedResponse) : Json :=
  .object [("status", .string r.status), ("category", .string r.category.name),
    ("operation", .string r.operation), ("error", .string r.error),
    ("degraded_at", .string r.degradedAt.render), ("payload", r.payload)]

/-- A response in a JSON text.  The payload lies one level deep, so it may nest one level less. -/
def decode : Json.Decoder DegradedResponse := fun r => do
  match ← Json.recordFields?
      ["status", "category", "operation", "error", "degraded_at", "payload"] r with
  | [status, category, operation, error, degradedAt, payload] =>
    some {
      status := ← Json.required Json.Decoder.string status
      category := ← Json.required (Json.Decoder.name DegradationCategory.ofName?) category
      operation := ← Json.required Json.Decoder.string operation
      error := ← Json.required Json.Decoder.string error
      degradedAt := ← Json.required BlacklistEntry.decodeTimestamp degradedAt
      payload := ← Json.required (Json.Raw.value? (Json.Raw.maxDepth - 1)) payload }
  | _ => none

end DegradedResponse
end Bulwark
