import Bulwark.Json.Raw

/-!
# Records in JSON

How a record of known fields is read from a JSON text.  It may be an object: fields in any order,
unknown ones passed over, a known one at most once.  Or it may be an array of its fields in their
declared order; then there may be none too many, and missing ones at the end count as absent.
Whether an absent field has a default is decided per field.
-/

namespace Bulwark.Json

/-- A reader of one field. -/
abbrev Decoder (α : Type) := Raw → Option α

namespace Decoder

/-- A truth value. -/
def bool : Decoder Bool
  | .bool b => some b
  | _ => none

/-- A string. -/
def string : Decoder String
  | .string content => content
  | _ => none

/-- A whole number from `0` to `limit`. -/
def natUpTo (limit : Nat) : Decoder Nat
  | .number n => match n.value? with
    | some (.int k) => if 0 ≤ k ∧ k ≤ limit then some k.toNat else none
    | _ => none
  | _ => none

/-- A double; whole numbers count. -/
def float : Decoder Float
  | .number n => match n.value? with
    | some (.int k) => some (Binary64.ofDecimal (k < 0) k.natAbs 0)
    | some (.float x) => some x
    | none => none
  | _ => none

/-- One of finitely many names, as a string, or as the one key of an object with the value null. -/
def name {α : Type} (ofName? : String → Option α) : Decoder α
  | .string content => content.bind ofName?
  | .object [(some key, .null)] => ofName? key
  | _ => none

end Decoder

/-- The values of one field in an object. -/
def occurrences (key : String) (fields : List (Option String × Raw)) : List Raw :=
  fields.filterMap fun (k, v) => if k = some key then some v else none

/-- The one value of a field in an object, or none.  Refuses a repeated field. -/
def fieldOf? (fields : List (Option String × Raw)) (key : String) : Option (Option Raw) :=
  match occurrences key fields with
  | [] => some none
  | [v] => some (some v)
  | _ => none

/-- The fields of a record in declared order, absent ones as `none`. -/
def recordFields? (names : List String) : Raw → Option (List (Option Raw))
  | .object fields =>
    if fields.all (·.1.isSome) then names.mapM (fieldOf? fields) else none
  | .array items =>
    if items.length ≤ names.length then
      some (items.map some ++ List.replicate (names.length - items.length) none)
    else none
  | _ => none

/-- A field that must be there. -/
def required {α : Type} (decode : Decoder α) (field : Option Raw) : Option α := field.bind decode

/-- A field with a default. -/
def withDefault {α : Type} (default : α) (decode : Decoder α) (field : Option Raw) : Option α :=
  match field with
  | none => some default
  | some r => decode r

end Bulwark.Json
