import Bulwark.Table

/-!
# TOML tables

A document is a tree of tables.  A table may be written in several places only in certain ways, and
what is allowed depends on how the table came about: by a header of its own, as part of a longer
header, by a dotted key, or as an inline table, which is closed.  `Fields.descend` walks a path and
makes the tables that are missing; `Fields.set`, `Layout.openTable` and `Layout.openItem` are the
three ways of writing, and each refuses what would define a thing twice.
-/

namespace Bulwark.Toml

/-- How a table came about. -/
inductive Origin where
  /-- By a header of its own; the document itself counts as such. -/
  | header
  /-- As part of a longer header. -/
  | implied
  /-- By a dotted key. -/
  | dotted
  /-- As an inline table. -/
  | closed
  deriving DecidableEq, Repr

/-- Whether a table has been mentioned only. -/
def Origin.isImplicit (o : Origin) : Bool := o == .implied || o == .dotted

/-- A value of a document. -/
inductive Node where
  | string (s : String)
  | int (n : Int)
  | float (x : Float)
  | bool (b : Bool)
  | datetime
  | array (items : List Node)
  | table (origin : Origin) (fields : List (String × Node))
  /-- An array of tables written by headers; the last one is open. -/
  | tables (items : List (List (String × Node)))
  deriving Inhabited

/-- The fields of a table. -/
abbrev Fields := List (String × Node)

namespace Fields

/-- The value of a key. -/
def get? (fields : Fields) (key : String) : Option Node := valueAt? key fields

/-- Replaces the value of a key, or adds the key at the end. -/
def put (fields : Fields) (key : String) (v : Node) : Fields := putEntry key v fields

/-- Changes the table at the end of a path.  Missing tables on the way are made, `dotted` or
implied by a header.  A value cannot be walked through, and a dotted key cannot go through a table
that has a header. -/
def descend (dotted : Bool) (change : Origin → Fields → Option Fields) :
    List String → Origin → Fields → Option Fields
  | [], origin, fields => change origin fields
  | key :: rest, _, fields =>
    match get? fields key with
    | none => do
      let made : Origin := if dotted then .dotted else .implied
      let sub ← descend dotted change rest made []
      some (put fields key (.table made sub))
    | some (.table origin sub) =>
      if origin == .closed || (dotted && !origin.isImplicit) then none
      else do
        let sub ← descend dotted change rest origin sub
        some (put fields key (.table origin sub))
    | some (.tables items) =>
      match items.getLast? with
      | none => none
      | some last => do
        let sub ← descend dotted change rest .header last
        some (put fields key (.tables (items.dropLast ++ [sub])))
    | some _ => none

/-- Sets a key in the table that the dotted part of the key names.  A dotted key needs a table made
by dotted keys, and no key is set twice. -/
def set (fields : Fields) (path : List String) (key : String) (v : Node) : Option Fields :=
  descend true (fun origin sub =>
    if (origin == .dotted) == path.isEmpty || (get? sub key).isSome then none
    else some (sub ++ [(key, v)])) path .header fields

/-- The fields of an inline table from its keys in order. -/
def ofPairs (pairs : List (List String × String × Node)) : Option Fields :=
  pairs.foldlM (fun fields (path, key, v) => set fields path key v) []

end Fields

/-- A document that is being written: the tables that are finished, and the one that is open. -/
structure Layout where
  root : Fields
  current : Fields
  /-- The header of the open table, and whether it is an item of an array of tables.  The document
  itself has none. -/
  header : Option (List String × String × Bool)

namespace Layout

/-- The start of a document. -/
def start : Layout := ⟨[], [], none⟩

/-- Finishes the open table. -/
def close (l : Layout) : Option Fields :=
  match l.header with
  | none => some l.current
  | some (path, key, false) =>
    Fields.descend false (fun _ fields =>
      if (Fields.get? fields key).isSome then none
      else some (fields ++ [(key, .table .header l.current)])) path .header l.root
  | some (path, key, true) =>
    Fields.descend false (fun _ fields =>
      match Fields.get? fields key with
      | none => some (fields ++ [(key, .tables [l.current])])
      | some (.tables items) => some (Fields.put fields key (.tables (items ++ [l.current])))
      | some _ => none) path .header l.root

/-- The fields of a table that a header opens: none, or those of a table that longer headers have
mentioned. -/
def opened? (root : Fields) (path : List String) (key : String) : Option Fields :=
  let rec find : List String → Fields → Option Fields
    | [], fields =>
      match Fields.get? fields key with
      | none => some []
      | some (.table .implied sub) => some sub
      | some _ => none
    | k :: rest, fields =>
      match Fields.get? fields k with
      | none => some []
      | some (.table _ sub) => find rest sub
      | some (.tables items) => find rest (items.getLastD [])
      | some _ => none
  find path root

/-- Opens the table of a header. -/
def openTable (l : Layout) (path : List String) (key : String) : Option Layout := do
  let root ← l.close
  let current ← opened? root path key
  let others (_ : Origin) (fields : Fields) := some (fields.filter (·.1 != key))
  let root ← Fields.descend false others path .header root
  some ⟨root, current, some (path, key, false)⟩

/-- Opens a new item of an array of tables. -/
def openItem (l : Layout) (path : List String) (key : String) : Option Layout := do
  let root ← l.close
  let root ← Fields.descend false (fun _ fields =>
    match Fields.get? fields key with
    | none => some fields
    | some (.tables _) => some fields
    | some _ => none) path .header root
  some ⟨root, [], some (path, key, true)⟩

/-- Sets a key in the open table. -/
def set (l : Layout) (path : List String) (key : String) (v : Node) : Option Layout := do
  some { l with current := ← Fields.set l.current path key v }

end Layout
end Bulwark.Toml
