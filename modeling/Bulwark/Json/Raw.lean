import Bulwark.Json.Numeral
import Bulwark.Json.Value

/-!
# Reading JSON text

Reading has two steps.  `Raw.parse?` checks the grammar and gives a tree in which nothing is
decided yet: numbers are spellings, repeated keys are all there, and a string with half of a
surrogate pair is a string without content.  What a value may hold is decided when it is used, so a
part that nobody looks at has to follow the grammar only.  `Raw.value?` turns a tree into a `Json`
value; there every number must have a value, every string content, and arrays and objects may nest
only so deep.
-/

namespace Bulwark.Json

/-- A JSON text that follows the grammar. -/
inductive Raw where
  | null
  | bool (b : Bool)
  | number (n : Numeral)
  /-- A string, without content if its escapes do not form characters. -/
  | string (content : Option String)
  | array (items : List Raw)
  | object (fields : List (Option String × Raw))
  deriving Inhabited

/-! ## Strings -/

/-- A piece of a string: a character, or a 16-bit unit written as an escape. -/
inductive Piece where
  | char (c : Char)
  | unit (n : Nat)
  deriving DecidableEq, Repr

/-- The value of a hexadecimal digit. -/
def hexValue? (c : Char) : Option Nat :=
  if c.isDigit then some (c.toNat - 48)
  else if 'a' ≤ c ∧ c ≤ 'f' then some (c.toNat - 87)
  else if 'A' ≤ c ∧ c ≤ 'F' then some (c.toNat - 55)
  else none

/-- The value of four hexadecimal digits. -/
def hexUnit? (a b c d : Char) : Option Nat := do
  some ((← hexValue? a) * 4096 + (← hexValue? b) * 256 + (← hexValue? c) * 16 + (← hexValue? d))

/-- The character of an escape of one letter. -/
def shortEscape? (c : Char) : Option Char :=
  if c = '"' ∨ c = '\\' ∨ c = '/' then some c
  else if c = 'n' then some '\n'
  else if c = 'r' then some '\r'
  else if c = 't' then some '\t'
  else if c = 'b' then some (Char.ofNat 8)
  else if c = 'f' then some (Char.ofNat 12)
  else none

/-- The pieces of a string up to its closing quote, and what follows it. -/
def pieces? : List Char → Option (List Piece × List Char)
  | [] => none
  | '"' :: rest => some ([], rest)
  | '\\' :: 'u' :: a :: b :: c :: d :: rest => do
    let n ← hexUnit? a b c d
    let (ps, after) ← pieces? rest
    some (.unit n :: ps, after)
  | '\\' :: e :: rest => do
    let c ← shortEscape? e
    let (ps, after) ← pieces? rest
    some (.char c :: ps, after)
  | c :: rest =>
    if c.toNat < 32 then none
    else (pieces? rest).map fun (ps, after) => (.char c :: ps, after)

/-- The characters that pieces form: two units that are a surrogate pair are one character, half a
pair is none. -/
def join? : List Piece → Option (List Char)
  | [] => some []
  | .char c :: rest => (join? rest).map (c :: ·)
  | .unit a :: .unit b :: rest =>
    if 0xD800 ≤ a ∧ a < 0xDC00 then
      if 0xDC00 ≤ b ∧ b < 0xE000 then
        (join? rest).map (Char.ofNat (0x10000 + (a - 0xD800) * 0x400 + (b - 0xDC00)) :: ·)
      else none
    else if 0xDC00 ≤ a ∧ a < 0xE000 then none
    else (join? (.unit b :: rest)).map (Char.ofNat a :: ·)
  | .unit a :: rest =>
    if 0xD800 ≤ a ∧ a < 0xE000 then none else (join? rest).map (Char.ofNat a :: ·)

/-- A string after its opening quote. -/
def string? (cs : List Char) : Option (Option String × List Char) :=
  (pieces? cs).map fun (ps, rest) => ((join? ps).map String.ofList, rest)

/-! ## Numbers -/

/-- Digits, at least one. -/
def digits? (cs : List Char) : Option (List Char × List Char) :=
  let ds := cs.takeWhile Char.isDigit
  if ds.isEmpty then none else some (ds, cs.dropWhile Char.isDigit)

/-- A fraction, if there is a point. -/
def fractionPart? (cs : List Char) : Option (Option (List Char) × List Char) :=
  match cs with
  | '.' :: rest => (digits? rest).map fun (ds, r) => (some ds, r)
  | _ => some (none, cs)

/-- The sign of an exponent and its digits. -/
def exponentDigits? (cs : List Char) : Option ((Bool × List Char) × List Char) :=
  match cs with
  | '+' :: rest => (digits? rest).map fun (ds, r) => ((false, ds), r)
  | '-' :: rest => (digits? rest).map fun (ds, r) => ((true, ds), r)
  | _ => (digits? cs).map fun (ds, r) => ((false, ds), r)

/-- An exponent, if there is one. -/
def exponentPart? (cs : List Char) : Option (Option (Bool × List Char) × List Char) :=
  match cs with
  | 'e' :: rest => (exponentDigits? rest).map fun (e, r) => (some e, r)
  | 'E' :: rest => (exponentDigits? rest).map fun (e, r) => (some e, r)
  | _ => some (none, cs)

/-- A number.  No zero may stand before another digit. -/
def numeral? (cs : List Char) : Option (Numeral × List Char) := do
  let (negative, cs) := match cs with
    | '-' :: rest => (true, rest)
    | _ => (false, cs)
  let (whole, cs) ← digits? cs
  if whole.head? = some '0' ∧ whole.length ≠ 1 then none
  else
    let (fraction, cs) ← fractionPart? cs
    let (exponent, cs) ← exponentPart? cs
    some (⟨negative, whole, fraction, exponent⟩, cs)

/-! ## Values -/

/-- The four characters that may stand between tokens. -/
def isSpace (c : Char) : Bool := c = ' ' || c = '\n' || c = '\t' || c = '\r'

/-- What follows leading spaces. -/
def skipSpaces (cs : List Char) : List Char := cs.dropWhile isSpace

namespace Raw

mutual

/-- A value after optional spaces. -/
def value (fuel : Nat) (cs : List Char) : Option (Raw × List Char) :=
  match fuel with
  | 0 => none
  | fuel + 1 =>
    match skipSpaces cs with
    | 'n' :: 'u' :: 'l' :: 'l' :: rest => some (.null, rest)
    | 't' :: 'r' :: 'u' :: 'e' :: rest => some (.bool true, rest)
    | 'f' :: 'a' :: 'l' :: 's' :: 'e' :: rest => some (.bool false, rest)
    | '"' :: rest => (string? rest).map fun (s, r) => (.string s, r)
    | '[' :: rest =>
      match skipSpaces rest with
      | ']' :: after => some (.array [], after)
      | _ => (items fuel rest).map fun (vs, r) => (.array vs, r)
    | '\x7b' :: rest =>
      match skipSpaces rest with
      | '\x7d' :: after => some (.object [], after)
      | _ => (fields fuel rest).map fun (vs, r) => (.object vs, r)
    | other => (numeral? other).map fun (n, r) => (.number n, r)

/-- The items of an array and its closing bracket. -/
def items (fuel : Nat) (cs : List Char) : Option (List Raw × List Char) :=
  match fuel with
  | 0 => none
  | fuel + 1 => do
    let (v, cs) ← value fuel cs
    match skipSpaces cs with
    | ',' :: rest => (items fuel rest).map fun (vs, r) => (v :: vs, r)
    | ']' :: rest => some ([v], rest)
    | _ => none

/-- The fields of an object and its closing brace. -/
def fields (fuel : Nat) (cs : List Char) : Option (List (Option String × Raw) × List Char) :=
  match fuel with
  | 0 => none
  | fuel + 1 =>
    match skipSpaces cs with
    | '"' :: rest => do
      let (key, cs) ← string? rest
      match skipSpaces cs with
      | ':' :: rest => do
        let (v, cs) ← value fuel rest
        match skipSpaces cs with
        | ',' :: rest => (fields fuel rest).map fun (vs, r) => ((key, v) :: vs, r)
        | '\x7d' :: rest => some ([(key, v)], rest)
        | _ => none
      | _ => none
    | _ => none

end

/-- A whole text: one value and nothing after it but spaces. -/
def parse? (s : String) : Option Raw := do
  let cs := s.toList
  let (v, rest) ← value (cs.length + 1) cs
  if skipSpaces rest = [] then some v else none

mutual

/-- The value of a tree; `depth` is one more than the number of levels that arrays and objects may
nest.  Of a repeated key the last value counts. -/
def value? (depth : Nat) : Raw → Option Json
  | .null => some .null
  | .bool b => some (.bool b)
  | .number n => n.value?.map fun
    | .int n => .int n
    | .float x => .float x
  | .string content => content.map .string
  | .array items => if depth ≤ 1 then none else (values? (depth - 1) items).map .array
  | .object fields =>
    if depth ≤ 1 then none else (members? (depth - 1) [] fields).map .object

/-- The values of the items of an array. -/
def values? (depth : Nat) : List Raw → Option (List Json)
  | [] => some []
  | r :: rest => do some ((← value? depth r) :: (← values? depth rest))

/-- The fields of an object, added to those already read. -/
def members? (depth : Nat) (seen : List (String × Json)) :
    List (Option String × Raw) → Option (List (String × Json))
  | [] => some seen
  | (key, r) :: rest => do members? depth (putEntry (← key) (← value? depth r) seen) rest

end

/-- How deep a text may nest, and one more. -/
def maxDepth : Nat := 128

end Raw

/-- The value of a JSON text. -/
def parse? (s : String) : Option Json := do (← Raw.parse? s).value? Raw.maxDepth

end Bulwark.Json
