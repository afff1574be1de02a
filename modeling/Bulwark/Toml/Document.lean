import Bulwark.Toml.Lexeme

/-!
# TOML documents

A document is read line by line: a line sets a key, opens a table, or opens a new item of an array
of tables.  `Toml.parse?` gives the fields of the whole document.
-/

namespace Bulwark.Toml

mutual

/-- A value; `depth` arrays and inline tables are open around it. -/
def value? (fuel depth : Nat) (cs : List Char) : Option (Node × List Char) :=
  match fuel with
  | 0 => none
  | fuel + 1 =>
    match cs with
    | '"' :: _ => (string? cs).map fun (s, rest) => (.string s, rest)
    | '\'' :: _ => (string? cs).map fun (s, rest) => (.string s, rest)
    | '[' :: rest =>
      if maxDepth ≤ depth then none
      else (items? fuel (depth + 1) rest).map fun (vs, rest) => (.array vs, rest)
    | '\x7b' :: rest =>
      if maxDepth ≤ depth then none
      else
        match skipBlanks rest with
        | '\x7d' :: after => some (.table .closed [], after)
        | _ => do
          let (pairs, rest) ← pairs? fuel (depth + 1) rest
          some (.table .closed (← Fields.ofPairs pairs), rest)
    | 't' :: 'r' :: 'u' :: 'e' :: rest => some (.bool true, rest)
    | 'f' :: 'a' :: 'l' :: 's' :: 'e' :: rest => some (.bool false, rest)
    | _ => number? cs

/-- The items of an array and its closing bracket; a comma may follow the last. -/
def items? (fuel depth : Nat) (cs : List Char) : Option (List Node × List Char) :=
  match fuel with
  | 0 => none
  | fuel + 1 =>
    match skipTrivia cs.length cs with
    | ']' :: rest => some ([], rest)
    | cs => do
      let (v, cs) ← value? fuel depth cs
      match skipTrivia cs.length cs with
      | ',' :: rest => (items? fuel depth rest).map fun (vs, rest) => (v :: vs, rest)
      | ']' :: rest => some ([v], rest)
      | _ => none

/-- The keys of an inline table, at least one, and its closing brace. -/
def pairs? (fuel depth : Nat) (cs : List Char) :
    Option (List (List String × String × Node) × List Char) :=
  match fuel with
  | 0 => none
  | fuel + 1 => do
    let ((path, key), cs) ← key? maxDepth cs
    let (v, cs) ← value? fuel depth (skipBlanks (← expect? '=' cs))
    match skipBlanks cs with
    | ',' :: rest => (pairs? fuel depth rest).map fun (ps, rest) => ((path, key, v) :: ps, rest)
    | '\x7d' :: rest => some ([(path, key, v)], rest)
    | _ => none

end

/-- One line that says something. -/
def line? (fuel : Nat) (l : Layout) (cs : List Char) : Option (Layout × List Char) :=
  match cs with
  | '[' :: '[' :: rest => do
    let ((path, key), rest) ← key? maxDepth rest
    let rest ← endOfLine? (← expect? ']' (← expect? ']' rest))
    some (← l.openItem path key, rest)
  | '[' :: rest => do
    let ((path, key), rest) ← key? maxDepth rest
    let rest ← endOfLine? (← expect? ']' rest)
    some (← l.openTable path key, rest)
  | _ => do
    let ((path, key), rest) ← key? maxDepth cs
    let (v, rest) ← value? fuel 0 (skipBlanks (← expect? '=' rest))
    let rest ← endOfLine? rest
    some (← l.set path key v, rest)

/-- The lines of a document. -/
def lines? : (fuel : Nat) → Layout → List Char → Option Layout
  | 0, _, _ => none
  | fuel + 1, l, cs =>
    match skipTrivia cs.length cs with
    | [] => some l
    | '#' :: rest => if rest.dropWhile inComment = [] then some l else none
    | cs => do
      let (l, rest) ← line? (cs.length + 1) l cs
      lines? fuel l rest

/-- The fields of a document, which a byte order mark may precede. -/
def parse? (s : String) : Option Fields := do
  let cs := match s.toList with
    | '\ufeff' :: rest => rest
    | cs => cs
  (← lines? (cs.length + 1) .start cs).close

end Bulwark.Toml
