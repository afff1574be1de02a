import Bulwark.Decimal.Reader
import Bulwark.Json.Raw
import Bulwark.Time.Civil
import Bulwark.Toml.Node

/-!
# Words of TOML

Blanks, comments, keys, strings, numbers and dates.  Each reader takes the rest of a document and
gives what it has read and what follows.
-/

namespace Bulwark.Toml

/-! ## Blanks and ends of lines -/

/-- A blank within a line. -/
def isBlank (c : Char) : Bool := c = ' ' || c = '\t'

/-- What follows blanks within a line. -/
def skipBlanks (cs : List Char) : List Char := cs.dropWhile isBlank

/-- The end of a line. -/
def newline? : List Char → Option (List Char)
  | '\n' :: rest => some rest
  | '\r' :: '\n' :: rest => some rest
  | _ => none

/-- A character that may stand in a comment. -/
def inComment (c : Char) : Bool := c = '\t' || (32 ≤ c.toNat && c.toNat ≠ 127)

/-- What follows a comment, if there is one. -/
def skipComment : List Char → List Char
  | '#' :: rest => rest.dropWhile inComment
  | cs => cs

/-- The rest of a line: blanks, a comment, and the end of the line or of the document. -/
def endOfLine? (cs : List Char) : Option (List Char) :=
  match skipComment (skipBlanks cs) with
  | [] => some []
  | rest => newline? rest

/-- What follows blanks, ends of lines, and comments that end with a line. -/
def skipTrivia : (fuel : Nat) → List Char → List Char
  | 0, cs => cs
  | fuel + 1, cs =>
    match newline? (skipComment (skipBlanks cs)) with
    | some rest => skipTrivia fuel rest
    | none => skipBlanks cs

/-! ## Strings -/

/-- The character of a code point, where there is one. -/
def charOf? (n : Nat) : Option Char := if h : n.isValidChar then some (Char.ofNatAux n h) else none

/-- The value of a run of hexadecimal digits. -/
def hexDigits? (ds : List Char) : Option Nat :=
  ds.foldlM (fun n c => (Json.hexValue? c).map (16 * n + ·)) 0

/-- The character of an escape of one letter. -/
def shortEscape? (c : Char) : Option Char :=
  if c = '"' ∨ c = '\\' then some c
  else if c = 'n' then some '\n'
  else if c = 'r' then some '\r'
  else if c = 't' then some '\t'
  else if c = 'b' then some (Char.ofNat 8)
  else if c = 'f' then some (Char.ofNat 12)
  else none

/-- A character that may stand in a string as it is. -/
def inString (c : Char) : Bool := c = '\t' || (32 ≤ c.toNat && c.toNat ≠ 127)

/-- The inside of a string in quotes, up to its end. -/
def basic? : List Char → Option (List Char × List Char)
  | [] => none
  | '"' :: rest => some ([], rest)
  | '\\' :: 'u' :: a :: b :: c :: d :: rest => do
    let x ← charOf? (← hexDigits? [a, b, c, d])
    (basic? rest).map fun (s, r) => (x :: s, r)
  | '\\' :: 'U' :: a :: b :: c :: d :: e :: f :: g :: h :: rest => do
    let x ← charOf? (← hexDigits? [a, b, c, d, e, f, g, h])
    (basic? rest).map fun (s, r) => (x :: s, r)
  | '\\' :: c :: rest => do
    let x ← shortEscape? c
    (basic? rest).map fun (s, r) => (x :: s, r)
  | c :: rest =>
    if inString c then (basic? rest).map fun (s, r) => (c :: s, r) else none

/-- The inside of a string in apostrophes, up to its end. -/
def literal? : List Char → Option (List Char × List Char)
  | [] => none
  | '\'' :: rest => some ([], rest)
  | c :: rest =>
    if inString c then (literal? rest).map fun (s, r) => (c :: s, r) else none

/-- Where the reader of a string of several lines is. -/
inductive LineMode where
  /-- In the text. -/
  | text
  /-- After a backslash, before the end of the line that must follow. -/
  | beforeBreak
  /-- After that end of line, in the blanks that do not count. -/
  | afterBreak
  deriving DecidableEq

/-- The inside of a string of several lines in quotes, up to its end.  Up to two quotes before the
three at the end belong to it. -/
def multiBasic? : LineMode → List Char → Option (List Char × List Char)
  | _, [] => none
  | .beforeBreak, '\n' :: rest => multiBasic? .afterBreak rest
  | .beforeBreak, '\r' :: '\n' :: rest => multiBasic? .afterBreak rest
  | .beforeBreak, c :: rest => if isBlank c then multiBasic? .beforeBreak rest else none
  | .afterBreak, ' ' :: rest => multiBasic? .afterBreak rest
  | .afterBreak, '\t' :: rest => multiBasic? .afterBreak rest
  | .afterBreak, '\n' :: rest => multiBasic? .afterBreak rest
  | .afterBreak, '\r' :: '\n' :: rest => multiBasic? .afterBreak rest
  | _, '"' :: '"' :: '"' :: '"' :: '"' :: rest => some (['"', '"'], rest)
  | _, '"' :: '"' :: '"' :: '"' :: rest => some (['"'], rest)
  | _, '"' :: '"' :: '"' :: rest => some ([], rest)
  | _, '\r' :: '\n' :: rest => (multiBasic? .text rest).map fun (s, r) => ('\n' :: s, r)
  | _, '\\' :: 'u' :: a :: b :: c :: d :: rest => do
    let x ← charOf? (← hexDigits? [a, b, c, d])
    (multiBasic? .text rest).map fun (s, r) => (x :: s, r)
  | _, '\\' :: 'U' :: a :: b :: c :: d :: e :: f :: g :: h :: rest => do
    let x ← charOf? (← hexDigits? [a, b, c, d, e, f, g, h])
    (multiBasic? .text rest).map fun (s, r) => (x :: s, r)
  | _, '\\' :: '\n' :: rest => multiBasic? .afterBreak rest
  | _, '\\' :: '\r' :: '\n' :: rest => multiBasic? .afterBreak rest
  | _, '\\' :: ' ' :: rest => multiBasic? .beforeBreak rest
  | _, '\\' :: '\t' :: rest => multiBasic? .beforeBreak rest
  | _, '\\' :: c :: rest => do
    let x ← shortEscape? c
    (multiBasic? .text rest).map fun (s, r) => (x :: s, r)
  | _, c :: rest =>
    if inString c ∨ c = '\n' then (multiBasic? .text rest).map fun (s, r) => (c :: s, r) else none

/-- The inside of a string of several lines in apostrophes, up to its end. -/
def multiLiteral? : List Char → Option (List Char × List Char)
  | [] => none
  | '\'' :: '\'' :: '\'' :: '\'' :: '\'' :: rest => some (['\'', '\''], rest)
  | '\'' :: '\'' :: '\'' :: '\'' :: rest => some (['\''], rest)
  | '\'' :: '\'' :: '\'' :: rest => some ([], rest)
  | '\r' :: '\n' :: rest => (multiLiteral? rest).map fun (s, r) => ('\n' :: s, r)
  | c :: rest =>
    if inString c ∨ c = '\n' then (multiLiteral? rest).map fun (s, r) => (c :: s, r) else none

/-- A string of any of the four kinds.  An end of line right after three opening marks does not
count. -/
def string? (cs : List Char) : Option (String × List Char) :=
  let read := match cs with
    | '"' :: '"' :: '"' :: rest => multiBasic? .text ((newline? rest).getD rest)
    | '\'' :: '\'' :: '\'' :: rest => multiLiteral? ((newline? rest).getD rest)
    | '"' :: rest => basic? rest
    | '\'' :: rest => literal? rest
    | _ => none
  read.map fun (s, rest) => (String.ofList s, rest)

/-! ## Keys -/

/-- A character of a bare key. -/
def inBareKey (c : Char) : Bool := c.isAlphanum || c = '_' || c = '-'

/-- One part of a key: bare, or a string on one line. -/
def keyPart? (cs : List Char) : Option (String × List Char) :=
  match cs with
  | '"' :: rest => (basic? rest).map fun (s, r) => (String.ofList s, r)
  | '\'' :: rest => (literal? rest).map fun (s, r) => (String.ofList s, r)
  | _ =>
    let word := cs.takeWhile inBareKey
    if word.isEmpty then none else some (String.ofList word, cs.dropWhile inBareKey)

/-- How deep values may nest, and how many parts a key may have. -/
def maxDepth : Nat := 79

/-- A key with dots between its parts, and blanks around them: the parts before the last, and the
last. -/
def key? : (fuel : Nat) → List Char → Option ((List String × String) × List Char)
  | 0, _ => none
  | fuel + 1, cs => do
    let (part, cs) ← keyPart? (skipBlanks cs)
    match skipBlanks cs with
    | '.' :: rest => do
      let ((path, last), cs) ← key? fuel rest
      some ((part :: path, last), cs)
    | cs => some (([], part), cs)

/-! ## Numbers -/

/-- Digits with single underscores between them, without the underscores. -/
def digitRun? (isDigit : Char → Bool) : List Char → Option (List Char × List Char)
  | [] => none
  | c :: rest =>
    if isDigit c then
      match rest with
      | '_' :: more => (digitRun? isDigit more).map fun (ds, r) => (c :: ds, r)
      | more =>
        match digitRun? isDigit more with
        | some (ds, r) => some (c :: ds, r)
        | none => if (more.head?.map isDigit).getD false then none else some ([c], more)
    else none

/-- A sign, if there is one. -/
def sign? : List Char → List Char × List Char
  | '+' :: rest => (['+'], rest)
  | '-' :: rest => (['-'], rest)
  | cs => ([], cs)

/-- A sign and digits, no zero before another digit. -/
def decimalPart? (cs : List Char) : Option (List Char × List Char) :=
  let (sign, cs) := sign? cs
  match cs with
  | '0' :: rest => some (sign ++ ['0'], rest)
  | _ => (digitRun? Char.isDigit cs).map fun (ds, r) => (sign ++ ds, r)

/-- An exponent. -/
def exponentPart? (cs : List Char) : Option (List Char × List Char) :=
  match cs with
  | c :: rest =>
    if c = 'e' ∨ c = 'E' then
      let (sign, rest) := sign? rest
      (digitRun? Char.isDigit rest).map fun (ds, r) => ('e' :: sign ++ ds, r)
    else none
  | [] => none

/-- A fraction, and an exponent if there is one. -/
def fractionPart? (cs : List Char) : Option (List Char × List Char) :=
  match cs with
  | '.' :: rest => do
    let (ds, rest) ← digitRun? Char.isDigit rest
    match exponentPart? rest with
    | some (e, after) => some ('.' :: ds ++ e, after)
    | none => some ('.' :: ds, rest)
  | _ => none

/-- A number with a fraction or an exponent.  One too large is refused, one too far below zero is
infinite. -/
def plainFloat? (cs : List Char) : Option (Float × List Char) := do
  let (whole, rest) ← decimalPart? cs
  let (part, rest) ← (exponentPart? rest).or (fractionPart? rest)
  let x ← Decimal.float? (String.ofList (whole ++ part))
  if x.isInf ∧ 0 < x then none else some (x, rest)

/-- The words for infinity and not-a-number, with a sign if there is one. -/
def wordFloat? (cs : List Char) : Option (Float × List Char) :=
  let (sign, cs) := sign? cs
  let negative := sign = ['-']
  match cs with
  | 'i' :: 'n' :: 'f' :: rest => some (Binary64.infinity negative, rest)
  | 'n' :: 'a' :: 'n' :: rest => some (Float.ofBits 0x7ff8000000000000, rest)
  | _ => none

/-- Digits of a base as a number. -/
def inBase (base : Nat) (ds : List Char) : Nat :=
  ds.foldl (fun n c => base * n + (Json.hexValue? c).getD 0) 0

/-- A whole number of 64 bits with a sign: decimal, or without a sign in base sixteen, eight or
two. -/
def int? (cs : List Char) : Option (Int × List Char) := do
  let based (base : Nat) (isDigit : Char → Bool) (rest : List Char) : Option (Int × List Char) :=
    (digitRun? isDigit rest).map fun (ds, r) => ((inBase base ds : Int), r)
  let (n, rest) ← match cs with
    | '0' :: 'x' :: rest => based 16 (fun c => (Json.hexValue? c).isSome) rest
    | '0' :: 'o' :: rest => based 8 (fun c => '0' ≤ c && c ≤ '7') rest
    | '0' :: 'b' :: rest => based 2 (fun c => c = '0' || c = '1') rest
    | _ => do
      let (text, rest) ← decimalPart? cs
      let n : Int := match text with
        | '-' :: ds => -(Text.natOfDigits ds : Int)
        | '+' :: ds => Text.natOfDigits ds
        | ds => Text.natOfDigits ds
      some (n, rest)
  if Text.fitsSigned n then some (n, rest) else none

/-! ## Dates and times -/

/-- So many digits, as a number in a range. -/
def fixed? (count low high : Nat) (cs : List Char) : Option (Nat × List Char) :=
  let ds := cs.take count
  if ds.length = count ∧ ds.all Char.isDigit then
    let n := Text.natOfDigits ds
    if low ≤ n ∧ n ≤ high then some (n, cs.drop count) else none
  else none

/-- One given character. -/
def expect? (c : Char) : List Char → Option (List Char)
  | d :: rest => if d = c then some rest else none
  | [] => none

/-- A date that the calendar has. -/
def date? (cs : List Char) : Option (List Char) := do
  let (year, cs) ← fixed? 4 0 9999 cs
  let (month, cs) ← fixed? 2 1 12 (← expect? '-' cs)
  let (day, cs) ← fixed? 2 1 31 (← expect? '-' cs)
  if Civil.isValid ⟨year, month, day⟩ then some cs else none

/-- A time of day to the second, with a fraction if there is one. -/
def time? (cs : List Char) : Option (List Char) := do
  let (_, cs) ← fixed? 2 0 23 cs
  let (_, cs) ← fixed? 2 0 59 (← expect? ':' cs)
  let (_, cs) ← fixed? 2 0 60 (← expect? ':' cs)
  match cs with
  | '.' :: rest =>
    if (rest.head?.map Char.isDigit).getD false then some (rest.dropWhile Char.isDigit) else none
  | _ => some cs

/-- An offset from universal time. -/
def offset? (cs : List Char) : Option (List Char) :=
  let hours (rest : List Char) : Option (List Char) := do
    let (_, rest) ← fixed? 2 0 23 rest
    let (_, rest) ← fixed? 2 0 59 (← expect? ':' rest)
    some rest
  match cs with
  | 'Z' :: rest => some rest
  | 'z' :: rest => some rest
  | '+' :: rest => hours rest
  | '-' :: rest => hours rest
  | _ => none

/-- A time after a date, with an offset if there is one. -/
def timeAfterDate? (cs : List Char) : Option (List Char) := do
  let rest ← match cs with
    | 'T' :: rest => some rest
    | 't' :: rest => some rest
    | ' ' :: rest => some rest
    | _ => none
  let rest ← time? rest
  some ((offset? rest).getD rest)

/-- A date, a date with a time, or a time. -/
def datetime? (cs : List Char) : Option (List Char) :=
  match date? cs with
  | some rest => some ((timeAfterDate? rest).getD rest)
  | none => time? cs

/-- A date or a number. -/
def number? (cs : List Char) : Option (Node × List Char) :=
  match datetime? cs with
  | some rest => some (.datetime, rest)
  | none =>
    match (plainFloat? cs).or (wordFloat? cs) with
    | some (x, rest) => some (.float x, rest)
    | none => (int? cs).map fun (n, rest) => (.int n, rest)

end Bulwark.Toml
