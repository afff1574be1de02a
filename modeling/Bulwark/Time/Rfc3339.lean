import Bulwark.Text.Blank
import Bulwark.Time.Timestamp

/-!
# Dates in RFC 3339

Timestamps are written as `2023-11-14T22:13:20Z`, with a fraction of three, six or nine digits when
one is needed, and with a sign and at least four digits for a year outside 0 to 9999.

The reader is more liberal.  Numbers may be short and may follow blanks, a year with a sign may
have any number of digits, the date and the time may be parted by a blank, a fraction may be longer
than nanoseconds (the rest is dropped), and the offset may be `UTC` in any case, a `Z`, or signed
hours and minutes with colons and blanks between them.
-/

namespace Bulwark.Timestamp

/-! ## Writing -/

/-- A year: four digits, or a sign and at least four digits outside 0 to 9999. -/
def renderYear (year : Int) : String :=
  if 0 ≤ year ∧ year ≤ 9999 then Text.padded 4 year.toNat
  else (if year < 0 then "-" else "+") ++ Text.padded 4 year.natAbs

/-- The shortest of no, three, six or nine digits that is exact. -/
def renderFraction (nano : Nat) : String :=
  if nano = 0 then ""
  else if nano % 1000000 = 0 then "." ++ Text.padded 3 (nano / 1000000)
  else if nano % 1000 = 0 then "." ++ Text.padded 6 (nano / 1000)
  else "." ++ Text.padded 9 nano

/-- The date and time of a timestamp. -/
def render (t : Timestamp) : String :=
  let date := Civil.ofDays (t.second / secondsPerDay)
  let inDay := (t.second % secondsPerDay).toNat
  let leap := t.nano / nanosPerSecond
  renderYear date.year ++ "-" ++ Text.padded 2 date.month ++ "-" ++ Text.padded 2 date.day ++ "T"
    ++ Text.padded 2 (inDay / 3600) ++ ":" ++ Text.padded 2 (inDay / 60 % 60) ++ ":"
    ++ Text.padded 2 (inDay % 60 + leap) ++ renderFraction (t.nano % nanosPerSecond) ++ "Z"

/-! ## Reading -/

/-- At most `width` digits, at least one. -/
def takeDigits? (width : Nat) (cs : List Char) : Option (List Char × List Char) :=
  let ds := (cs.take width).takeWhile Char.isDigit
  if ds.isEmpty then none else some (ds, cs.drop ds.length)

/-- Blanks and a number of one or two digits. -/
def twoDigits? (cs : List Char) : Option (Nat × List Char) :=
  (takeDigits? 2 (Text.skipBlanks cs)).map fun (ds, rest) => (Text.natOfDigits ds, rest)

/-- Blanks and a year: any number of digits after a sign, at most four without. -/
def year? (cs : List Char) : Option (Int × List Char) :=
  match Text.skipBlanks cs with
  | '-' :: rest =>
    (takeDigits? rest.length rest).map fun (ds, r) => (-(Text.natOfDigits ds : Int), r)
  | '+' :: rest =>
    (takeDigits? rest.length rest).map fun (ds, r) => ((Text.natOfDigits ds : Int), r)
  | rest => (takeDigits? 4 rest).map fun (ds, r) => ((Text.natOfDigits ds : Int), r)

/-- Blanks and one given character. -/
def mark? (c : Char) (cs : List Char) : Option (List Char) :=
  match Text.skipBlanks cs with
  | d :: rest => if d = c then some rest else none
  | [] => none

/-- A year, a month and a day that the calendar has, parted by hyphens. -/
def date? (cs : List Char) : Option (Civil × List Char) := do
  let (year, cs) ← year? cs
  let (month, cs) ← twoDigits? (← mark? '-' cs)
  let (day, cs) ← twoDigits? (← mark? '-' cs)
  let date : Civil := ⟨year, month, day⟩
  if firstYear ≤ year ∧ year ≤ lastYear ∧ date.isValid then some (date, cs) else none

/-- A fraction in nanoseconds: up to nine digits count, further ones are dropped. -/
def fraction? (cs : List Char) : Option (Nat × List Char) :=
  match cs with
  | '.' :: rest => do
    let (ds, _) ← takeDigits? 9 rest
    some (Text.natOfDigits ds * Nat.pow 10 (9 - ds.length), rest.dropWhile Char.isDigit)
  | _ => some (0, cs)

/-- Hours, minutes and seconds parted by colons, and a fraction: the second of the day and the
nanoseconds in it.  A sixtieth second is the fifty-ninth with `10^9` nanoseconds more. -/
def time? (cs : List Char) : Option ((Nat × Nat) × List Char) := do
  let (hour, cs) ← twoDigits? cs
  let (minute, cs) ← twoDigits? (← mark? ':' cs)
  let (second, cs) ← twoDigits? (← mark? ':' cs)
  let (nano, cs) ← fraction? cs
  if hour ≤ 23 ∧ minute ≤ 59 ∧ second ≤ 60 then
    let leap := second / 60
    some ((hour * 3600 + minute * 60 + second - leap, nano + leap * nanosPerSecond), cs)
  else none

/-- Two digits that must be there. -/
def pair? : List Char → Option (Nat × List Char)
  | a :: b :: rest => if a.isDigit ∧ b.isDigit then some (Text.natOfDigits [a, b], rest) else none
  | _ => none

/-- Hours, colons and blanks, and minutes, in seconds. -/
def offsetMagnitude? (cs : List Char) : Option (Int × List Char) := do
  let (hours, cs) ← pair? cs
  let (minutes, cs) ← pair? (cs.dropWhile fun c => c == ':' || Text.isBlank c)
  if minutes ≤ 59 then some ((hours * 3600 + minutes * 60 : Nat), cs) else none

/-- The offset from universal time, in seconds: less than a day. -/
def offset? (cs : List Char) : Option (Int × List Char) := do
  let (offset, rest) ←
    if (cs.take 3).map Char.toLower = ['u', 't', 'c'] then some (0, cs.drop 3)
    else match cs with
      | 'Z' :: rest => some (0, rest)
      | 'z' :: rest => some (0, rest)
      | '+' :: rest => offsetMagnitude? rest
      | '-' :: rest => (offsetMagnitude? rest).map fun (n, r) => (-n, r)
      | '\u2212' :: rest => (offsetMagnitude? rest).map fun (n, r) => (-n, r)
      | _ => none
  if offset.natAbs < 86400 then some (offset, rest) else none

/-- The character between a date and a time. -/
def separator? : List Char → Option (List Char)
  | 't' :: rest => some rest
  | 'T' :: rest => some rest
  | ' ' :: rest => some rest
  | _ => none

/-- A timestamp in liberal RFC 3339. -/
def read? (s : String) : Option Timestamp := do
  let (date, cs) ← date? s.toList
  let ((inDay, nano), cs) ← time? (← separator? cs)
  let (offset, cs) ← offset? (Text.skipBlanks cs)
  let second := date.toDays * secondsPerDay + inDay - offset
  if Text.skipBlanks cs = [] ∧ inRange second then some ⟨second, nano⟩ else none

end Bulwark.Timestamp
