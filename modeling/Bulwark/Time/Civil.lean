/-!
# The civil calendar

Dates of the Gregorian calendar, continued into the past, against the count of days since
1970-01-01.  A year is taken to begin on the first of March, so that a leap day is the last day of
its year; then the days before a year are a sum of quotients, and the years in a count of days are
found by dividing by the lengths of four hundred, one hundred, four and one years in turn.
-/

namespace Bulwark

/-- A date of the civil calendar.  Year 0 is the year before year 1. -/
structure Civil where
  year : Int
  month : Nat
  day : Nat
  deriving DecidableEq, Repr

namespace Civil

/-- Whether a year has a twenty-ninth of February. -/
def isLeap (year : Int) : Bool := year % 4 = 0 && (year % 100 ≠ 0 || year % 400 = 0)

/-- The number of days in a month. -/
def monthLength (year : Int) (month : Nat) : Nat :=
  if month = 2 then if isLeap year then 29 else 28
  else if month = 4 ∨ month = 6 ∨ month = 9 ∨ month = 11 then 30
  else 31

/-- Whether the calendar has this date. -/
def isValid (c : Civil) : Bool :=
  1 ≤ c.month && c.month ≤ 12 && 1 ≤ c.day && c.day ≤ monthLength c.year c.month

/-- Days from 1 March of year 0 to 1970-01-01. -/
def epochDay : Int := 719468

/-- Days since 1970-01-01. -/
def toDays (c : Civil) : Int :=
  let year : Int := if c.month ≤ 2 then c.year - 1 else c.year
  let month : Nat := if c.month ≤ 2 then c.month + 9 else c.month - 3
  365 * year + year / 4 - year / 100 + year / 400 + ((153 * month + 2) / 5 + c.day - 1 : Nat)
    - epochDay

/-- The date that many days after 1970-01-01. -/
def ofDays (days : Int) : Civil :=
  let z := days + epochDay
  let era := z / 146097
  let inEra := (z % 146097).toNat
  let century := min (inEra / 36524) 3
  let inCentury := inEra - century * 36524
  let cycle := inCentury / 1461
  let inCycle := inCentury % 1461
  let yearOfCycle := min (inCycle / 365) 3
  let dayOfYear := inCycle - yearOfCycle * 365
  let year : Int := 400 * era + (100 * century + 4 * cycle + yearOfCycle : Nat)
  let month := (5 * dayOfYear + 2) / 153
  let day := dayOfYear - (153 * month + 2) / 5 + 1
  if month < 10 then ⟨year, month + 3, day⟩ else ⟨year + 1, month - 9, day⟩

end Civil
end Bulwark
