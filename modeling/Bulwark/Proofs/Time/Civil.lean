import Mathlib.Data.Int.Order.Basic
import Bulwark.Time.Timestamp

/-!
# The days of the civil calendar

Every count of days is a date that the calendar has, and the date counts back to the same days.

The proof goes through the parts into which a count of days is divided (`Parts`): four hundred, one
hundred, four and one years, and the day of a year that begins on the first of March.  The date of
such a day is found and counted back within one year (`toDays_ofYearDay`); a day 365 is the leap day
of the next civil year (`Parts.isLeap`).
-/

namespace Bulwark.Civil

/-! ## Years that begin in March -/

/-- The date of a day of a year that begins on the first of March. -/
def ofYearDay (year : Int) (dayOfYear : Nat) : Civil :=
  let month := (5 * dayOfYear + 2) / 153
  let day := dayOfYear - (153 * month + 2) / 5 + 1
  if month < 10 then ⟨year, month + 3, day⟩ else ⟨year + 1, month - 9, day⟩

/-- The days before a year that begins on the first of March. -/
def daysBefore (year : Int) : Int := 365 * year + year / 4 - year / 100 + year / 400

variable {year : Int} {dayOfYear : Nat}

theorem toDays_ofYearDay (h : dayOfYear ≤ 365) :
    (ofYearDay year dayOfYear).toDays = daysBefore year + dayOfYear - epochDay := by
  have hmonth : (5 * dayOfYear + 2) / 153 ≤ 11 := by omega
  have hstart : (153 * ((5 * dayOfYear + 2) / 153) + 2) / 5 ≤ dayOfYear := by omega
  unfold ofYearDay
  simp only []
  -- March to December stay in the year, January and February belong to the next
  split
  · rename_i hlt
    have hlate : ¬ (5 * dayOfYear + 2) / 153 + 3 ≤ 2 := by omega
    unfold toDays daysBefore
    simp only [if_neg hlate, Nat.add_sub_cancel]
    omega
  · rename_i hge
    have hearly : (5 * dayOfYear + 2) / 153 - 9 ≤ 2 := by omega
    have hback : (5 * dayOfYear + 2) / 153 - 9 + 9 = (5 * dayOfYear + 2) / 153 := by omega
    unfold toDays daysBefore
    simp only [if_pos hearly, Int.add_sub_cancel, hback]
    omega

/-- The calendar has every day of such a year, and a day 365 before a leap year. -/
theorem isValid_ofYearDay (h : dayOfYear ≤ 365)
    (hleap : dayOfYear = 365 → isLeap (year + 1) = true) :
    (ofYearDay year dayOfYear).isValid = true := by
  have hmonth : (5 * dayOfYear + 2) / 153 ≤ 11 := by omega
  have hstart : (153 * ((5 * dayOfYear + 2) / 153) + 2) / 5 ≤ dayOfYear := by omega
  have hend : dayOfYear < (153 * ((5 * dayOfYear + 2) / 153 + 1) + 2) / 5 := by omega
  unfold ofYearDay isValid
  simp only []
  generalize (5 * dayOfYear + 2) / 153 = month at hmonth hstart hend
  split
  · rename_i hlt
    -- from March to December a month is thirty or thirty-one days long, whatever the year
    have hday : dayOfYear - (153 * month + 2) / 5 + 1 ≤ monthLength year (month + 3) := by
      unfold monthLength
      rw [if_neg (by omega)]
      split <;> omega
    simp only [Bool.and_eq_true, decide_eq_true_eq]
    omega
  · rename_i hge
    have hday : dayOfYear - (153 * month + 2) / 5 + 1 ≤ monthLength (year + 1) (month - 9) := by
      -- January, or February, which is the only month that depends on the year
      have hcases : month = 10 ∨ month = 11 := by omega
      unfold monthLength
      rcases hcases with rfl | rfl
      · rw [if_neg (by omega), if_neg (by omega)]
        omega
      · rw [if_pos (by omega)]
        by_cases hlast : dayOfYear = 365
        · rw [hleap hlast, if_pos rfl]
          omega
        · split <;> omega
    simp only [Bool.and_eq_true, decide_eq_true_eq]
    omega

/-! ## The parts of a count of days -/

/-- How a count of days is divided into years. -/
structure Parts (days era : Int) (century cycle yearOfCycle dayOfYear : Nat) : Prop where
  century_le : century ≤ 3
  cycle_le : cycle ≤ 24
  yearOfCycle_le : yearOfCycle ≤ 3
  dayOfYear_le : dayOfYear ≤ 365
  /-- A year has a day 365 only at the end of four years that end in a leap day. -/
  last : dayOfYear = 365 → yearOfCycle = 3 ∧ (cycle ≤ 23 ∨ century = 3)
  sum_eq : days + epochDay =
    146097 * era + (36524 * century + 1461 * cycle + 365 * yearOfCycle + dayOfYear : Nat)

/-- The year of the parts, counted from March. -/
def yearOf (era : Int) (century cycle yearOfCycle : Nat) : Int :=
  400 * era + (100 * century + 4 * cycle + yearOfCycle : Nat)

/-- Every count of days is divided, and its date is read off the parts. -/
theorem exists_parts (days : Int) : ∃ era century cycle yearOfCycle dayOfYear,
    Parts days era century cycle yearOfCycle dayOfYear ∧
      ofDays days = ofYearDay (yearOf era century cycle yearOfCycle) dayOfYear := by
  refine ⟨_, _, _, _, _, ?_, rfl⟩
  generalize hz : days + epochDay = z
  have hera : z = 146097 * (z / 146097) + (z % 146097).toNat := by omega
  have hlt : (z % 146097).toNat < 146097 := by omega
  generalize (z % 146097).toNat = inEra at hera hlt
  -- the last century of an era and the last year of a cycle are a day longer, hence the caps
  have hcentury : min (inEra / 36524) 3 ≤ 3 := Nat.min_le_right _ _
  have hinCentury : inEra - min (inEra / 36524) 3 * 36524 < 36525 ∧
      (min (inEra / 36524) 3 < 3 → inEra - min (inEra / 36524) 3 * 36524 < 36524) ∧
      inEra = min (inEra / 36524) 3 * 36524 + (inEra - min (inEra / 36524) 3 * 36524) := by
    omega
  generalize min (inEra / 36524) 3 = century at hcentury hinCentury
  generalize inEra - century * 36524 = inCentury at hinCentury
  have hcycle : inCentury = 1461 * (inCentury / 1461) + inCentury % 1461 := by omega
  have hinCycle : inCentury % 1461 < 1461 := Nat.mod_lt _ (by decide)
  have hcycle_le : inCentury / 1461 ≤ 24 := by omega
  generalize inCentury / 1461 = cycle at hcycle hcycle_le
  generalize inCentury % 1461 = inCycle at hcycle hinCycle
  have hyear : min (inCycle / 365) 3 ≤ 3 := Nat.min_le_right _ _
  have hday : inCycle - min (inCycle / 365) 3 * 365 ≤ 365 ∧
      (inCycle - min (inCycle / 365) 3 * 365 = 365 → min (inCycle / 365) 3 = 3) ∧
      inCycle = min (inCycle / 365) 3 * 365 + (inCycle - min (inCycle / 365) 3 * 365) := by
    omega
  generalize min (inCycle / 365) 3 = yearOfCycle at hyear hday
  generalize inCycle - yearOfCycle * 365 = dayOfYear at hday
  exact {
    century_le := hcentury
    cycle_le := hcycle_le
    yearOfCycle_le := hyear
    dayOfYear_le := hday.1
    last := by omega
    sum_eq := by omega }

section Parts

variable {days era : Int} {century cycle yearOfCycle : Nat}

theorem Parts.isLeap (h : Parts days era century cycle yearOfCycle dayOfYear)
    (hlast : dayOfYear = 365) : isLeap (yearOf era century cycle yearOfCycle + 1) = true := by
  obtain ⟨hyear, hcycle⟩ := h.last hlast
  have hcentury := h.century_le
  have hle := h.cycle_le
  unfold Civil.isLeap yearOf
  simp only [Bool.and_eq_true, Bool.or_eq_true, decide_eq_true_eq, ne_eq]
  omega

/-- Years, centuries and leap years before a year are read off its parts. -/
theorem Parts.daysBefore_add (h : Parts days era century cycle yearOfCycle dayOfYear) :
    daysBefore (yearOf era century cycle yearOfCycle) + dayOfYear - epochDay = days := by
  have hcentury := h.century_le
  have hcycle := h.cycle_le
  have hyear := h.yearOfCycle_le
  have hsum := h.sum_eq
  -- each part is below the next larger unit, so the divisions take them apart
  have h4 : yearOf era century cycle yearOfCycle / 4 =
      100 * era + (25 * century + cycle : Nat) := by
    unfold yearOf
    omega
  have h100 : yearOf era century cycle yearOfCycle / 100 = 4 * era + century := by
    unfold yearOf
    omega
  have h400 : yearOf era century cycle yearOfCycle / 400 = era := by
    unfold yearOf
    omega
  unfold daysBefore
  rw [h4, h100, h400]
  unfold yearOf
  omega

end Parts

/-! ## Dates of days -/

/-- The date of a count of days counts back to it. -/
theorem toDays_ofDays (days : Int) : (ofDays days).toDays = days := by
  obtain ⟨_, _, _, _, _, hparts, hdate⟩ := exists_parts days
  rw [hdate, toDays_ofYearDay hparts.dayOfYear_le, hparts.daysBefore_add]

/-- The calendar has the date of every count of days. -/
theorem isValid_ofDays (days : Int) : (ofDays days).isValid = true := by
  obtain ⟨_, _, _, _, _, hparts, hdate⟩ := exists_parts days
  rw [hdate]
  exact isValid_ofYearDay hparts.dayOfYear_le hparts.isLeap

theorem month_ofDays_lt (days : Int) : (ofDays days).month < 100 := by
  have h := isValid_ofDays days
  unfold isValid at h
  simp only [Bool.and_eq_true, decide_eq_true_eq] at h
  omega

theorem monthLength_le (year : Int) (month : Nat) : monthLength year month ≤ 31 := by
  unfold monthLength
  split
  · split <;> omega
  · split <;> omega

theorem day_ofDays_lt (days : Int) : (ofDays days).day < 100 := by
  have h := isValid_ofDays days
  have hle := monthLength_le (ofDays days).year (ofDays days).month
  unfold isValid at h
  simp only [Bool.and_eq_true, decide_eq_true_eq] at h
  omega

/-- A date before a year counts before its first of January. -/
theorem toDays_lt_of_year_lt {c : Civil} (h : c.isValid = true) (hyear : c.year < year) :
    c.toDays < toDays ⟨year, 1, 1⟩ := by
  have hle := monthLength_le c.year c.month
  unfold isValid at h
  simp only [Bool.and_eq_true, decide_eq_true_eq] at h
  unfold toDays
  simp only []
  rw [if_pos (by decide : 1 ≤ 2), if_pos (by decide : 1 ≤ 2)]
  split
  · omega
  · omega

/-- A date counts from the first of January of its year on. -/
theorem le_toDays {c : Civil} (h : c.isValid = true) : toDays ⟨c.year, 1, 1⟩ ≤ c.toDays := by
  unfold isValid at h
  simp only [Bool.and_eq_true, decide_eq_true_eq] at h
  unfold toDays
  simp only []
  rw [if_pos (by decide : 1 ≤ 2), if_pos (by decide : 1 ≤ 2)]
  split
  · omega
  · omega

/-- Days in the calendar's range have dates in years of that range. -/
theorem year_ofDays_mem {days : Int} (hfirst : toDays ⟨Timestamp.firstYear, 1, 1⟩ ≤ days)
    (hlast : days ≤ toDays ⟨Timestamp.lastYear, 12, 31⟩) :
    Timestamp.firstYear ≤ (ofDays days).year ∧ (ofDays days).year ≤ Timestamp.lastYear := by
  have hvalid := isValid_ofDays days
  constructor
  · by_contra hlt
    have hbefore := toDays_lt_of_year_lt hvalid (Int.not_le.mp hlt)
    rw [toDays_ofDays] at hbefore
    omega
  · by_contra hlt
    have hbefore := toDays_lt_of_year_lt (c := ⟨Timestamp.lastYear, 12, 31⟩) (by decide)
      (Int.not_le.mp hlt)
    have hafter := le_toDays hvalid
    rw [toDays_ofDays] at hafter
    omega

end Bulwark.Civil
