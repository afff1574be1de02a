import Bulwark.Proofs.Text.Digits
import Bulwark.Proofs.Time.Civil
import Bulwark.Time.Rfc3339

/-!
# Dates read back

A timestamp of a clock is read from its written form: `read?_render`.  A clock shows no leap second
and dates nothing outside the calendar's range; within those limits nothing is lost, down to the
nanosecond.

Each part of a date has one lemma that says what the reader of that part makes of its written form
and where it stops.
-/

namespace Bulwark

/-! ## Blanks, digits and marks -/

/-- A text that starts with no blank has nothing to skip. -/
theorem Text.skipBlanks_of_head {cs : List Char} (h : ∀ c ∈ cs.head?, isBlank c = false) :
    skipBlanks cs = cs := by
  cases cs with
  | nil => rfl
  | cons c rest =>
    have hc : ¬ isBlank c = true := by rw [h c rfl]; decide
    exact List.dropWhile_cons_of_neg hc

theorem Text.isBlank_of_isDigit {c : Char} (h : c.isDigit = true) : isBlank c = false := by
  have hrange : 48 ≤ c.toNat ∧ c.toNat ≤ 57 := by
    simp only [Char.isDigit, Bool.and_eq_true, decide_eq_true_eq] at h
    exact ⟨UInt32.le_iff_toNat_le.mp h.1, UInt32.le_iff_toNat_le.mp h.2⟩
  unfold isBlank
  simp only [Bool.or_eq_false_iff, Bool.and_eq_false_iff, decide_eq_false_iff_not,
    beq_eq_false_iff_ne]
  omega

namespace Timestamp

variable {ds rest : List Char}

theorem skipBlanks_digits (hds : ∀ c ∈ ds, c.isDigit = true) (hne : ds ≠ []) :
    Text.skipBlanks (ds ++ rest) = ds ++ rest := by
  refine Text.skipBlanks_of_head fun c hc => Text.isBlank_of_isDigit (hds c ?_)
  rw [List.head?_append_of_ne_nil _ hne] at hc
  exact List.mem_of_mem_head? hc

/-- Digits that fill the width, or that no digit follows, are taken. -/
theorem takeDigits?_append {width : Nat} (hds : ∀ c ∈ ds, c.isDigit = true) (hne : ds ≠ [])
    (hle : ds.length ≤ width)
    (hstop : ds.length = width ∨ ∀ c ∈ rest.head?, c.isDigit = false) :
    takeDigits? width (ds ++ rest) = some (ds, rest) := by
  have htaken : ((ds ++ rest).take width).takeWhile Char.isDigit = ds := by
    rw [List.take_append, List.take_of_length_le hle]
    refine Text.takeWhile_digits hds fun c hc => ?_
    rcases hstop with hfull | hrest
    · rw [hfull, Nat.sub_self, List.take_zero] at hc
      exact absurd hc (by simp)
    · rw [List.head?_take] at hc
      split at hc
      · exact absurd hc (by simp)
      · exact hrest c hc
  unfold takeDigits?
  simp only [htaken]
  rw [if_neg (by simpa using hne), List.drop_left]

/-- A number below a hundred is read from its two digits. -/
theorem twoDigits?_padded {n : Nat} (h : n < 100) :
    twoDigits? ((Text.padded 2 n).toList ++ rest) = some (n, rest) := by
  have hlength : (Text.padded 2 n).toList.length = 2 := Text.length_padded (by decide) h
  unfold twoDigits?
  rw [skipBlanks_digits (fun _ hc => Text.isDigit_of_mem_padded hc) Text.padded_ne_nil,
    takeDigits?_append (fun _ hc => Text.isDigit_of_mem_padded hc) Text.padded_ne_nil hlength.le
      (.inl hlength)]
  exact congrArg (fun m => some (m, rest)) (Text.natOfDigits_padded 2 n)

theorem mark?_cons {c : Char} (h : Text.isBlank c = false) (rest : List Char) :
    mark? c (c :: rest) = some rest := by
  unfold mark?
  rw [Text.skipBlanks_of_head (by rintro _ ⟨⟩; exact h)]
  exact if_pos rfl

/-! ## Dates -/

/-- A year is read as written, if it ends where its digits end. -/
theorem year?_renderYear (year : Int) (hstop : ∀ c ∈ rest.head?, c.isDigit = false) :
    year? ((renderYear year).toList ++ rest) = some (year, rest) := by
  have hsigned : ∀ n, takeDigits? ((Text.padded 4 n).toList ++ rest).length
      ((Text.padded 4 n).toList ++ rest) = some ((Text.padded 4 n).toList, rest) := by
    intro n
    refine takeDigits?_append (fun _ hc => Text.isDigit_of_mem_padded hc) Text.padded_ne_nil ?_
      (.inr hstop)
    rw [List.length_append]
    exact Nat.le_add_right _ _
  unfold renderYear
  -- four digits without a sign, or a sign and as many digits as it takes
  by_cases hplain : 0 ≤ year ∧ year ≤ 9999
  · have hlength : (Text.padded 4 year.toNat).toList.length = 4 :=
      Text.length_padded (by decide) (by omega)
    obtain ⟨c, cs, hcs⟩ := List.exists_cons_of_ne_nil (@Text.padded_ne_nil 4 year.toNat)
    have hdigit : c.isDigit = true :=
      Text.isDigit_of_mem_padded (hcs ▸ List.mem_cons_self : c ∈ (Text.padded 4 year.toNat).toList)
    rw [if_pos hplain]
    unfold year?
    rw [skipBlanks_digits (fun _ hc => Text.isDigit_of_mem_padded hc) Text.padded_ne_nil]
    split
    · rename_i hminus
      rw [hcs, List.cons_append, List.cons.injEq] at hminus
      rw [hminus.1] at hdigit
      exact absurd hdigit (by decide)
    · rename_i hplus
      rw [hcs, List.cons_append, List.cons.injEq] at hplus
      rw [hplus.1] at hdigit
      exact absurd hdigit (by decide)
    · rw [takeDigits?_append (fun _ hc => Text.isDigit_of_mem_padded hc) Text.padded_ne_nil
        hlength.le (.inl hlength), Option.map_some]
      simp only [Text.natOfDigits_padded]
      rw [Int.toNat_of_nonneg hplain.1]
  · rw [if_neg hplain]
    by_cases hneg : year < 0
    · rw [if_pos hneg]
      simp only [String.toList_append, String.reduceToList, List.cons_append, List.nil_append]
      unfold year?
      rw [Text.skipBlanks_of_head (by rintro _ ⟨⟩; decide)]
      simp only [hsigned, Option.map_some, Text.natOfDigits_padded]
      rw [Int.ofNat_natAbs_of_nonpos (Int.le_of_lt hneg), Int.neg_neg]
    · rw [if_neg hneg]
      simp only [String.toList_append, String.reduceToList, List.cons_append, List.nil_append]
      unfold year?
      rw [Text.skipBlanks_of_head (by rintro _ ⟨⟩; decide)]
      simp only [hsigned, Option.map_some, Text.natOfDigits_padded]
      rw [Int.natAbs_of_nonneg (Int.not_lt.mp hneg)]

/-- A date of the calendar in a year of its range is read as written. -/
theorem date?_render {date : Civil}
    (hfirst : firstYear ≤ date.year) (hlast : date.year ≤ lastYear) (hvalid : date.isValid = true)
    (hmonth : date.month < 100) (hday : date.day < 100) :
    date? ((renderYear date.year).toList ++ '-' :: ((Text.padded 2 date.month).toList ++
      '-' :: ((Text.padded 2 date.day).toList ++ rest))) = some (date, rest) := by
  have hhyphen : ∀ cs : List Char, ∀ c ∈ ('-' :: cs).head?, c.isDigit = false := by
    rintro _ _ ⟨⟩
    rfl
  unfold date?
  simp only [year?_renderYear _ (hhyphen _), mark?_cons (c := '-') (by decide),
    twoDigits?_padded hmonth, twoDigits?_padded hday, Option.bind_eq_bind, Option.bind_some]
  exact if_pos ⟨hfirst, hlast, hvalid⟩

/-! ## Times -/

/-- A fraction below one second is read as written, if it ends where its digits end. -/
theorem fraction?_renderFraction {nano : Nat} (h : nano < nanosPerSecond)
    (hstop : ∀ c ∈ rest.head?, c.isDigit = false) (hpoint : rest.head? ≠ some '.') :
    fraction? ((renderFraction nano).toList ++ rest) = some (nano, rest) := by
  -- milliseconds, microseconds and nanoseconds are read in the same way
  have hplaces : ∀ width n, 0 < width → width ≤ 9 → n < 10 ^ width →
      fraction? ('.' :: ((Text.padded width n).toList ++ rest)) =
        some (n * Nat.pow 10 (9 - width), rest) := by
    intro width n hpos hle hn
    have hlength := Text.length_padded hpos hn
    have hdigits : ∀ c ∈ (Text.padded width n).toList, c.isDigit = true :=
      fun _ hc => Text.isDigit_of_mem_padded hc
    unfold fraction?
    simp only [takeDigits?_append hdigits Text.padded_ne_nil (hlength.trans_le hle) (.inr hstop),
      Text.dropWhile_digits hdigits hstop, Option.bind_eq_bind, Option.bind_some,
      Text.natOfDigits_padded, hlength]
  have hlt : nano < 1000000000 := h
  unfold renderFraction
  split
  · rename_i hzero
    rw [hzero, String.toList_empty, List.nil_append]
    unfold fraction?
    split
    · exact absurd rfl hpoint
    · rfl
  · simp only [apply_ite String.toList, String.toList_append, String.reduceToList,
      List.cons_append, List.nil_append]
    split
    · have hread := hplaces 3 (nano / 1000000) (by decide) (by decide) (by omega)
      rw [show nano / 1000000 * Nat.pow 10 (9 - 3) = nano by
        show nano / 1000000 * 1000000 = nano
        omega] at hread
      exact hread
    · split
      · have hread := hplaces 6 (nano / 1000) (by decide) (by decide) (by omega)
        rw [show nano / 1000 * Nat.pow 10 (9 - 6) = nano by
          show nano / 1000 * 1000 = nano
          omega] at hread
        exact hread
      · have hread := hplaces 9 nano (by decide) (by decide) hlt
        rw [show nano * Nat.pow 10 (9 - 9) = nano from Nat.mul_one nano] at hread
        exact hread

/-- The time of a second of the day is read as written. -/
theorem time?_render {inDay nano : Nat} (hinDay : inDay < 86400) (hnano : nano < nanosPerSecond)
    (hstop : ∀ c ∈ rest.head?, c.isDigit = false) (hpoint : rest.head? ≠ some '.') :
    time? ((Text.padded 2 (inDay / 3600)).toList ++ ':' ::
      ((Text.padded 2 (inDay / 60 % 60)).toList ++ ':' ::
        ((Text.padded 2 (inDay % 60)).toList ++ ((renderFraction nano).toList ++ rest)))) =
      some ((inDay, nano), rest) := by
  unfold time?
  have hhour : inDay / 3600 < 100 := by omega
  have hminute : inDay / 60 % 60 < 100 := by omega
  have hsecond : inDay % 60 < 100 := by omega
  simp only [twoDigits?_padded hhour, twoDigits?_padded hminute, twoDigits?_padded hsecond,
    mark?_cons (c := ':') (by decide), fraction?_renderFraction hnano hstop hpoint,
    Option.bind_eq_bind, Option.bind_some]
  rw [if_pos (by omega)]
  -- a second of the day is never a leap second
  have hleap : inDay % 60 / 60 = 0 := by omega
  have hsum : inDay / 3600 * 3600 + inDay / 60 % 60 * 60 + inDay % 60 = inDay := by omega
  rw [hleap, hsum, Nat.sub_zero, Nat.zero_mul, Nat.add_zero]

theorem offset?_utc : offset? ['Z'] = some (0, []) := by decide

/-! ## Timestamps -/

/-- The written form of a timestamp without a leap second. -/
theorem toList_render {t : Timestamp} (h : t.nano < nanosPerSecond) :
    let date := Civil.ofDays (t.second / secondsPerDay)
    let inDay := (t.second % secondsPerDay).toNat
    t.render.toList = (renderYear date.year).toList ++ '-' :: ((Text.padded 2 date.month).toList ++
      '-' :: ((Text.padded 2 date.day).toList ++ ('T' :: ((Text.padded 2 (inDay / 3600)).toList ++
        ':' :: ((Text.padded 2 (inDay / 60 % 60)).toList ++ ':' ::
          ((Text.padded 2 (inDay % 60)).toList ++
            ((renderFraction t.nano).toList ++ ['Z']))))))) := by
  intro date inDay
  unfold render
  simp only [Nat.div_eq_of_lt h, Nat.mod_eq_of_lt h, Nat.add_zero, String.toList_append,
    String.reduceToList, List.append_assoc, List.cons_append, List.nil_append]
  rfl

/-- Every timestamp of a clock is read from its written form. -/
theorem read?_render {t : Timestamp} (hnano : t.nano < nanosPerSecond)
    (hrange : inRange t.second = true) : read? t.render = some t := by
  have hseconds := hrange
  unfold inRange at hseconds
  simp only [Bool.and_eq_true, decide_eq_true_eq] at hseconds
  have hdays : Civil.toDays ⟨firstYear, 1, 1⟩ ≤ t.second / secondsPerDay ∧
      t.second / secondsPerDay ≤ Civil.toDays ⟨lastYear, 12, 31⟩ := by
    unfold firstSecond lastSecond secondsPerDay at hseconds
    unfold secondsPerDay
    omega
  obtain ⟨hfirst, hlast⟩ := Civil.year_ofDays_mem hdays.1 hdays.2
  have hinDay : (t.second % secondsPerDay).toNat < 86400 := by
    unfold secondsPerDay
    omega
  have hdate := fun rest => @date?_render rest _ hfirst hlast (Civil.isValid_ofDays _)
    (Civil.month_ofDays_lt _) (Civil.day_ofDays_lt _)
  have htime := @time?_render ['Z'] _ _ hinDay hnano (by rintro _ ⟨⟩; rfl) (by decide)
  unfold read?
  rw [toList_render hnano]
  have hblank : Text.skipBlanks ['Z'] = ['Z'] := by decide
  simp only [hdate, separator?, htime, hblank, offset?_utc, Option.bind_eq_bind, Option.bind_some]
  have hsecond : (Civil.ofDays (t.second / secondsPerDay)).toDays * secondsPerDay +
      ((t.second % secondsPerDay).toNat : Int) - 0 = t.second := by
    rw [Civil.toDays_ofDays]
    unfold secondsPerDay
    omega
  rw [hsecond]
  exact if_pos ⟨rfl, hrange⟩

end Timestamp
end Bulwark
