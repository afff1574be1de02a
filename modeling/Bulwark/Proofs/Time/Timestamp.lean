import Mathlib.Order.Basic
import Bulwark.Proofs.Time.Instant
import Bulwark.Time.Timestamp

/-!
# Moments and their dates

A moment has a date whether or not the calendar has it (`Instant.date`).  Dates are ordered as the
moments are (`date_le_iff`), those of the calendar lie between two moments that every clock can show
(`inRange_second_iff`), and a step from a date leads to the date of the sum (`later?_date`).
-/

namespace Bulwark

/-! ## The order of dates -/

namespace Timestamp

theorem le_trans {a b c : Timestamp} (hab : a ≤ b) (hbc : b ≤ c) : a ≤ c := by
  have hab' : a.second < b.second ∨ (a.second = b.second ∧ a.nano ≤ b.nano) := hab
  have hbc' : b.second < c.second ∨ (b.second = c.second ∧ b.nano ≤ c.nano) := hbc
  show a.second < c.second ∨ (a.second = c.second ∧ a.nano ≤ c.nano)
  omega

theorem lt_iff_not_le {a b : Timestamp} : a < b ↔ ¬ b ≤ a := by
  show (a.second < b.second ∨ (a.second = b.second ∧ a.nano < b.nano)) ↔
    ¬ (b.second < a.second ∨ (b.second = a.second ∧ b.nano ≤ a.nano))
  omega

end Timestamp

namespace Instant

/-- The date of a moment, whether or not the calendar has it. -/
def date (t : Instant) : Timestamp := ⟨t.second, t.subsecond⟩

/-- The last moment of the calendar. -/
def lastDated : Instant := ⟨Timestamp.lastSecond * nanosPerSecond + 999999999⟩

/-- Whether a moment lies in the calendar, strictly before its end. -/
structure IsDated (t : Instant) : Prop where
  inRange : Timestamp.inRange t.second = true
  before_latest : t.date < .latest

variable {t u : Instant}

theorem subsecond_lt (t : Instant) : t.subsecond < nanosPerSecond := by
  unfold subsecond nanosPerSecond
  omega

theorem nanos_eq (t : Instant) : t.nanos = t.second * nanosPerSecond + t.subsecond := by
  unfold second subsecond nanosPerSecond
  omega

/-- Dates are ordered as the moments. -/
theorem date_le_iff : t.date ≤ u.date ↔ t.nanos ≤ u.nanos := by
  have ht := t.nanos_eq
  have hu := u.nanos_eq
  have htlt := t.subsecond_lt
  have hult := u.subsecond_lt
  show (t.second < u.second ∨ (t.second = u.second ∧ t.subsecond ≤ u.subsecond)) ↔ _
  unfold nanosPerSecond at *
  omega

theorem date_lt_iff : t.date < u.date ↔ t.nanos < u.nanos := by
  rw [Timestamp.lt_iff_not_le, date_le_iff, Int.not_le]

theorem date_lastDated : lastDated.date = .latest := by decide

theorem date_lt_latest_iff : t.date < .latest ↔ t.nanos < lastDated.nanos := by
  rw [← date_lastDated, date_lt_iff]

/-- What comes no later than a moment before the end of the calendar is before it, too. -/
theorem date_lt_latest_of_le (hle : t ≤ u) (hu : u.date < .latest) : t.date < .latest :=
  date_lt_latest_iff.mpr (Int.lt_of_le_of_lt hle (date_lt_latest_iff.mp hu))

/-! ## The range of the calendar -/

theorem firstSecond_eq : Timestamp.firstSecond = -8334601228800 := by decide

theorem lastSecond_eq : Timestamp.lastSecond = 8210266876799 := by decide

/-- The calendar has the moments from the start of its first second to its last moment. -/
theorem inRange_second_iff : Timestamp.inRange t.second = true ↔
    Timestamp.firstSecond * nanosPerSecond ≤ t.nanos ∧ t.nanos ≤ lastDated.nanos := by
  unfold Timestamp.inRange lastDated second nanosPerSecond
  simp only [Bool.and_eq_true, decide_eq_true_eq]
  omega

/-- A clock can show every moment of the calendar. -/
theorem isHeld_of_inRange (h : Timestamp.inRange t.second = true) : t.isHeld = true := by
  have hfirst := firstSecond_eq
  have hlast := lastSecond_eq
  unfold Timestamp.inRange at h
  unfold Instant.isHeld Text.fitsSigned Text.minSigned Text.maxSigned
  simp only [Bool.and_eq_true, decide_eq_true_eq] at h ⊢
  omega

theorem IsDated.ofInstant? (h : t.IsDated) : Timestamp.ofInstant? t = some t.date :=
  if_pos h.inRange

theorem IsDated.isHeld (h : t.IsDated) : t.isHeld = true := isHeld_of_inRange h.inRange

theorem IsDated.lt_lastDated (h : t.IsDated) : t.nanos < lastDated.nanos :=
  date_lt_latest_iff.mp h.before_latest

/-- What comes after a moment of the calendar, and before its end, is one of its moments. -/
theorem IsDated.of_le (ht : Timestamp.inRange t.second = true) (hle : t ≤ u)
    (hu : u.date < .latest) : u.IsDated := by
  have hfirst := (inRange_second_iff.mp ht).1
  have hlast := date_lt_latest_iff.mp hu
  rw [le_def] at hle
  exact ⟨inRange_second_iff.mpr (by omega), hu⟩

theorem IsDated.later (ht : t.IsDated) (hle : t ≤ u) (hu : u.date < .latest) : u.IsDated :=
  .of_le ht.inRange hle hu

/-- What lies between two moments of the calendar is one. -/
theorem IsDated.of_between {v : Instant} (ht : Timestamp.inRange t.second = true) (htu : t ≤ u)
    (huv : u ≤ v) (hv : v.IsDated) : u.IsDated :=
  .of_le ht htu (date_lt_latest_of_le huv hv.before_latest)

end Instant

/-! ## Steps between dates -/

namespace Timestamp

/-- A step from the date of a moment leads to the date of the sum, where the calendar has it. -/
theorem later?_date (t : Instant) (d : Duration) :
    t.date.later? d = ofInstant? ⟨t.nanos + d.nanos⟩ := by
  have hbelow := t.subsecond_lt
  have hsecond : t.second + ((t.subsecond % nanosPerSecond + d.nanos) / nanosPerSecond : Nat) =
      Instant.second ⟨t.nanos + d.nanos⟩ := by
    unfold Instant.second Instant.subsecond nanosPerSecond
    dsimp only
    omega
  have hsubsecond : (t.subsecond % nanosPerSecond + d.nanos) % nanosPerSecond =
      Instant.subsecond ⟨t.nanos + d.nanos⟩ := by
    unfold Instant.subsecond nanosPerSecond
    dsimp only
    omega
  unfold later? Instant.date ofInstant?
  -- the date of a moment is not in a leap second
  rw [if_neg fun h => Nat.not_le.mpr hbelow h.1]
  simp only [hsecond, hsubsecond]

/-- No step leads out of the calendar, from a leap second neither. -/
theorem inRange_of_later? {t u : Timestamp} {d : Duration} (ht : inRange t.second = true)
    (h : t.later? d = some u) : inRange u.second = true := by
  unfold later? at h
  split at h
  · obtain rfl := Option.some.inj h
    exact ht
  · dsimp only at h
    split at h
    · obtain rfl := Option.some.inj h
      assumption
    · cases h

/-- The date of a moment after the start of the calendar, or the end of the calendar. -/
theorem ofInstant?_getD_latest {t : Instant} (h : firstSecond * nanosPerSecond ≤ t.nanos) :
    (ofInstant? t).getD .latest = Instant.date ⟨min t.nanos Instant.lastDated.nanos⟩ := by
  unfold ofInstant?
  split
  · rename_i hdated
    rw [Int.min_eq_left (Instant.inRange_second_iff.mp hdated).2]
    rfl
  · rename_i hundated
    rw [Instant.inRange_second_iff, not_and, Int.not_le] at hundated
    rw [Int.min_eq_right (Int.le_of_lt (hundated h))]
    exact Instant.date_lastDated.symm

/-- So many seconds, or the longest step where they are longer. -/
theorem nanos_stepOfSeconds? (n : Nat) : ((stepOfSeconds? n).getD longestStep).nanos =
    min (n * nanosPerSecond) longestStep.nanos := by
  unfold stepOfSeconds?
  dsimp only
  split
  · rename_i hle
    exact (Nat.min_eq_left hle).symm
  · rename_i hlonger
    exact (Nat.min_eq_right (Nat.le_of_not_le hlonger)).symm

/-- The longest step leads out of the calendar from everywhere in it. -/
theorem lastDated_lt_longestStep :
    Instant.lastDated.nanos < firstSecond * nanosPerSecond + longestStep.nanos := by decide

end Timestamp
end Bulwark
