import Mathlib.Order.Basic
import Bulwark.Time.Instant

/-!
# Moments and deadlines

The order of moments is the order of their nanoseconds, and the moment a length of time later, where
a clock can show it, is their sum.  Where no clock can show it, it is later than whatever a clock
can show (`lt_of_later?_eq_none`).
-/

namespace Bulwark.Instant

variable {t u v : Instant}

theorem le_def : t ≤ u ↔ t.nanos ≤ u.nanos := Iff.rfl

theorem lt_def : t < u ↔ t.nanos < u.nanos := Iff.rfl

protected theorem le_refl (t : Instant) : t ≤ t := Int.le_refl t.nanos

/-- The moment a length of time later, where a clock can show it. -/
theorem later?_eq_some_iff {d : Duration} :
    t.later? d = some u ↔ u.nanos = t.nanos + d.nanos ∧ u.isHeld = true := by
  unfold later?
  simp only []
  constructor
  · intro h
    split at h
    · obtain rfl := Option.some.inj h
      exact ⟨rfl, ‹_›⟩
    · exact absurd h (by simp)
  · rintro ⟨hsum, hheld⟩
    have hu : u = ⟨t.nanos + d.nanos⟩ := by
      cases u
      exact congrArg Instant.mk hsum
    rw [← hu, if_pos hheld]

/-- Between two moments that a clock can show it can show every moment. -/
theorem isHeld_of_between (ht : t.isHeld = true) (hv : v.isHeld = true) (htu : t ≤ u)
    (huv : u ≤ v) : u.isHeld = true := by
  rw [le_def] at htu huv
  unfold isHeld Text.fitsSigned second nanosPerSecond at *
  simp only [Bool.and_eq_true, decide_eq_true_eq] at *
  omega

/-- A time that ends where no clock can show it outlasts every clock. -/
theorem lt_of_later?_eq_none {d : Duration} (ht : t.isHeld = true) (hu : u.isHeld = true)
    (h : t.later? d = none) : u.nanos < t.nanos + d.nanos := by
  have hsum : ¬ isHeld ⟨t.nanos + d.nanos⟩ = true := by
    intro hsum
    rw [later?_eq_some_iff.mpr ⟨rfl, hsum⟩] at h
    cases h
  unfold isHeld Text.fitsSigned second nanosPerSecond at *
  simp only [Bool.and_eq_true, decide_eq_true_eq] at *
  omega

end Bulwark.Instant
