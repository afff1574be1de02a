import Bulwark.Proofs.Json.Text
import Bulwark.Proofs.Store.Visible
import Bulwark.Proofs.Time.Rfc3339
import Bulwark.Proofs.Time.Timestamp
import Bulwark.Revocation.Entry

/-!
# Entries that outlive their writing

What a store keeps for a revoked token is read as the entry that was written (`read?_render`).  A
revocation is dated by a clock, which shows no leap second.  Its entry lapses at the end of the
lifetime, or at the end of the calendar (`expiresAt_eq`), and its key at the end of the lifetime, if
a clock can show that.  Before the end of the calendar both are one moment (`expiresAt_exact`).
-/

namespace Bulwark.BlacklistEntry

/-! ## Reading what was written -/

/-- The fields of an entry as they are read. -/
def rawFields (e : BlacklistEntry) : List (Option String × Json.Raw) :=
  [(some "reason", .string (some e.reason)),
    (some "inserted_at", .string (some e.insertedAt.render)),
    (some "ttl_seconds", .number (Json.natural e.ttlSeconds))]

theorem parse?_render (e : BlacklistEntry) :
    Json.Raw.parse? e.render = some (.object e.rawFields) := by
  refine Json.Raw.parse?_render_object ?_ (List.cons_ne_nil _ _)
  exact .cons ⟨rfl, .string _⟩ (.cons ⟨rfl, .string _⟩ (.cons ⟨rfl, .nat _⟩ .nil))

theorem recordFields?_rawFields (e : BlacklistEntry) :
    Json.recordFields? ["reason", "inserted_at", "ttl_seconds"] (.object e.rawFields) =
      some [some (.string (some e.reason)), some (.string (some e.insertedAt.render)),
        some (.number (Json.natural e.ttlSeconds))] := by
  simp [Json.recordFields?, rawFields, Json.fieldOf?, Json.occurrences]

/-- An entry dated by a clock, with a lifetime that fits into 64 bits, is read as it was written. -/
theorem read?_render {e : BlacklistEntry} (hnano : e.insertedAt.nano < nanosPerSecond)
    (hrange : Timestamp.inRange e.insertedAt.second = true)
    (httl : e.ttlSeconds ≤ Text.maxUnsigned) : read? e.render = some e := by
  have hdate : Json.required decodeTimestamp (some (.string (some e.insertedAt.render))) =
      some e.insertedAt := by
    unfold Json.required decodeTimestamp Json.Decoder.string
    simp only [Option.bind_some]
    exact Timestamp.read?_render hnano hrange
  have hnat : Json.required (Json.Decoder.natUpTo Text.maxUnsigned)
      (some (.number (Json.natural e.ttlSeconds))) = some e.ttlSeconds := by
    unfold Json.required Json.Decoder.natUpTo
    simp only [Option.bind_some, Json.value?_natural httl]
    exact if_pos ⟨Int.natCast_nonneg _, Int.ofNat_le.mpr httl⟩
  have hreason : Json.required Json.Decoder.string (some (.string (some e.reason))) =
      some e.reason := rfl
  unfold read?
  rw [parse?_render, Option.bind_eq_bind, Option.bind_some]
  unfold decode
  simp only [recordFields?_rawFields, hreason, hdate, hnat, Option.bind_eq_bind, Option.bind_some]

/-! ## Two ways to lapse -/

/-- The entry of a revocation. -/
def of (t : Instant) (reason : String) (ttlSeconds : Nat) : BlacklistEntry :=
  ⟨reason, t.date, ttlSeconds⟩

variable {t now : Instant} {reason : String} {ttlSeconds : Nat}

theorem read?_render_of (ht : t.IsDated) (httl : ttlSeconds ≤ Text.maxUnsigned) :
    read? (of t reason ttlSeconds).render = some (of t reason ttlSeconds) :=
  read?_render t.subsecond_lt ht.inRange httl

/-- An entry lapses within the calendar, for whatever time it was written. -/
theorem inRange_expiresAt {e : BlacklistEntry} (h : Timestamp.inRange e.insertedAt.second = true) :
    Timestamp.inRange e.expiresAt.second = true := by
  unfold expiresAt
  cases hlater : e.insertedAt.later? e.lifetime with
  | none => decide
  | some limit => exact Timestamp.inRange_of_later? h hlater

/-- The step to the end of a lifetime is as long as that, or the longest step. -/
theorem nanos_lifetime (e : BlacklistEntry) :
    e.lifetime.nanos = min (e.ttlSeconds * nanosPerSecond) Timestamp.longestStep.nanos := by
  unfold lifetime
  dsimp only
  split
  · exact Timestamp.nanos_stepOfSeconds? e.ttlSeconds
  · -- what does not fit into 64 bits is longer than every step
    rename_i hunfit
    have hlongest : Timestamp.longestStep.nanos = 9223372036854775807000000 := by decide
    unfold Text.fitsSigned Text.minSigned Text.maxSigned at hunfit
    simp only [Bool.and_eq_true, decide_eq_true_eq] at hunfit
    rw [Option.getD_none, hlongest]
    unfold nanosPerSecond
    omega

/-- An entry lapses at the end of its lifetime, or at the end of the calendar. -/
theorem expiresAt_eq (ht : Timestamp.inRange t.second = true) :
    (of t reason ttlSeconds).expiresAt =
      Instant.date ⟨min (t.nanos + ttlSeconds * nanosPerSecond) Instant.lastDated.nanos⟩ := by
  obtain ⟨hfirst, hlast⟩ := Instant.inRange_second_iff.mp ht
  have hlifetime : (of t reason ttlSeconds).lifetime.nanos =
      min (ttlSeconds * nanosPerSecond) Timestamp.longestStep.nanos := nanos_lifetime _
  -- where the lifetime is cut, the end of the calendar comes before either end
  have hcut : min (t.nanos + (of t reason ttlSeconds).lifetime.nanos) Instant.lastDated.nanos =
      min (t.nanos + ttlSeconds * nanosPerSecond) Instant.lastDated.nanos := by
    have hlongest := Timestamp.lastDated_lt_longestStep
    rw [hlifetime]
    omega
  calc (of t reason ttlSeconds).expiresAt
      = (Timestamp.ofInstant? ⟨t.nanos + (of t reason ttlSeconds).lifetime.nanos⟩).getD .latest :=
        congrArg (·.getD .latest) (Timestamp.later?_date t _)
    _ = Instant.date
          ⟨min (t.nanos + (of t reason ttlSeconds).lifetime.nanos) Instant.lastDated.nanos⟩ := by
        refine Timestamp.ofInstant?_getD_latest ?_
        dsimp only
        omega
    _ = _ := by rw [hcut]

/-- An entry has lapsed when its lifetime is over, even where no date can show the end of it. -/
theorem isExpiredAt_iff (ht : Timestamp.inRange t.second = true) (hnow : now.IsDated) :
    (of t reason ttlSeconds).isExpiredAt now.date = true ↔
      t.nanos + ttlSeconds * nanosPerSecond ≤ now.nanos := by
  have hbefore := hnow.lt_lastDated
  unfold isExpiredAt
  rw [decide_eq_true_eq, expiresAt_eq ht, Instant.date_le_iff]
  dsimp only
  omega

/-- What has lapsed stays so. -/
theorem isExpiredAt_of_le {e : BlacklistEntry} (hle : t ≤ now) (h : e.isExpiredAt t.date = true) :
    e.isExpiredAt now.date = true := by
  unfold isExpiredAt at h ⊢
  rw [decide_eq_true_eq] at h ⊢
  exact Timestamp.le_trans h (Instant.date_le_iff.mpr hle)

/-- A key is live until the lifetime of its entry is over, even where no clock can show the end of
it. -/
theorem isLive_deadline_iff (ht : Timestamp.inRange t.second = true) (hnow : now.IsDated)
    (value : StoredValue) :
    (⟨value, t.later? (.ofSeconds ttlSeconds)⟩ : StoredEntry).isLive now = true ↔
      now.nanos < t.nanos + ttlSeconds * nanosPerSecond := by
  have hsum : ((Duration.ofSeconds ttlSeconds).nanos : Int) = ttlSeconds * nanosPerSecond :=
    Int.natCast_mul _ _
  rw [StoredEntry.isLive_later?_iff (Instant.isHeld_of_inRange ht) hnow.isHeld, hsum]

/-- A later revocation, or one for longer, lapses no earlier. -/
theorem expiresAt_mono {later : Instant} {reason' : String} {longer : Nat}
    (ht : Timestamp.inRange t.second = true) (hlater : Timestamp.inRange later.second = true)
    (hle : t ≤ later) (httl : ttlSeconds ≤ longer) :
    (of t reason ttlSeconds).expiresAt ≤ (of later reason' longer).expiresAt := by
  have hlength : ttlSeconds * nanosPerSecond ≤ longer * nanosPerSecond :=
    Nat.mul_le_mul_right _ httl
  rw [Instant.le_def] at hle
  rw [expiresAt_eq ht, expiresAt_eq hlater, Instant.date_le_iff]
  dsimp only
  omega

/-- **Both ways to lapse agree.**  Revoked at any moment of the calendar and for any length of time,
an entry lapses at a date that the calendar has: the sum of both, or the end of the calendar where
the sum is beyond it.  A later revocation, or one for longer, lapses no earlier.  At every moment
before the end of the calendar the entry has not lapsed exactly if a key with the same lifetime is
live, also where no clock can show the deadline of the key. -/
theorem expiresAt_exact {t : Instant} (ht : Timestamp.inRange t.second = true) (reason : String)
    (ttlSeconds : Nat) :
    let e := of t reason ttlSeconds
    Timestamp.inRange e.expiresAt.second = true ∧
      e.expiresAt =
        Instant.date ⟨min (t.nanos + ttlSeconds * nanosPerSecond) Instant.lastDated.nanos⟩ ∧
      (∀ later longer, Timestamp.inRange later.second = true → t ≤ later → ttlSeconds ≤ longer →
        e.expiresAt ≤ (of later reason longer).expiresAt) ∧
      ∀ now value, now.IsDated → (e.isExpiredAt now.date = false ↔
        (⟨value, t.later? (.ofSeconds ttlSeconds)⟩ : StoredEntry).isLive now = true) := by
  intro e
  refine ⟨inRange_expiresAt ht, expiresAt_eq ht, ?_, ?_⟩
  · intro later longer hlater hle httl
    exact expiresAt_mono ht hlater hle httl
  · intro now value hnow
    rw [← Bool.not_eq_true, isExpiredAt_iff ht hnow, isLive_deadline_iff ht hnow]
    omega

/-- Revoked at the start of the calendar, for a minute and for `2^64 - 1` seconds.  No date and no
clock can show the end of the longer lifetime. -/
theorem expiresAt_exact_longest :
    let first : Instant := ⟨Timestamp.firstSecond * nanosPerSecond⟩
    let last : Instant := ⟨Instant.lastDated.nanos - 1⟩
    let brief := of first "compromised" 60
    let long := of first "compromised" Text.maxUnsigned
    Timestamp.inRange first.second = true ∧ last.IsDated ∧
      first.later? (.ofSeconds Text.maxUnsigned) = none ∧
      long.expiresAt = .latest ∧ brief.expiresAt ≤ long.expiresAt ∧
      long.isExpiredAt last.date = false ∧
      brief.isExpiredAt (Instant.date ⟨first.nanos + 59999999999⟩) = false ∧
      brief.isExpiredAt (Instant.date ⟨first.nanos + 60000000000⟩) = true := by
  intro first last brief long
  have hfirst : Timestamp.inRange first.second = true := by decide
  have hlast : last.IsDated := ⟨by decide, by decide⟩
  obtain ⟨-, -, hmono, hbrief⟩ := expiresAt_exact hfirst "compromised" 60
  obtain ⟨-, hexpires, -, hlong⟩ := expiresAt_exact hfirst "compromised" Text.maxUnsigned
  refine ⟨hfirst, hlast, by decide, hexpires.trans (by decide), ?_, ?_, ?_, ?_⟩
  · exact hmono first Text.maxUnsigned hfirst (Instant.le_refl first) (by decide)
  · exact (hlong last (.text "entry") hlast).mpr (by decide)
  · exact (hbrief _ (.text "entry") ⟨by decide, by decide⟩).mpr (by decide)
  · rw [← Bool.not_eq_false, hbrief _ (.text "entry") ⟨by decide, by decide⟩]
    decide

end Bulwark.BlacklistEntry
