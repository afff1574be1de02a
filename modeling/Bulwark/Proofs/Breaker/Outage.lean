import Bulwark.Proofs.Breaker.Trials

/-!
# A breaker in an outage

While every call fails, a breaker lets through as many calls as it takes to trip it, and from then
on one for each recovery timeout that has passed.  `Strained` bounds the failures that a breaker has
been told of, by what it is: a closed one counts them, and one that has tripped has waited a timeout
for each further one.
-/

namespace Bulwark.Breaker

/-- A breaker that has been told of so many failures and of nothing else.  The moment is that at
which it first tripped, and no call came after `last`. -/
inductive Strained (s : BreakerSettings) (last : Instant) (b : Breaker) (failures : ℕ) :
    Option Instant → Prop
  /-- It has not tripped yet and counts every failure. -/
  | closed : b.phase = .closed → b.failures.toNat = failures →
      failures < max s.failureThreshold 1 → Strained s last b failures none
  /-- It has tripped, and what it waits since lies `k` timeouts later, one for each further
  failure. -/
  | waiting {first since : Instant} {k : ℕ} : b.WaitsSince since → since ≤ last →
      failures ≤ max s.failureThreshold 1 + k →
      first.nanos + k * s.recoveryTimeout.nanos ≤ since.nanos →
      Strained s last b failures (some first)

/-- The recovery timeouts that have passed since a breaker first tripped, if it has. -/
def timeoutsSince (s : BreakerSettings) (last : Instant) : Option Instant → ℕ
  | none => 0
  | some first => (first.timeTo last).nanos / s.recoveryTimeout.nanos

/-- What a moment can do to the moment of the first trip: it stays, or there was none and it is this
one. -/
def MayTrip (now : Instant) (before after : Option Instant) : Prop :=
  after = before ∨ before = none ∧ after = some now

variable {s : BreakerSettings} {last now : Instant} {b : Breaker} {failures : ℕ}
  {tripped tripped' tripped'' : Option Instant}

theorem MayTrip.refl (now : Instant) (tripped : Option Instant) : MayTrip now tripped tripped :=
  .inl rfl

theorem MayTrip.trans (h : MayTrip now tripped tripped') (h' : MayTrip now tripped' tripped'') :
    MayTrip now tripped tripped'' := by
  rcases h with rfl | ⟨rfl, rfl⟩
  · exact h'
  · rcases h' with rfl | ⟨hnone, _⟩
    · exact .inr ⟨rfl, rfl⟩
    · cases hnone

theorem strained_fresh (s : BreakerSettings) (last : Instant) : Strained s last fresh 0 none :=
  .closed rfl rfl (Nat.lt_of_lt_of_le Nat.zero_lt_one (Nat.le_max_right _ _))

theorem Strained.phase_closed_iff (h : Strained s last b failures tripped) :
    b.phase = .closed ↔ tripped = none := by
  cases h with
  | closed hphase => exact ⟨fun _ => rfl, fun _ => hphase⟩
  | waiting hwaits => exact ⟨fun hphase => absurd hphase hwaits.phase_ne_closed, nofun⟩

/-- As many failures as it takes to trip a breaker, and one for each timeout since. -/
theorem Strained.failures_le (h : Strained s last b failures tripped)
    (hT : 0 < s.recoveryTimeoutSeconds) :
    failures ≤ max s.failureThreshold 1 + timeoutsSince s last tripped := by
  cases h with
  | closed _ _ hfew => exact hfew.le
  | @waiting first since k _ hlast hfew hfirst =>
    have hpos : 0 < s.recoveryTimeout.nanos := Nat.lt_trans Nat.zero_lt_one (one_lt_timeout hT)
    have hpassed : k * s.recoveryTimeout.nanos ≤ (first.timeTo last).nanos := by
      rw [Instant.le_def] at hlast
      show _ ≤ (last.nanos - first.nanos).toNat
      zify
      omega
    exact hfew.trans (Nat.add_le_add_left ((Nat.le_div_iff_mul_le hpos).mpr hpassed) _)

/-- A failure of a call that a breaker has let through. -/
theorem Strained.failure (h : Strained s last b failures tripped)
    (hT : 0 < s.recoveryTimeoutSeconds) (hthreshold : s.failureThreshold < UInt64.size)
    (hnow : now ≤ last) (hallowed : (b.allow s (reading now)).1 = true) :
    ∃ tripped', Strained s last ((b.allow s (reading now)).2.recordFailure s (reading now))
        (failures + 1) tripped' ∧ MayTrip now tripped tripped' := by
  cases h with
  | closed hphase hcount hfew =>
    have hcounted : (b.failures + 1).toNat = failures + 1 := by
      have hone : (1 : UInt64).toNat = 1 := rfl
      have hsmall : failures + 1 < UInt64.size := by
        have hsize : 1 < UInt64.size := by decide
        omega
      rw [UInt64.toNat_add, hcount, hone, Nat.mod_eq_of_lt hsmall]
    rw [allow_of_closed hphase]
    by_cases htrips : s.failureThreshold ≤ failures + 1
    · have htripped : (b.recordFailure s (reading now)).phase = .tripped := by
        simp [recordFailure, tripsOnFailure, hphase, hcounted, htrips]
      have hwaits := waitsSince_of_trips (by rw [hphase]; nofun) htripped
      refine ⟨some now, .waiting hwaits hnow (k := 0) ?_ ?_, .inr ⟨rfl, rfl⟩⟩
      · omega
      · omega
    · have hclosed : (b.recordFailure s (reading now)).phase = .closed := by
        simp [recordFailure, tripsOnFailure, hphase, hcounted, htrips]
      exact ⟨none, .closed hclosed hcounted (by omega), .inl rfl⟩
  | @waiting first since k hwaits _ hfew hfirst =>
    rcases hwaits.allow hT now with hrefused | ⟨b', hallow, htries, hpassed⟩
    · rw [hrefused] at hallowed
      cases hallowed
    · rw [hallow]
      refine ⟨some first, .waiting (htries.recordFailure now) hnow (k := k + 1) ?_ ?_,
        .inl rfl⟩
      · omega
      · push_cast
        linarith

end Bulwark.Breaker
