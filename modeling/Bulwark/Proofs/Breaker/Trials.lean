import Mathlib.Tactic.Linarith
import Bulwark.Proofs.Breaker.Run

/-!
# Trial calls are rationed

A breaker that has tripped lets trial calls through one by one, each at least a recovery timeout
after what made it wait: the last failure, or the start of the trial before.  So the trials since a
failure are a timeout apart from it and from each other, whatever becomes of them, until a success
or a reset ends the waiting (`trials_spaced`).

The invariant is that a waiting breaker knows the reading of one moment it has waited since
(`WaitsSince`).  The two notes that it keeps take turns at that: a trial that starts is noted in
place of the failure, and a failure in place of the trial.
-/

namespace Bulwark.Breaker

variable {s : BreakerSettings} {b : Breaker} {t since : Instant}

/-! ## Waiting -/

/-- A breaker that has waited since a moment: its last failure, or the start of the trial that is
out. -/
inductive WaitsSince (b : Breaker) (since : Instant) : Prop where
  | failed (phase : b.phase = .tripped) (idle : b.trialStart = 0)
      (noted : b.lastFailure = reading since)
  | trying (phase : b.phase = .trial) (out : b.trialStart ≠ 0)
      (noted : b.trialStart = reading since)

theorem WaitsSince.phase_ne_closed (h : b.WaitsSince since) : b.phase ≠ .closed := by
  cases h with
  | failed phase => rw [phase]; nofun
  | trying phase => rw [phase]; nofun

/-- A timeout is longer than the tick by which a trial at zero is noted late. -/
theorem one_lt_timeout (hT : 0 < s.recoveryTimeoutSeconds) : 1 < s.recoveryTimeout.nanos := by
  have hnanos : s.recoveryTimeout.nanos = s.recoveryTimeoutSeconds * 1000000000 := rfl
  omega

/-- A breaker that waits and does not refuse has waited for a timeout. -/
theorem WaitsSince.timeout_le (h : b.WaitsSince since) (hT : 0 < s.recoveryTimeoutSeconds)
    (hpass : ¬ b.Refuses s (reading t)) :
    s.recoveryTimeout.nanos ≤ reading t - reading since := by
  have hlong : 1 < s.recoveryTimeout.nanos := one_lt_timeout hT
  unfold Refuses isRecent at hpass
  simp only [decide_eq_true_eq, not_or, not_and] at hpass
  cases h with
  | failed phase idle noted =>
    rw [← noted]
    exact Nat.not_lt.mp (hpass.1 phase)
  | trying phase out noted =>
    have hwaited := hpass.2 (by rw [phase]; nofun) out
    omega

/-- Time that has shown on the clock of a waiting breaker has passed. -/
theorem WaitsSince.add_timeout_le (h : b.WaitsSince since) (hT : 0 < s.recoveryTimeoutSeconds)
    (hpass : ¬ b.Refuses s (reading t)) :
    since.nanos + s.recoveryTimeout.nanos ≤ t.nanos :=
  timeBetween_of_reading (Nat.lt_trans Nat.zero_lt_one (one_lt_timeout hT))
    (h.timeout_le hT hpass)

/-- A call to a waiting breaker is refused, or a timeout has passed and the waiting starts anew. -/
theorem WaitsSince.allow (h : b.WaitsSince since) (hT : 0 < s.recoveryTimeoutSeconds)
    (t : Instant) : b.allow s (reading t) = (false, b) ∨
      ∃ b' : Breaker, b.allow s (reading t) = (true, b') ∧ b'.WaitsSince t ∧
        since.nanos + s.recoveryTimeout.nanos ≤ t.nanos := by
  rcases allow_cases (s := s) (reading t) b with ⟨hclosed, _⟩ | ⟨_, hrefused⟩ | ⟨_, hpass, hallowed⟩
  · exact absurd hclosed h.phase_ne_closed
  · exact .inl hrefused
  · -- the reading is past a timeout, so a trial is noted at the reading itself and never at zero
    have hlong : 1 < s.recoveryTimeout.nanos := one_lt_timeout hT
    have hwaited := h.timeout_le hT hpass
    refine .inr ⟨_, hallowed, .trying rfl ?_ ?_, h.add_timeout_le hT hpass⟩
    · show max (reading t) 1 ≠ 0
      omega
    · show max (reading t) 1 = reading t
      omega

/-- A failure starts the waiting anew, whether it is of the trial or of an earlier call. -/
theorem WaitsSince.recordFailure (h : b.WaitsSince since) (t : Instant) :
    (b.recordFailure s (reading t)).WaitsSince t := by
  obtain ⟨hnoted, hcases⟩ := recordFailure_cases (s := s) (reading t) b
  rcases hcases with ⟨hclosed, _⟩ | ⟨_, htripped, hidle⟩ | ⟨hphase, htripped, hsame⟩
  · exact absurd hclosed h.phase_ne_closed
  · exact .failed htripped hidle hnoted
  · cases h with
    | failed _ idle _ => exact .failed htripped (hsame.trans idle) hnoted
    | trying phase _ _ =>
      rw [phase] at hphase
      cases hphase

/-- A breaker that trips waits. -/
theorem waitsSince_of_trips (hphase : b.phase ≠ .tripped)
    (htrips : (b.recordFailure s (reading t)).phase = .tripped) :
    (b.recordFailure s (reading t)).WaitsSince t := by
  obtain ⟨hnoted, hcases⟩ := recordFailure_cases (s := s) (reading t) b
  rcases hcases with ⟨_, hclosed, _⟩ | ⟨_, _, hidle⟩ | ⟨htripped, _⟩
  · rw [hclosed] at htrips
    cases htrips
  · exact .failed htrips hidle hnoted
  · exact absurd htripped hphase

/-! ## Runs without a success -/

/-- A call that does not end the waiting. -/
def Call.KeepsWaiting (c : Call) : Prop := c = .allow ∨ c = .failure

/-- A breaker that waits goes on to wait, since the same moment or a later one. -/
theorem WaitsSince.run (h : b.WaitsSince since) (hT : 0 < s.recoveryTimeoutSeconds)
    {calls : List (Instant × Call)} (hquiet : ∀ c ∈ calls, c.2.KeepsWaiting)
    (hclock : calls.Pairwise (·.1 ≤ ·.1)) (hlater : ∀ c ∈ calls, since ≤ c.1) :
    ∃ u, since ≤ u ∧ (b.run s calls).WaitsSince u := by
  induction calls generalizing b since with
  | nil => exact ⟨since, Instant.le_refl since, h⟩
  | cons c rest ih =>
    obtain ⟨t, call⟩ := c
    obtain ⟨hfirst, hrest⟩ := List.pairwise_cons.mp hclock
    have hquietRest : ∀ c ∈ rest, c.2.KeepsWaiting := fun c hc => hquiet c (List.mem_cons_of_mem _ hc)
    have hstep : since ≤ t := hlater _ List.mem_cons_self
    have hsame : ∀ c ∈ rest, since ≤ c.1 := fun c hc => hlater c (List.mem_cons_of_mem _ hc)
    rw [run_cons]
    rcases hquiet _ List.mem_cons_self with hallow | hfailure
    · obtain rfl : call = .allow := hallow
      dsimp only [perform]
      rcases h.allow hT t with hrefused | ⟨b', hallowed, hwaits, _⟩
      · rw [hrefused]
        exact ih h hquietRest hrest hsame
      · rw [hallowed]
        obtain ⟨u, hu, hafter⟩ := ih hwaits hquietRest hrest hfirst
        exact ⟨u, Int.le_trans hstep hu, hafter⟩
    · obtain rfl : call = .failure := hfailure
      obtain ⟨u, hu, hafter⟩ := ih (h.recordFailure t) hquietRest hrest hfirst
      exact ⟨u, Int.le_trans hstep hu, hafter⟩

/-- While a breaker waits, the calls let through are a timeout apart from each other and from what
it has waited for. -/
theorem WaitsSince.le_admissions (h : b.WaitsSince since) (hT : 0 < s.recoveryTimeoutSeconds)
    {calls : List (Instant × Call)} (hquiet : ∀ c ∈ calls, c.2.KeepsWaiting)
    (hclock : calls.Pairwise (·.1 ≤ ·.1)) (hlater : ∀ c ∈ calls, since ≤ c.1) {bound : ℤ}
    (hbound : bound ≤ since.nanos) {k : ℕ} {t : Instant}
    (ht : (b.admissions s calls)[k]? = some t) :
    bound + (k + 1) * s.recoveryTimeout.nanos ≤ t.nanos := by
  induction calls generalizing b since bound k with
  | nil => cases ht
  | cons c rest ih =>
    obtain ⟨u, call⟩ := c
    obtain ⟨hfirst, hrest⟩ := List.pairwise_cons.mp hclock
    have hquietRest : ∀ c ∈ rest, c.2.KeepsWaiting := fun c hc => hquiet c (List.mem_cons_of_mem _ hc)
    have hstep : since ≤ u := hlater _ List.mem_cons_self
    have hsame : ∀ c ∈ rest, since ≤ c.1 := fun c hc => hlater c (List.mem_cons_of_mem _ hc)
    rw [Instant.le_def] at hstep
    unfold admissions at ht
    rcases hquiet _ List.mem_cons_self with hallow | hfailure
    · obtain rfl : call = .allow := hallow
      dsimp only [perform] at ht
      rcases h.allow hT u with hrefused | ⟨b', hallowed, hwaits, hpassed⟩
      · rw [hrefused] at ht
        exact ih h hquietRest hrest hsame hbound ht
      · rw [hallowed] at ht
        dsimp only at ht
        rw [if_pos rfl] at ht
        cases k with
        | zero =>
          obtain rfl : u = t := by simpa using ht
          push_cast
          omega
        | succ k =>
          have hshifted : bound + s.recoveryTimeout.nanos ≤ u.nanos := by omega
          have hnext := ih hwaits hquietRest hrest hfirst hshifted (k := k) (by simpa using ht)
          push_cast
          linarith
    · obtain rfl : call = .failure := hfailure
      exact ih (h.recordFailure u) hquietRest hrest hfirst (by omega) ht

/-- **Trials are rationed.**  Once a failure has tripped a breaker, and until a success or a reset,
no call passes before the recovery timeout is over, and the `k`-th that passes, counted from one,
comes no earlier than `k` timeouts after the failure. -/
theorem trials_spaced {before after : List (Instant × Call)} {f : Instant}
    (hT : 0 < s.recoveryTimeoutSeconds)
    (hclock : (before ++ (f, .failure) :: after).Pairwise (·.1 ≤ ·.1))
    (hphase : (fresh.run s before).phase ≠ .tripped)
    (htrips : (fresh.run s (before ++ [(f, .failure)])).phase = .tripped)
    (hquiet : ∀ c ∈ after, c.2 ≠ .success ∧ c.2 ≠ .reset) :
    let b := fresh.run s (before ++ [(f, .failure)])
    (∀ calls t rest, after = calls ++ (t, .allow) :: rest →
      t.nanos < f.nanos + s.recoveryTimeout.nanos →
        ((b.run s calls).perform s (reading t) .allow).1 = some false) ∧
    ∀ (k : ℕ) (t : Instant), (b.admissions s after)[k]? = some t →
      f.nanos + (k + 1) * s.recoveryTimeout.nanos ≤ t.nanos := by
  intro b
  have hwaits : b.WaitsSince f := by
    rw [run_append] at htrips
    show WaitsSince (fresh.run s (before ++ [(f, .failure)])) f
    rw [run_append]
    exact waitsSince_of_trips hphase htrips
  have hkeeps : ∀ c ∈ after, c.2.KeepsWaiting := by
    intro c hc
    obtain ⟨hsuccess, hreset⟩ := hquiet c hc
    unfold Call.KeepsWaiting
    cases hcall : c.2 with
    | allow => exact .inl rfl
    | failure => exact .inr rfl
    | success => exact absurd hcall hsuccess
    | reset => exact absurd hcall hreset
  obtain ⟨hlater, hclockAfter⟩ :=
    List.pairwise_cons.mp (List.pairwise_append.mp hclock).2.1
  refine ⟨fun calls t rest hsplit hearly => ?_, fun k t ht =>
    hwaits.le_admissions hT hkeeps hclockAfter hlater (Int.le_refl _) ht⟩
  subst hsplit
  obtain ⟨u, hu, hstill⟩ := hwaits.run hT
    (fun c hc => hkeeps c (List.mem_append_left _ hc))
    (List.pairwise_append.mp hclockAfter).1
    (fun c hc => hlater c (List.mem_append_left _ hc))
  dsimp only [perform]
  rcases hstill.allow hT t with hrefused | ⟨_, _, _, hpassed⟩
  · rw [hrefused]
  · rw [Instant.le_def] at hu
    omega

/-! ## A failure before the epoch -/

/-- Trips at the first failure, for ten seconds. -/
def touchy : BreakerSettings := ⟨1, 10⟩

/-- A moment on a whole second. -/
def atSecond (n : ℤ) : Instant := ⟨n * nanosPerSecond⟩

/-- Calls after a failure five seconds before the epoch.  One trial never reports, and the next one
fails. -/
def callsAfterEpoch : List (Instant × Call) :=
  [(atSecond 4, .allow), (atSecond 10, .allow), (atSecond 19, .allow), (atSecond 20, .allow),
    (atSecond 21, .failure), (atSecond 30, .allow), (atSecond 31, .allow)]

/-- The breaker counts from the epoch, so its trials come later than they have to. -/
theorem trials_spaced_callsAfterEpoch :
    let f := atSecond (-5)
    let b := fresh.run touchy [(f, .failure)]
    b.admissions touchy callsAfterEpoch = [atSecond 10, atSecond 20, atSecond 31] ∧
      ∀ (k : ℕ) (t : Instant), (b.admissions touchy callsAfterEpoch)[k]? = some t →
        f.nanos + (k + 1) * touchy.recoveryTimeout.nanos ≤ t.nanos := by
  intro f b
  refine ⟨by decide, ?_⟩
  exact (@trials_spaced touchy [] callsAfterEpoch f (by decide) (by decide) (by decide) (by decide)
    (by decide)).2

end Bulwark.Breaker
