import Bulwark.Proofs.Limiter.Schedule
import Bulwark.Proofs.Quantity.Fraction

/-!
# The shared statistics mirror the decisions

Limiters that share a store and a prefix write their decisions to the shared statistics through
queues, in any number and on any schedule, and some of the writes may fail.  At every moment what
anybody reads there is what the limiters have recorded, without what was refused, waits, is being
written, or was lost (`run_mirrors`).  While every write gets through, what is read in the end does
not depend on the schedule.
-/

namespace Bulwark.Deployment

variable {α : Type} {keyPrefix : String} {d e : Deployment α} {a : Account}

/-- Nothing is under way. -/
def Drained (d : Deployment α) : Prop :=
  ∀ m ∈ d.members, m.backlog.queue = [] ∧ m.backlog.pending = []

/-- What can be seen of the decisions of a run, where it starts, where it ends, and what has become
of them. -/
structure Mirrors (keyPrefix : String) (d e : Deployment α) (a : Account) : Prop where
  /-- An answer from the shared statistics adds up.  Admissions that failed open are not in it. -/
  total : ∀ kind now s c, s.gate = e.gate →
    (Limiter.sharedStatistics keyPrefix now kind s).1 = .ok c →
      c.total.toNat = c.allowed.toNat + c.blocked.toNat ∧ c.failOpen = 0
  /-- It has the admissions but for those refused by a full queue, queued, taken and not yet
  written, and lost. -/
  allowed : ∀ kind now s c, s.gate = e.gate →
    (Limiter.sharedStatistics keyPrefix now kind s).1 = .ok c →
      c.allowed.toNat + a.refusedOf kind true + e.queued kind true + e.taken kind true +
        a.lostOf kind true = a.recordedOf kind true
  /-- It has the rejections but for those. -/
  blocked : ∀ kind now s c, s.gate = e.gate →
    (Limiter.sharedStatistics keyPrefix now kind s).1 = .ok c →
      c.blocked.toNat + a.refusedOf kind false + e.queued kind false + e.taken kind false +
        a.lostOf kind false = a.recordedOf kind false
  /-- Whoever can reach the store gets such an answer. -/
  answered : e.gate.IsOpen → ∀ kind now s, s.gate = e.gate →
    ∃ c, (Limiter.sharedStatistics keyPrefix now kind s).1 = .ok c
  /-- No queue is longer than it may be. -/
  length_le : ∀ m ∈ e.members, m.backlog.queue.length ≤ max m.layer.limiter.backlogCapacity 1
  /-- A limiter counts what its queue refuses. -/
  dropped : ∀ i m, e.members[i]? = some m → m.backlog.dropped.toNat = a.refusedBy i
  /-- Counted in the process as decided by the store is what was recorded: no admission that failed
  open is recorded. -/
  decided : ∀ kind allowed, e.decided kind allowed =
    d.decided kind allowed + UInt64.ofNat (a.recordedOf kind allowed)

/-- What is read of the shared statistics is what was written. -/
theorem Conserves.reads (h : Conserves keyPrefix d e a) (hfew : a.recorded.length < 2 ^ 63)
    (kind : DimensionKind) (now : Instant) {s : Limiter.Session} (hs : s.gate = e.gate) :
    let counts : AdmissionCount := ⟨UInt64.ofNat (a.writtenOf kind true + a.writtenOf kind false),
      UInt64.ofNat (a.writtenOf kind true), UInt64.ofNat (a.writtenOf kind false), 0⟩
    (∀ c, (Limiter.sharedStatistics keyPrefix now kind s).1 = .ok c → c = counts) ∧
      (s.gate.IsOpen → (Limiter.sharedStatistics keyPrefix now kind s).1 = .ok counts) := by
  have hallowed := h.balance kind true
  have hblocked := h.balance kind false
  have hrecorded := a.recordedOf_add_le kind
  have hmax : Text.maxUnsigned = 2 ^ 64 - 1 := rfl
  refine Limiter.sharedStatistics_reads now ?_ (by omega)
  rw [hs]
  exact h.holds kind

/-- Everything that can be seen of the decisions. -/
theorem Conserves.mirrors (h : Conserves keyPrefix d e a) (hfew : a.recorded.length < 2 ^ 63) :
    Mirrors keyPrefix d e a := by
  have hwritten : ∀ kind, a.writtenOf kind true + a.writtenOf kind false < 2 ^ 64 := by
    intro kind
    have hallowed := h.balance kind true
    have hblocked := h.balance kind false
    have hrecorded := a.recordedOf_add_le kind
    omega
  have hsides : ∀ kind now s c, s.gate = e.gate →
      (Limiter.sharedStatistics keyPrefix now kind s).1 = .ok c →
      c.total.toNat = a.writtenOf kind true + a.writtenOf kind false ∧
        c.allowed.toNat = a.writtenOf kind true ∧ c.blocked.toNat = a.writtenOf kind false ∧
        c.failOpen = 0 := by
    intro kind now s c hs hc
    have hfits := hwritten kind
    obtain rfl := (h.reads hfew kind now hs).1 c hc
    exact ⟨UInt64.toNat_ofNat_of_lt' hfits,
      UInt64.toNat_ofNat_of_lt' (Nat.lt_of_le_of_lt (Nat.le_add_right _ _) hfits),
      UInt64.toNat_ofNat_of_lt' (Nat.lt_of_le_of_lt (Nat.le_add_left _ _) hfits), rfl⟩
  constructor
  case total =>
    intro kind now s c hs hc
    obtain ⟨htotal, hallowed, hblocked, hfailOpen⟩ := hsides kind now s c hs hc
    exact ⟨by rw [htotal, hallowed, hblocked], hfailOpen⟩
  case allowed =>
    intro kind now s c hs hc
    obtain ⟨_, hallowed, _, _⟩ := hsides kind now s c hs hc
    rw [hallowed, h.balance, underWay_eq]
    omega
  case blocked =>
    intro kind now s c hs hc
    obtain ⟨_, _, hblocked, _⟩ := hsides kind now s c hs hc
    rw [hblocked, h.balance, underWay_eq]
    omega
  case answered =>
    intro hopen kind now s hs
    exact ⟨_, (h.reads hfew kind now hs).2 (hs ▸ hopen)⟩
  case length_le => exact h.length_le
  case dropped =>
    intro i m hm
    rw [h.dropped i m hm]
    have hrefused := a.refusedBy_le i
    have hle := h.refused_le
    have hlt : a.refusedBy i < 2 ^ 64 := by omega
    exact UInt64.toNat_ofNat_of_lt' hlt
  case decided => exact h.counted

/-- What is drained has nothing under way. -/
theorem Drained.underWay (h : e.Drained) (kind : DimensionKind) (allowed : Bool) :
    e.underWay kind allowed = 0 := by
  unfold Deployment.underWay
  refine List.sum_eq_zero fun n hn => ?_
  obtain ⟨m, hm, rfl⟩ := List.mem_map.mp hn
  obtain ⟨hqueue, hpending⟩ := h m hm
  unfold Backlog.underWay
  rw [hqueue, hpending]
  rfl

/-- Where nothing is under way and nothing was lost, every decision was written or refused. -/
theorem Conserves.balance_of_drained (h : Conserves keyPrefix d e a) (hdrained : e.Drained)
    (hlost : a.lost = []) (kind : DimensionKind) (allowed : Bool) :
    a.recordedOf kind allowed = a.refusedOf kind allowed + a.writtenOf kind allowed := by
  have hnone : a.lostOf kind allowed = 0 := by
    unfold Account.lostOf
    rw [hlost]
    rfl
  rw [h.balance, hdrained.underWay, hnone]
  omega

/-- What holds of steps of drains, and of the moves of a run, holds of the moves of any run that
differs from it in steps of drains alone. -/
theorem forall_of_filter_eq {ms ms' : List (Move α)}
    (h : ms.filter (!·.isDrain) = ms'.filter (!·.isDrain)) {p : Move α → Prop}
    (hdrain : ∀ i size, p (.drain i size)) (hp : ∀ m ∈ ms, p m) : ∀ m ∈ ms', p m := by
  intro m hm
  cases m with
  | drain i size => exact hdrain i size
  | limit => exact hp _ (List.mem_filter.mp (h ▸ List.mem_filter.mpr ⟨hm, rfl⟩)).1
  | clock => exact hp _ (List.mem_filter.mp (h ▸ List.mem_filter.mpr ⟨hm, rfl⟩)).1
  | failures => exact hp _ (List.mem_filter.mp (h ▸ List.mem_filter.mpr ⟨hm, rfl⟩)).1
  | others => exact hp _ (List.mem_filter.mp (h ▸ List.mem_filter.mpr ⟨hm, rfl⟩)).1

/-- **The shared statistics mirror the decisions.**  At every moment of a run, what is read there
is what the limiters have recorded, but for what was refused, waits, was taken and not yet written,
or was lost.  As long as every call of the store gets through, nothing is lost, the decisions
recorded do not depend on when the drains run, and no more do the statistics in the end, if as many
were refused. -/
theorem run_mirrors [Quantity α] [QuantityText α] {ms : List (Move α)} (hstart : d.Starts keyPrefix)
    (hspares : ∀ m ∈ ms, m.Spares keyPrefix) (hrun : d.run ms = .ok (e, a))
    (hfew : a.recorded.length < 2 ^ 63) :
    Mirrors keyPrefix d e a ∧
    ∀ ms' e' a', d.gate.IsOpen → (∀ m ∈ ms, m.Succeeds) →
      ms.filter (!·.isDrain) = ms'.filter (!·.isDrain) → d.run ms' = .ok (e', a') →
        a.recorded = a'.recorded ∧ a.lost = [] ∧ a'.lost = [] ∧
        (e.Drained → e'.Drained → ∀ kind,
          (∀ allowed, a.refusedOf kind allowed = a'.refusedOf kind allowed) →
          ∀ now now' s s', s.gate = e.gate → s'.gate = e'.gate →
            (Limiter.sharedStatistics keyPrefix now kind s).1 =
              (Limiter.sharedStatistics keyPrefix now' kind s').1) := by
  have hconserves : Conserves keyPrefix d e a :=
    run_conserves ms hstart.conserves hspares hrun hfew
  refine ⟨hconserves.mirrors hfew, fun ms' e' a' hopen hsucceeds hsame hrun' => ?_⟩
  obtain ⟨halike, hrecorded⟩ := run_alike (hstart.alike hopen) hsame hsucceeds hrun hrun'
  have hfew' : a'.recorded.length < 2 ^ 63 := hrecorded ▸ hfew
  have hspares' := forall_of_filter_eq hsame (fun _ _ => trivial) hspares
  have hsucceeds' := forall_of_filter_eq hsame (fun _ _ => trivial) hsucceeds
  have hconserves' : Conserves keyPrefix d e' a' :=
    run_conserves ms' hstart.conserves hspares' hrun' hfew'
  have hlost := run_lost hstart.conserves (hstart.alike hopen) hspares hsucceeds hrun hfew
  have hlost' := run_lost hstart.conserves (hstart.alike hopen) hspares' hsucceeds' hrun' hfew'
  refine ⟨hrecorded, hlost, hlost', fun hdrained hdrained' kind hrefused now now' s s' hs hs' => ?_⟩
  have hwritten : ∀ allowed, a.writtenOf kind allowed = a'.writtenOf kind allowed := by
    intro allowed
    have hbalance := hconserves.balance_of_drained hdrained hlost kind allowed
    have hbalance' := hconserves'.balance_of_drained hdrained' hlost' kind allowed
    have hsame : a.recordedOf kind allowed = a'.recordedOf kind allowed := by
      unfold Account.recordedOf
      rw [hrecorded]
    rw [hbalance, hbalance', hrefused] at hsame
    exact Nat.add_left_cancel hsame
  rw [(hconserves.reads hfew kind now hs).2 (hs ▸ halike.gate.isOpen),
    (hconserves'.reads hfew' kind now' hs').2 (hs' ▸ halike.gate.isOpen'), hwritten, hwritten]

/-! ## Two limiters -/

/-- A layer with room for one waiting decision. -/
def tightLayer : Layer ℚ where
  enabled := true
  limiter := { (.standard : LimiterSettings ℚ) with backlogCapacity := 0 }
  engine := ⟨⟨.generic, .backpressure, .streaming⟩, true⟩
  blacklist := ⟨"auth:blacklist:", .failClosed⟩

/-- Two such layers over one store that nobody has used. -/
def tightPair : Deployment ℚ := .ofCopies ⟨0⟩ (.opened (fun _ => 0) .empty) tightLayer 2 false

theorem starts_tightPair : tightPair.Starts "rate_limit:" where
  keyPrefix_eq := fun m hm => by
    obtain ⟨i, _, rfl⟩ := List.mem_map.mp hm
    rfl
  ledger_lt := fun m hm => by
    obtain ⟨i, hi, rfl⟩ := List.mem_map.mp hm
    exact List.mem_range.mp hi
  backlog_eq := fun m hm => by
    obtain ⟨i, _, rfl⟩ := List.mem_map.mp hm
    rfl
  absent := fun kind => rfl

/-- Two checks of an address by the first limiter and one of a user by the second, with other moves
after each. -/
def threeChecks (first second third : List (Move ℚ)) : List (Move ℚ) :=
  .limit 0 (.check ⟨.ip, "203.0.113.7"⟩) :: first ++
    .limit 0 (.check ⟨.ip, "203.0.113.7"⟩) :: second ++
    .limit 1 (.check ⟨.user, "u-1"⟩) :: third

/-- Two steps of a drain: a batch is taken, and its tally is written. -/
def takeAndWrite (i : ℕ) : List (Move ℚ) := [.drain i 64, .drain i 64]

/-- A run of the two limiters, by what is left in their queues and what became of decisions. -/
def tightRun (ms : List (Move ℚ)) : Except Halt (List Backlog × Account) :=
  (@run ℚ _ Quantity.fractions tightPair ms).map fun r => (r.1.members.map (·.backlog), r.2)

theorem tightRun_ok {ms : List (Move ℚ)} {backlogs : List Backlog} {a : Account}
    (h : tightRun ms = .ok (backlogs, a)) :
    ∃ e, @run ℚ _ Quantity.fractions tightPair ms = .ok (e, a) ∧
      e.members.map (·.backlog) = backlogs := by
  unfold tightRun at h
  cases hrun : @run ℚ _ Quantity.fractions tightPair ms with
  | error _ =>
    rw [hrun] at h
    cases h
  | ok r =>
    rw [hrun] at h
    obtain ⟨hbacklogs, haccount⟩ := Prod.mk.inj (Except.ok.inj h)
    exact ⟨r.1, by rw [← haccount], hbacklogs⟩

/-- The second decision finds the queue full.  The other two are written, in either order. -/
theorem run_mirrors_tightPair :
    let written := threeChecks [] (takeAndWrite 0) (takeAndWrite 1)
    let later := threeChecks [] [] (takeAndWrite 1 ++ takeAndWrite 0)
    tightPair.Starts "rate_limit:" ∧ tightPair.gate.IsOpen ∧
      ∃ e a e' a', @run ℚ _ Quantity.fractions tightPair written = .ok (e, a) ∧
        @run ℚ _ Quantity.fractions tightPair later = .ok (e', a') ∧
        Mirrors "rate_limit:" tightPair e a ∧ a.recorded.length = 3 ∧ a.refused.length = 1 ∧
        a.written ≠ a'.written ∧ e.Drained ∧ e'.Drained ∧
        ∀ kind now s s', s.gate = e.gate → s'.gate = e'.gate →
          (Limiter.sharedStatistics "rate_limit:" now kind s).1 =
            (Limiter.sharedStatistics "rate_limit:" now kind s').1 := by
  intro written later
  have hopen : tightPair.gate.IsOpen := ⟨rfl, rfl⟩
  have hwritten : tightRun written = .ok ([⟨[], [], 1⟩, .empty],
      ⟨[(0, ⟨.ip, true⟩), (0, ⟨.ip, true⟩), (1, ⟨.user, true⟩)], [(0, ⟨.ip, true⟩)],
        [⟨.ip, 1, 0⟩, ⟨.user, 1, 0⟩], []⟩) := by decide +kernel
  have hlater : tightRun later = .ok ([⟨[], [], 1⟩, .empty],
      ⟨[(0, ⟨.ip, true⟩), (0, ⟨.ip, true⟩), (1, ⟨.user, true⟩)], [(0, ⟨.ip, true⟩)],
        [⟨.user, 1, 0⟩, ⟨.ip, 1, 0⟩], []⟩) := by decide +kernel
  obtain ⟨e, hrun, hbacklogs⟩ := tightRun_ok hwritten
  obtain ⟨e', hrun', hbacklogs'⟩ := tightRun_ok hlater
  have hdrained : ∀ f : Deployment ℚ, f.members.map (·.backlog) = [⟨[], [], 1⟩, .empty] →
      f.Drained := by
    intro f hf m hm
    have hmem : m.backlog ∈ f.members.map (·.backlog) := List.mem_map_of_mem hm
    rw [hf] at hmem
    rcases List.mem_cons.mp hmem with heq | hmem
    · rw [heq]
      exact ⟨rfl, rfl⟩
    · rw [List.mem_singleton.mp hmem]
      exact ⟨rfl, rfl⟩
  have hspares : ∀ m ∈ written, m.Spares "rate_limit:" := by
    intro m hm
    simp only [written, threeChecks, takeAndWrite, List.cons_append, List.nil_append,
      List.mem_cons, List.not_mem_nil, or_false] at hm
    rcases hm with rfl | rfl | rfl | rfl | rfl | rfl | rfl <;> trivial
  have hsucceeds : ∀ m ∈ written, m.Succeeds := by
    intro m hm
    simp only [written, threeChecks, takeAndWrite, List.cons_append, List.nil_append,
      List.mem_cons, List.not_mem_nil, or_false] at hm
    rcases hm with rfl | rfl | rfl | rfl | rfl | rfl | rfl <;> trivial
  obtain ⟨hmirrors, hschedule⟩ := @run_mirrors ℚ "rate_limit:" tightPair e _ _ Quantity.fractions
    written starts_tightPair hspares hrun (by decide)
  obtain ⟨_, _, _, hsame⟩ := hschedule later e' _ hopen hsucceeds rfl hrun'
  exact ⟨starts_tightPair, hopen, e, _, e', _, hrun, hrun', hmirrors, rfl, rfl, by decide,
    hdrained e hbacklogs, hdrained e' hbacklogs', fun kind now s s' =>
      hsame (hdrained e hbacklogs) (hdrained e' hbacklogs') kind (fun _ => rfl) now now s s'⟩

/-- A tally that cannot be written is lost, and a check that fails open is not recorded. -/
example : tightRun (threeChecks [.drain 0 64] [.failures [] true, .drain 0 64] []) =
    .ok ([⟨[⟨.ip, true⟩], [], 0⟩, .empty],
      ⟨[(0, ⟨.ip, true⟩), (0, ⟨.ip, true⟩)], [], [], [⟨.ip, 1, 0⟩]⟩) := by decide +kernel

end Bulwark.Deployment
