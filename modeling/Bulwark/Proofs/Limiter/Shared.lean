import Bulwark.Proofs.Limiter.Tally

/-!
# Reading and writing the shared statistics

The shared statistics of a kind are read field by field and written tally by tally.  While a key
holds counts, a read that the store answers gives them (`sharedStatistics_reads`), and a tally that
gets through is added to them; one that does not is lost and changes nothing (`drainStep_drains`).
-/

namespace Bulwark.Limiter

/-! ## Reading -/

section Reading

variable {key : String} {allowed blocked : ℕ}

/-- A read of counts: it answers right if it answers, it answers if the gate is open, and both the
counts and the open gate stay. -/
structure Reads (key : String) (allowed blocked : ℕ) (s t : Session)
    (answer : Except StoreError UInt64) (n : ℕ) : Prop where
  exact_of_ok : ∀ v, answer = .ok v → v = UInt64.ofNat n
  answered : s.gate.IsOpen → answer = .ok (UInt64.ofNat n)
  counts : t.gate.store.Counts key allowed blocked
  isOpen : s.gate.IsOpen → t.gate.IsOpen

/-- Reading one field. -/
theorem readCount_reads (now : Instant) {field : String} {n : ℕ} {s : Session}
    (h : s.gate.store.Counts key allowed blocked)
    (hfield : ∀ fields, Store.IsCount fields allowed blocked →
      fields.get? field = some (toString (n : ℤ)))
    (hzero : allowed = 0 → blocked = 0 → n = 0) (hfits : n ≤ Text.maxUnsigned) :
    Reads key allowed blocked s (readCount now key field s).2 (readCount now key field s).1 n := by
  obtain ⟨text, htext, hvalue⟩ := h.read now hfield hzero hfits
  unfold readCount
  rw [bind_apply]
  unfold callStore
  rw [Gate.call_eq]
  cases hrefusal : s.gate.refusal? with
  | some e =>
    refine ⟨nofun, fun hopen => ?_, ?_, fun hopen => hopen.next⟩
    · rw [hopen.refusal?] at hrefusal
      cases hrefusal
    · show s.gate.next.store.Counts key allowed blocked
      rw [Gate.next_store]
      exact h
  | none =>
    dsimp only
    rw [htext]
    refine ⟨fun v hv => ?_, fun _ => ?_, ?_, fun hopen => ⟨hopen.next.plan_nil,
      hopen.next.connected⟩⟩
    · rw [← hvalue]
      exact (Except.ok.inj hv).symm
    · show Except.ok (UInt64.ofNat ((text.bind Text.unsigned?).getD 0)) = _
      rw [hvalue]
    · exact h.congr (Store.hashGet_keeps now h.deadline key field)

/-- Reading the shared statistics of a kind gives the counts that its key holds. -/
theorem sharedStatistics_reads {keyPrefix : String} (now : Instant) {kind : DimensionKind}
    {s : Session} (h : s.gate.store.Counts (statisticsKey keyPrefix kind) allowed blocked)
    (hfits : allowed + blocked ≤ Text.maxUnsigned) :
    let counts : AdmissionCount :=
      ⟨UInt64.ofNat (allowed + blocked), UInt64.ofNat allowed, UInt64.ofNat blocked, 0⟩
    (∀ c, (sharedStatistics keyPrefix now kind s).1 = .ok c → c = counts) ∧
      (s.gate.IsOpen → (sharedStatistics keyPrefix now kind s).1 = .ok counts) := by
  have htotal := readCount_reads now h (fun _ hcount => hcount.total) (by omega) hfits
  unfold sharedStatistics
  rw [bind_apply]
  generalize readCount _ _ _ s = r at htotal ⊢
  obtain ⟨_ | total, t⟩ := r
  · exact ⟨nofun, fun hopen => nomatch htotal.answered hopen⟩
  dsimp only at htotal ⊢
  obtain rfl := htotal.exact_of_ok _ rfl
  have hallowed := readCount_reads now htotal.counts (fun _ hcount => hcount.allowed) (by omega)
    (by omega)
  rw [bind_apply]
  generalize readCount _ _ _ t = r at hallowed ⊢
  obtain ⟨_ | total, u⟩ := r
  · exact ⟨nofun, fun hopen => nomatch hallowed.answered (htotal.isOpen hopen)⟩
  dsimp only at hallowed ⊢
  obtain rfl := hallowed.exact_of_ok _ rfl
  have hblocked := readCount_reads now hallowed.counts (fun _ hcount => hcount.blocked) (by omega)
    (by omega)
  rw [bind_apply]
  generalize readCount _ _ _ u = r at hblocked ⊢
  obtain ⟨_ | total, v⟩ := r
  · exact ⟨nofun, fun hopen => nomatch hblocked.answered (hallowed.isOpen (htotal.isOpen hopen))⟩
  dsimp only at hblocked ⊢
  obtain rfl := hblocked.exact_of_ok _ rfl
  exact ⟨fun c hc => (Except.ok.inj hc).symm, fun _ => rfl⟩

end Reading

/-! ## Writing -/

/-- What becomes of the tally that a step of a drain writes, if it writes one. -/
def drained (keyPrefix : String) (now : Instant) (s : Session) : Account :=
  match s.backlog.pending with
  | [] => .nothing
  | t :: _ =>
    match (s.gate.call (·.hashIncrementAll now (statisticsKey keyPrefix t.kind) t.increments)).1 with
    | .ok () => ⟨[], [], [t], []⟩
    | .error _ => ⟨[], [], [], [t]⟩

/-- A step of a drain: it counts and decides nothing, refuses nothing, and every decision under way
stays so, or is in a tally that is written or lost. -/
structure Drains (s t : Session) (a : Account) : Prop where
  admission : t.admission = s.admission
  breaker : t.breaker = s.breaker
  dropped : t.backlog.dropped = s.backlog.dropped
  length_le : t.backlog.queue.length ≤ s.backlog.queue.length
  recorded : a.recorded = []
  refused : a.refused = []
  underWay : ∀ kind allowed, s.backlog.underWay kind allowed =
    t.backlog.underWay kind allowed + a.writtenOf kind allowed + a.lostOf kind allowed

variable {keyPrefix : String} {now : Instant}

/-- Writing a tally is a call of the store; what it answers is logged at most. -/
theorem writeTally_eq (keyPrefix : String) (now : Instant) (t : Tally) (s : Session) :
    ∃ log, writeTally keyPrefix now t s = ((), { s with
      gate := (s.gate.call (·.hashIncrementAll now (statisticsKey keyPrefix t.kind)
        t.increments)).2
      log }) := by
  unfold writeTally
  rw [bind_apply]
  unfold callStore
  dsimp only
  cases (s.gate.call (·.hashIncrementAll now (statisticsKey keyPrefix t.kind)
    t.increments)).1 with
  | ok _ => exact ⟨_, rfl⟩
  | error _ => exact ⟨_, rfl⟩

theorem drainStep_drains (size : ℕ) (s : Session) :
    Drains s (drainStep keyPrefix now size s).2 (drained keyPrefix now s) := by
  unfold drainStep drained
  cases hpending : s.backlog.pending with
  | nil =>
    refine ⟨rfl, rfl, rfl, ?_, rfl, rfl, fun kind allowed => ?_⟩
    · show (s.backlog.queue.drop _).length ≤ _
      rw [List.length_drop]
      exact Nat.sub_le _ _
    · exact (s.backlog.underWay_takeBatch size).symm
  | cons t rest =>
    obtain ⟨log, hwrite⟩ := writeTally_eq keyPrefix now t
      { s with backlog := { s.backlog with pending := rest } }
    dsimp only
    rw [hwrite]
    have hsplit : ∀ kind allowed, s.backlog.underWay kind allowed =
        Backlog.underWay kind allowed { s.backlog with pending := rest } +
          t.part kind allowed := by
      intro kind allowed
      unfold Backlog.underWay Tally.partAll
      rw [hpending, List.map_cons, List.sum_cons]
      dsimp only
      omega
    cases (s.gate.call (·.hashIncrementAll now (statisticsKey keyPrefix t.kind)
      t.increments)).1 with
    | ok _ =>
      exact ⟨rfl, rfl, rfl, Nat.le_refl _, rfl, rfl, fun kind allowed => hsplit kind allowed⟩
    | error _ =>
      exact ⟨rfl, rfl, rfl, Nat.le_refl _, rfl, rfl, fun kind allowed => by
        rw [hsplit]
        rfl⟩

/-- What a step of a drain does to the gate: it makes the call of a store that writes the first
tally, if one waits. -/
theorem drainStep_gate (keyPrefix : String) (now : Instant) (size : ℕ) (s : Session) :
    (drainStep keyPrefix now size s).2.gate =
      match s.backlog.pending with
      | [] => s.gate
      | t :: _ => (s.gate.call (·.hashIncrementAll now (statisticsKey keyPrefix t.kind)
          t.increments)).2 := by
  unfold drainStep
  cases s.backlog.pending with
  | nil => rfl
  | cons t rest =>
    obtain ⟨log, hwrite⟩ := writeTally_eq keyPrefix now t
      { s with backlog := { s.backlog with pending := rest } }
    dsimp only
    rw [hwrite]

section Written

variable {written : DimensionKind → Bool → ℕ} {s : Session}

/-- Counts are kept for every kind. -/
def Holds (keyPrefix : String) (s : Store) (written : DimensionKind → Bool → ℕ) : Prop :=
  ∀ kind, s.Counts (statisticsKey keyPrefix kind) (written kind true) (written kind false)

/-- The counts have room for what is under way. -/
def HasRoom (s : Session) (written : DimensionKind → Bool → ℕ) : Prop :=
  ∀ kind, ((written kind true + written kind false + (s.backlog.underWay kind true +
    s.backlog.underWay kind false) : ℕ) : ℤ) ≤ Text.maxSigned

/-- The first tally fits where there is room for everything under way. -/
theorem HasRoom.tally (h : HasRoom s written) {t : Tally} {rest : List Tally}
    (hpending : s.backlog.pending = t :: rest) :
    ((written t.kind true + written t.kind false + (t.allowed + t.blocked) : ℕ) : ℤ) ≤
      Text.maxSigned := by
  have hpart : ∀ allowed, t.part t.kind allowed ≤ s.backlog.underWay t.kind allowed := by
    intro allowed
    unfold Backlog.underWay Tally.partAll
    rw [hpending, List.map_cons, List.sum_cons]
    omega
  have hallowed := hpart true
  have hblocked := hpart false
  unfold Tally.part at hallowed hblocked
  rw [if_pos rfl] at hallowed hblocked
  have hkind := h t.kind
  simp only [if_true, Bool.false_eq_true, if_false] at hallowed hblocked
  omega

/-- A tally that gets through is added to the counts of its kind, and a lost one changes none. -/
theorem drainStep_holds (size : ℕ) (h : Holds keyPrefix s.gate.store written)
    (hroom : HasRoom s written) :
    Holds keyPrefix (drainStep keyPrefix now size s).2.gate.store fun kind allowed =>
      written kind allowed + (drained keyPrefix now s).writtenOf kind allowed := by
  rw [drainStep_gate]
  unfold drained
  cases hpending : s.backlog.pending with
  | nil => exact h
  | cons t rest =>
    dsimp only
    rw [Gate.call_eq]
    cases s.gate.refusal? with
    | some e =>
      intro kind
      rw [Gate.next_store]
      exact h kind
    | none =>
      obtain ⟨hok, hcounts⟩ := (h t.kind).increment now t (hroom.tally hpending)
      dsimp only
      rw [hok]
      -- the tally is in the counts of its own kind, and in no others
      intro kind
      by_cases hkind : kind = t.kind
      · subst hkind
        have hpart : ∀ allowed, Account.writtenOf t.kind allowed ⟨[], [], [t], []⟩ =
            if allowed then t.allowed else t.blocked := by
          intro allowed
          unfold Account.writtenOf Tally.partAll Tally.part
          rw [List.map_singleton, List.sum_singleton, if_pos rfl]
        dsimp only
        rw [hpart, hpart]
        exact hcounts
      · have hpart : ∀ allowed, Account.writtenOf kind allowed ⟨[], [], [t], []⟩ = 0 := by
          intro allowed
          unfold Account.writtenOf Tally.partAll Tally.part
          rw [List.map_singleton, List.sum_singleton, if_neg (Ne.symm hkind)]
        dsimp only
        rw [hpart, hpart]
        refine (h kind).congr ((Store.hashUpdate_actsOn now _ _).frame _ _ ?_)
        exact fun heq => hkind (statisticsKey_injective keyPrefix heq)

/-- Through an open gate nothing is lost. -/
theorem drained_lost_of_open (hopen : s.gate.IsOpen) (h : Holds keyPrefix s.gate.store written)
    (hroom : HasRoom s written) : (drained keyPrefix now s).lost = [] := by
  unfold drained
  cases hpending : s.backlog.pending with
  | nil => rfl
  | cons t rest =>
    dsimp only
    rw [Gate.call_of_pass hopen.refusal?]
    obtain ⟨hok, _⟩ := (h t.kind).increment now t (hroom.tally hpending)
    dsimp only
    rw [hok]

end Written

end Bulwark.Limiter
