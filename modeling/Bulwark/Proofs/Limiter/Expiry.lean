import Mathlib.Algebra.Order.Floor.Ring
import Bulwark.Proofs.Bucket.Admission
import Bulwark.Proofs.Limiter.Decisions
import Bulwark.Proofs.Quantity.Fraction

/-!
# Buckets that expire

A store forgets a bucket that nobody has used for two intervals, and the next check finds a full
one.  Over exact numbers, on a healthy store, this cannot be told from a bucket that is never
forgotten exactly when every bucket has refilled by the time it is forgotten: when the whole tokens
gained in that time reach the capacity (`expiryUnobservable_iff`).

The step lemma is `refill_getD_of_kept`: what the store still has of a bucket, refilled now, is the
bucket that never expires, refilled now.  `Kept` is the invariant between the two.
-/

namespace Bulwark.Limiter

open Quantity

/-! ## Checks on a healthy store -/

/-- Every store call gets through, and the breaker lets it. -/
structure Healthy (s : Session) : Prop where
  isOpen : s.gate.IsOpen
  closed : s.breaker.phase = .closed

section Check

variable {α : Type} [Quantity α] [QuantityText α]

/-- On a healthy store a check is the admission step of its bucket, and leaves the store healthy. -/
theorem checkWith_of_healthy {settings : LimiterSettings α} {now : Instant} {d : Dimension}
    {capacity rate interval cost : α} {s : Session} {outcome : Bucket.Outcome α} {store : Store}
    (hvalid : Allowance.areValid capacity rate interval = true) (hcost : isCost cost = true)
    (hs : Healthy s)
    (htake : s.gate.store.takeTokens now (d.storageKey settings.keyPrefix)
      (request now capacity rate interval cost) = (.ok outcome, store)) :
    ∃ t, checkWith settings now d capacity rate interval cost s = (outcome.allowed, t) ∧
      Healthy t ∧ t.gate.store = store := by
  -- the breaker lets the call through and stays closed
  have hallow : s.breaker.allow settings.breaker (Breaker.reading now) = (true, s.breaker) := by
    simp only [Breaker.allow, hs.closed]
  have hclosed : s.breaker.recordSuccess.phase = .closed := by
    show (if s.breaker.phase = .trial then _ else s.breaker.phase) = _
    rw [hs.closed]
    rfl
  have hcall := Gate.call_of_pass hs.isOpen.refusal? (·.takeTokens now
    (d.storageKey settings.keyPrefix) (request now capacity rate interval cost))
  rw [htake] at hcall
  have hverdict : verdict? settings now d capacity rate interval cost s = some outcome.allowed := by
    unfold verdict?
    rw [hvalid, hcost, hallow, hcall]
    rfl
  have hbreaker : breakerAfter settings now d capacity rate interval cost s =
      s.breaker.recordSuccess := by
    unfold breakerAfter
    rw [hvalid, hcost, hallow, hcall]
    rfl
  have hgate : gateAfter settings now d capacity rate interval cost s =
      { s.gate.next with store } := by
    unfold gateAfter
    rw [hvalid, hcost, hallow, hcall]
    rfl
  obtain ⟨log, hcheck⟩ := checkWith_eq_verdict settings now d capacity rate interval cost s
  rw [hverdict, hbreaker, hgate] at hcheck
  exact ⟨_, hcheck, ⟨⟨hs.isOpen.next.plan_nil, hs.isOpen.next.connected⟩, hclosed⟩, rfl⟩

/-- What others do between two checks: the store stays healthy and nobody touches the key. -/
structure Apart (key : String) (s t : Session) : Prop where
  healthy : Healthy s → Healthy t
  entry_eq : t.gate.store.entries.get? key = s.gate.store.entries.get? key

/-- The answers to checks of one dimension at given times and costs, with anything else in between
that keeps apart from its bucket. -/
inductive Checked (settings : LimiterSettings α) (d : Dimension) (capacity rate interval : α) :
    Session → List (Instant × α) → List Bool → Prop
  | done (s : Session) : Checked settings d capacity rate interval s [] []
  | check {s : Session} {now : Instant} {cost : α} {rest : List (Instant × α)}
      {answers : List Bool} :
      Checked settings d capacity rate interval
        (checkWith settings now d capacity rate interval cost s).2 rest answers →
      Checked settings d capacity rate interval s ((now, cost) :: rest)
        ((checkWith settings now d capacity rate interval cost s).1 :: answers)
  | other {s t : Session} {checks : List (Instant × α)} {answers : List Bool} :
      Apart (d.storageKey settings.keyPrefix) s t →
      Checked settings d capacity rate interval t checks answers →
      Checked settings d capacity rate interval s checks answers

end Check

/-! ## What a bucket has gained when it is forgotten -/

variable {capacity rate interval : ℚ}

theorem ofInstant_eq {t : Instant} (h : 0 ≤ t.nanos) :
    (ofInstant t : ℚ) = t.nanos / nanosPerSecond := by
  obtain ⟨n, hn⟩ := Int.eq_ofNat_of_zero_le h
  have hdiv : (n : ℚ) = nanosPerSecond * (n / nanosPerSecond : ℕ) + (n % nanosPerSecond : ℕ) := by
    exact_mod_cast (Nat.div_add_mod n nanosPerSecond).symm
  unfold ofInstant
  rw [if_neg (not_lt.mpr h)]
  show ((t.nanos.toNat / nanosPerSecond : ℕ) : ℚ)
    + (t.nanos.toNat % nanosPerSecond : ℕ) / (nanosPerSecond : ℕ) = _
  rw [hn, Int.toNat_natCast, Int.cast_natCast]
  have hpos : ((nanosPerSecond : ℕ) : ℚ) ≠ 0 := by decide
  field_simp
  linarith

/-- Checks in the order of time, at or after the epoch, at costs that are not negative. -/
structure Orderly (checks : List (Instant × ℚ)) : Prop where
  sorted : checks.Pairwise (·.1 ≤ ·.1)
  since_epoch : ∀ c ∈ checks, 0 ≤ c.1.nanos
  cost_nonneg : ∀ c ∈ checks, 0 ≤ c.2

theorem Orderly.tail {c : Instant × ℚ} {rest : List (Instant × ℚ)} (h : Orderly (c :: rest)) :
    Orderly rest where
  sorted := (List.pairwise_cons.mp h.sorted).2
  since_epoch := fun q hq => h.since_epoch q (List.mem_cons_of_mem c hq)
  cost_nonneg := fun q hq => h.cost_nonneg q (List.mem_cons_of_mem c hq)

/-- The whole tokens that a bucket gains in the time for which it is kept unused. -/
def gainedWhileKept (rate interval : ℚ) : ℤ :=
  ⌊(Allowance.ttlOf interval : ℚ) / interval * rate⌋

/-- The requests of checks at given times and costs. -/
def requests (capacity rate interval : ℚ) (checks : List (Instant × ℚ)) :
    List (Bucket.Request ℚ) :=
  checks.map fun c => request c.1 capacity rate interval c.2

theorem areValid_rational :
    Allowance.areValid capacity rate interval = true ↔
      0 < capacity ∧ 0 < rate ∧ 0 < interval := by
  unfold Allowance.areValid
  simp only [isFinite_rational, zero_rational, Bool.true_and, Bool.and_eq_true, and_assoc]
  constructor
  · rintro ⟨hcap, hrate, hint⟩
    exact ⟨of_decide_eq_true hcap, of_decide_eq_true hrate, of_decide_eq_true hint⟩
  · rintro ⟨hcap, hrate, hint⟩
    exact ⟨decide_eq_true hcap, decide_eq_true hrate, decide_eq_true hint⟩

theorem isCost_of_nonneg {cost : ℚ} (h : 0 ≤ cost) : isCost cost = true := by
  unfold isCost
  rw [isFinite_rational, Bool.true_and]
  exact decide_eq_true h

/-- A bucket that has gained enough is full, whatever it held. -/
theorem refill_eq_full {r : Bucket.Request ℚ} {b : Bucket ℚ}
    (h : r.capacity ≤ max b.tokens 0 + r.gained b) : r.refill b = ⟨r.capacity, r.now⟩ := by
  have htokens : (r.refill b).tokens = r.capacity := by
    rw [Bucket.refill_tokens]
    exact min_eq_right h
  have htime : (r.refill b).lastRefill = r.now := by
    rw [Bucket.refill_lastRefill, if_pos htokens.ge]
  cases hb : r.refill b
  rw [hb] at htokens htime
  rw [← htokens, ← htime]

/-- The tokens gained in a given time at least. -/
theorem gained_of_le {r : Bucket.Request ℚ} {b : Bucket ℚ} {seconds : ℚ} (hrate : 0 < r.rate)
    (hint : 0 < r.interval) (h : seconds ≤ r.now - b.lastRefill) :
    ((⌊seconds / r.interval * r.rate⌋ : ℤ) : ℚ) ≤ r.gained b := by
  rw [Bucket.gained_eq]
  have hle : seconds ≤ r.elapsed b := h.trans (le_max_left _ _)
  have hmul : seconds / r.interval * r.rate ≤ r.elapsed b / r.interval * r.rate := by gcongr
  exact_mod_cast Int.floor_le_floor hmul

/-- A bucket that was forgotten has been kept for its time. -/
theorem le_sub_of_forgotten {e : StoredEntry} {last now : Instant} {seconds : ℕ}
    (hdeadline : e.deadline = last.later? (.ofSeconds seconds)) (hlast : 0 ≤ last.nanos)
    (hle : last ≤ now) (hdead : ¬ e.isLive now = true) :
    (seconds : ℚ) ≤ ofInstant now - ofInstant last := by
  rw [Instant.le_def] at hle
  -- a deadline that no clock can show never passes
  have hnanos : last.nanos + seconds * nanosPerSecond ≤ now.nanos := by
    unfold StoredEntry.isLive at hdead
    split at hdead
    · exact absurd rfl hdead
    · rename_i limit hlimit
      have hsum := (Instant.later?_eq_some_iff.mp (hdeadline.symm.trans hlimit)).1
      rw [decide_eq_true_eq, Instant.lt_def, hsum] at hdead
      exact_mod_cast not_lt.mp hdead
  rw [ofInstant_eq (hlast.trans hle), ofInstant_eq hlast, ← sub_div, le_div_iff₀ (by decide)]
  have hcast : ((last.nanos + seconds * nanosPerSecond : ℤ) : ℚ) ≤ now.nanos := by
    exact_mod_cast hnanos
  push_cast at hcast
  linarith

/-! ## What the store keeps of a bucket -/

section Kept

variable [QuantityText ℚ]

/-- What a store has under the key of a bucket that was last used at a given moment: nothing of a
bucket that was never used, and otherwise the bucket as it was left, until it has been kept for its
time. -/
inductive Kept (interval : ℚ) (key : String) (s : Store) : Option (Bucket ℚ) → Instant → Prop
  | unused {last : Instant} : s.entries.get? key = none → Kept interval key s none last
  | used {b : Bucket ℚ} {last : Instant} {fields : Table String} :
      s.entries.get? key = some ⟨.hash fields,
        last.later? (.ofSeconds (Allowance.ttlOf interval))⟩ →
      (∀ moment, Store.bucketOf? fields moment = some b) →
      0 ≤ b.tokens → b.lastRefill ≤ ofInstant last → Kept interval key s (some b) last

/-- Nothing that is kept of a bucket is a text. -/
theorem Kept.not_text {key : String} {s : Store} {current : Option (Bucket ℚ)}
    {last : Instant} (h : Kept interval key s current last) (now : Instant) :
    ¬ s.holdsText now key := by
  rintro ⟨text, deadline, hv⟩
  have hentry := (Store.visible?_eq_some_iff.mp hv).1
  cases h with
  | unused hnone =>
    rw [hnone] at hentry
    exact absurd hentry (by simp)
  | used hsome =>
    rw [hsome, Option.some.injEq, StoredEntry.mk.injEq] at hentry
    exact absurd hentry.1 (by simp)

variable {key : String} {s : Store} {current : Option (Bucket ℚ)} {last now : Instant}

/-- What the store has of a bucket, refilled now, is the bucket that never expires, refilled now. -/
theorem refill_getD_of_kept (cost : ℚ) (hrate : 0 < rate) (hint : 0 < interval)
    (hfull : capacity ≤ gainedWhileKept rate interval)
    (h : Kept interval key s current last) (hlast : 0 ≤ last.nanos) (hle : last ≤ now) :
    let r := request now capacity rate interval cost
    r.refill ((Store.bucketOf? (s.fieldsAt now key) r.now).getD r.fresh) =
      r.refill (current.getD r.fresh) := by
  intro r
  cases h with
  | unused hnone =>
    rw [Store.fieldsAt_of_not_visible (Store.visible?_of_absent hnone), Store.bucketOf?_empty]
  | @used b _ fields hsome hread htokens hrefill =>
    by_cases hlive : (⟨.hash fields, last.later? (.ofSeconds (Allowance.ttlOf interval))⟩ :
        StoredEntry).isLive now = true
    · have hfields : s.fieldsAt now key = fields := by
        unfold Store.fieldsAt
        rw [Store.visible?_eq_some_iff.mpr ⟨hsome, hlive⟩]
      rw [hfields, hread]
    · -- the bucket is forgotten, and has refilled
      rw [Store.fieldsAt_of_not_visible (Store.visible?_of_dead hsome hlive),
        Store.bucketOf?_empty, Option.getD_none, Option.getD_some]
      have hkept := le_sub_of_forgotten rfl hlast hle hlive
      have hgained : (gainedWhileKept rate interval : ℚ) ≤ r.gained b :=
        gained_of_le (r := r) hrate hint (hkept.trans (sub_le_sub_left hrefill _))
      have hfresh : 0 ≤ r.gained r.fresh := Bucket.gained_nonneg hrate hint
      rw [refill_eq_full (b := r.fresh) (le_add_of_le_of_nonneg (le_max_left _ _) hfresh)]
      refine (refill_eq_full ?_).symm
      calc r.capacity ≤ gainedWhileKept rate interval := hfull
        _ ≤ r.gained b := hgained
        _ ≤ max b.tokens 0 + r.gained b := le_add_of_nonneg_left (le_max_right _ _)

/-- A check on a healthy store decides as the bucket that is visible there, and leaves it as the
step leaves it. -/
theorem checkWith_eq {settings : LimiterSettings ℚ} {d : Dimension} {cost : ℚ} {s : Session}
    (now : Instant) (hvalid : Allowance.areValid capacity rate interval = true) (hcost : 0 ≤ cost)
    (hs : Healthy s)
    (htext : ¬ s.gate.store.holdsText now (d.storageKey settings.keyPrefix)) :
    let r := request now capacity rate interval cost
    let fields := s.gate.store.fieldsAt now (d.storageKey settings.keyPrefix)
    let step := r.apply (Store.bucketOf? fields r.now)
    ∃ t, checkWith settings now d capacity rate interval cost s = (step.2.allowed, t) ∧
      Healthy t ∧ t.gate.store.entries.get? (d.storageKey settings.keyPrefix) =
        some ⟨.hash (Store.withBucket fields step.1),
          now.later? (.ofSeconds (Allowance.ttlOf interval))⟩ := by
  intro r fields step
  obtain ⟨t, heq, ht, hstore⟩ := checkWith_of_healthy hvalid (isCost_of_nonneg hcost) hs
    (Store.takeTokens_eq htext r)
  refine ⟨t, heq, ht, ?_⟩
  rw [hstore]
  exact (Table.get?_insert _ _ _ _).trans (if_pos rfl)

/-- While the store keeps what the bucket needs, checks answer as the bucket that never expires. -/
theorem answers_eq_of_kept (lossless : QuantityText.Lossless ℚ) {settings : LimiterSettings ℚ}
    {d : Dimension} (hvalid : Allowance.areValid capacity rate interval = true)
    (hfull : capacity ≤ gainedWhileKept rate interval) {s : Session}
    {checks : List (Instant × ℚ)} {answers : List Bool}
    (hrun : Checked settings d capacity rate interval s checks answers) :
    ∀ {current : Option (Bucket ℚ)} {last : Instant}, Healthy s →
      Kept interval (d.storageKey settings.keyPrefix) s.gate.store current last →
      0 ≤ last.nanos → (∀ c ∈ checks, last ≤ c.1) → Orderly checks →
      answers =
        (Bucket.run current (requests capacity rate interval checks)).map (·.2.allowed) := by
  obtain ⟨hcap, hrate, hint⟩ := areValid_rational.mp hvalid
  -- the invariant is that the store keeps what the bucket needs
  induction hrun with
  | done s =>
    intro _ _ _ _ _ _ _
    rfl
  | @check s now cost rest answers _ ih =>
    intro current last hs hkept hlast hle horder
    have hcost : 0 ≤ cost := horder.cost_nonneg _ List.mem_cons_self
    obtain ⟨t, heq, ht, hentry⟩ := checkWith_eq now hvalid hcost hs (hkept.not_text now)
    have hstep := congrArg (request now capacity rate interval cost).charge
      (refill_getD_of_kept cost hrate hint hfull hkept hlast
        (hle _ List.mem_cons_self))
    change (request now capacity rate interval cost).apply _ =
      (request now capacity rate interval cost).apply current at hstep
    rw [hstep] at heq hentry
    -- the bucket is written with a fresh deadline, so it is kept from now on
    have hnext : Kept interval (d.storageKey settings.keyPrefix) t.gate.store
        (some ((request now capacity rate interval cost).apply current).1) now :=
      .used hentry (fun moment => Store.bucketOf?_withBucket lossless _ _ moment)
        (Bucket.charge_tokens_nonneg (Bucket.refill_tokens_nonneg hcap hrate hint))
        (Bucket.charge_lastRefill.trans_le Bucket.refill_lastRefill_le)
    rw [heq] at ih ⊢
    have hrest := ih ht hnext (horder.since_epoch _ List.mem_cons_self)
      (List.pairwise_cons.mp horder.sorted).1 horder.tail
    rw [hrest]
    rfl
  | @other s t checks answers hapart _ ih =>
    intro current last hs hkept hlast hle horder
    refine ih (hapart.healthy hs) ?_ hlast hle horder
    cases hkept with
    | unused hnone => exact .unused (hapart.entry_eq.trans hnone)
    | used hsome hread htokens hrefill =>
      exact .used (hapart.entry_eq.trans hsome) hread htokens hrefill

/-- No run of checks on a healthy store tells a bucket that expires from one that never does. -/
def ExpiryUnobservable (settings : LimiterSettings ℚ) (d : Dimension)
    (capacity rate interval : ℚ) : Prop :=
  ∀ (s : Session) (checks : List (Instant × ℚ)) (answers : List Bool), Healthy s →
    s.gate.store.entries.get? (d.storageKey settings.keyPrefix) = none → Orderly checks →
    Checked settings d capacity rate interval s checks answers →
    answers = (Bucket.run none (requests capacity rate interval checks)).map (·.2.allowed)

end Kept

/-! ## Where expiry shows -/

/-- Two requests for a whole bucket, the second at the moment at which it is forgotten. -/
def twoFullRequests (capacity interval : ℚ) : List (Instant × ℚ) :=
  [(⟨0⟩, capacity), (⟨Allowance.ttlOf interval * nanosPerSecond⟩, capacity)]

theorem ofInstant_seconds (n : ℕ) : (ofInstant ⟨n * nanosPerSecond⟩ : ℚ) = n := by
  have hpos : ((nanosPerSecond : ℕ) : ℚ) ≠ 0 := by decide
  rw [ofInstant_eq (by positivity)]
  push_cast
  exact mul_div_cancel_right₀ _ hpos

theorem ofInstant_epoch : (ofInstant ⟨0⟩ : ℚ) = 0 := by
  rw [ofInstant_eq le_rfl, Int.cast_zero, zero_div]

/-- A request for a whole bucket empties one that nobody has used. -/
theorem apply_none_of_full_cost (capacity : ℚ) (hrate : 0 < rate) (hint : 0 < interval)
    (now : Instant) :
    (request now capacity rate interval capacity).apply none =
      (⟨0, ofInstant now⟩, ⟨true, 0⟩) := by
  have hgained : 0 ≤ (request now capacity rate interval capacity).gained
      (request now capacity rate interval capacity).fresh := Bucket.gained_nonneg hrate hint
  unfold Bucket.Request.apply
  rw [Option.getD_none, refill_eq_full (le_add_of_le_of_nonneg (le_max_left _ _) hgained)]
  refine (if_pos (le_refl capacity)).trans ?_
  show ((⟨capacity - capacity, ofInstant now⟩ : Bucket ℚ),
    (⟨true, capacity - capacity⟩ : Bucket.Outcome ℚ)) = _
  rw [sub_self]

/-- Of a bucket that never expires, the second request is denied if it has not refilled. -/
theorem run_twoFullRequests (hrate : 0 < rate) (hint : 0 < interval)
    (hshort : ¬ capacity ≤ gainedWhileKept rate interval) :
    (Bucket.run none (requests capacity rate interval (twoFullRequests capacity interval))).map
      (·.2.allowed) = [true, false] := by
  set later : Instant := ⟨Allowance.ttlOf interval * nanosPerSecond⟩ with hlater
  set r := request later capacity rate interval capacity with hr
  have hgained : r.gained ⟨0, ofInstant ⟨0⟩⟩ = gainedWhileKept rate interval := by
    have helapsed : r.elapsed ⟨0, ofInstant ⟨0⟩⟩ = Allowance.ttlOf interval := by
      show max ((ofInstant later : ℚ) - ofInstant ⟨0⟩) 0 = _
      rw [ofInstant_epoch, hlater, ofInstant_seconds, sub_zero]
      exact max_eq_left (Nat.cast_nonneg _)
    rw [Bucket.gained_eq, helapsed]
    rfl
  -- the gained tokens alone have to pay for the second request
  have hdenied : ¬ r.cost ≤ (r.refill ⟨0, ofInstant ⟨0⟩⟩).tokens := by
    rw [Bucket.refill_tokens, hgained, max_self, zero_add]
    exact fun h => hshort (h.trans (min_le_left _ _))
  have hsecond : (r.apply (some ⟨0, ofInstant ⟨0⟩⟩)).2.allowed = false := by
    unfold Bucket.Request.apply Bucket.Request.charge
    rw [Option.getD_some, if_neg hdenied]
  have hfirst := apply_none_of_full_cost capacity hrate hint ⟨0⟩
  show [((request ⟨0⟩ capacity rate interval capacity).apply none).2.allowed,
    (r.apply (some ((request ⟨0⟩ capacity rate interval capacity).apply none).1)).2.allowed] = _
  rw [hfirst, hsecond]

/-- A limiter that nobody has called, in front of an empty store. -/
def unused : Session :=
  ⟨.opened (fun _ => 0) .empty, .fresh, .empty, ⟨.zero, .zero, .zero, .zero⟩, []⟩

theorem healthy_unused : Healthy unused := ⟨⟨rfl, rfl⟩, rfl⟩

theorem orderly_twoFullRequests (hcap : 0 ≤ capacity) :
    Orderly (twoFullRequests capacity interval) where
  sorted := by
    refine List.pairwise_cons.mpr ⟨fun c hc => ?_, List.pairwise_singleton _ _⟩
    obtain rfl := List.mem_singleton.mp hc
    rw [Instant.le_def]
    positivity
  since_epoch := by
    intro c hc
    rcases List.mem_cons.mp hc with rfl | hc
    · exact le_rfl
    · obtain rfl := List.mem_singleton.mp hc
      positivity
  cost_nonneg := by
    intro c hc
    rcases List.mem_cons.mp hc with rfl | hc
    · exact hcap
    · obtain rfl := List.mem_singleton.mp hc
      exact hcap

section TwoFullRequests

variable [QuantityText ℚ]

/-- Of a bucket that expires, both requests are admitted. -/
theorem checked_twoFullRequests {settings : LimiterSettings ℚ} {d : Dimension} {s : Session}
    (hvalid : Allowance.areValid capacity rate interval = true) (hs : Healthy s)
    (hnone : s.gate.store.entries.get? (d.storageKey settings.keyPrefix) = none) :
    Checked settings d capacity rate interval s (twoFullRequests capacity interval)
      [true, true] := by
  obtain ⟨hcap, hrate, hint⟩ := areValid_rational.mp hvalid
  -- a year after the epoch is a moment that a clock can show
  have hheld : (⟨Allowance.ttlOf interval * nanosPerSecond⟩ : Instant).isHeld = true := by
    have hle : Allowance.ttlOf interval ≤ Allowance.maxTtl := min_le_left _ _
    unfold Instant.isHeld Instant.second Text.fitsSigned
    rw [Int.mul_ediv_cancel _ (by decide), Bool.and_eq_true, decide_eq_true_eq, decide_eq_true_eq]
    unfold Allowance.maxTtl at hle
    unfold Text.minSigned Text.maxSigned
    omega
  have hdeadline : (⟨0⟩ : Instant).later? (.ofSeconds (Allowance.ttlOf interval)) =
      some ⟨Allowance.ttlOf interval * nanosPerSecond⟩ := by
    refine Instant.later?_eq_some_iff.mpr ⟨?_, hheld⟩
    show _ = (0 : ℤ) + ((Allowance.ttlOf interval * nanosPerSecond : ℕ) : ℤ)
    push_cast
    exact (zero_add _).symm
  -- the first check empties the bucket
  have habsent := Store.visible?_of_absent (t := ⟨0⟩) hnone
  obtain ⟨t, heq, ht, hentry⟩ := checkWith_eq ⟨0⟩ hvalid hcap.le hs
    (Store.not_text_of_not_visible habsent)
  rw [Store.fieldsAt_of_not_visible habsent, Store.bucketOf?_empty,
    apply_none_of_full_cost capacity hrate hint] at heq
  -- the second finds it forgotten
  have hdead : ∀ value, ¬ (⟨value, (⟨0⟩ : Instant).later?
      (.ofSeconds (Allowance.ttlOf interval))⟩ : StoredEntry).isLive
        ⟨Allowance.ttlOf interval * nanosPerSecond⟩ = true := by
    intro value
    rw [hdeadline]
    simp [StoredEntry.isLive, Instant.lt_def]
  have hgone := Store.visible?_of_dead hentry (hdead _)
  obtain ⟨u, heq', _, _⟩ := checkWith_eq _ hvalid hcap.le ht (Store.not_text_of_not_visible hgone)
  rw [Store.fieldsAt_of_not_visible hgone, Store.bucketOf?_empty,
    apply_none_of_full_cost capacity hrate hint] at heq'
  have hsecond : Checked settings d capacity rate interval t
      [(⟨Allowance.ttlOf interval * nanosPerSecond⟩, capacity)] [true] := by
    have h := Checked.check (.done (checkWith settings
      ⟨Allowance.ttlOf interval * nanosPerSecond⟩ d capacity rate interval capacity t).2)
    rwa [heq'] at h
  have hfirst := @Checked.check ℚ _ _ settings d capacity rate interval s ⟨0⟩ capacity _ _
    (by rw [heq]; exact hsecond)
  rwa [heq] at hfirst

end TwoFullRequests

/-! ## The bound on a run through the store -/

/-- The costs of the checks that were answered with yes. -/
def admittedCost (checks : List (Instant × ℚ)) (answers : List Bool) : ℚ :=
  ((checks.zip answers).map fun (c, allowed) => if allowed then c.2 else 0).sum

/-- The time from the first check to the last, in seconds. -/
def span : List (Instant × ℚ) → ℚ
  | [] => 0
  | c :: rest => ofInstant ((c :: rest).getLast (List.cons_ne_nil c rest)).1 - ofInstant c.1

/-- The answers of a bucket that never expires charge it what they admit. -/
theorem admittedCost_run (checks : List (Instant × ℚ)) (current : Option (Bucket ℚ)) :
    admittedCost checks
      ((Bucket.run current (requests capacity rate interval checks)).map (·.2.allowed)) =
        (Bucket.charges current (requests capacity rate interval checks)).sum := by
  induction checks generalizing current with
  | nil => rfl
  | cons c rest ih =>
    have hcharges := Bucket.charges_cons current (request c.1 capacity rate interval c.2)
      (requests capacity rate interval rest)
    refine Eq.trans ?_ (congrArg List.sum hcharges).symm
    rw [List.sum_cons, ← ih]
    rfl

theorem ofInstant_mono {t u : Instant} (ht : 0 ≤ t.nanos) (h : t ≤ u) :
    (ofInstant t : ℚ) ≤ ofInstant u := by
  rw [Instant.le_def] at h
  rw [ofInstant_eq ht, ofInstant_eq (ht.trans h)]
  have hcast : (t.nanos : ℚ) ≤ u.nanos := by exact_mod_cast h
  gcongr

/-- The clock moves forwards from the first check to the last. -/
theorem forward_requests (capacity rate interval : ℚ) {checks : List (Instant × ℚ)}
    (h : Orderly checks) :
    Bucket.forward ((requests capacity rate interval checks).map (·.now)) = span checks := by
  have hnow : (requests capacity rate interval checks).map (·.now) =
      checks.map fun c => (ofInstant c.1 : ℚ) := by
    rw [requests, List.map_map]
    rfl
  rw [hnow]
  cases checks with
  | nil => rfl
  | cons c rest =>
    have hsorted : ((c :: rest).map fun c => (ofInstant c.1 : ℚ)).Pairwise (· ≤ ·) :=
      List.pairwise_map.mpr <| h.sorted.imp_of_mem fun hmem _ hle =>
        ofInstant_mono (h.since_epoch _ hmem) hle
    rw [List.map_cons] at hsorted ⊢
    rw [Bucket.forward_eq_sub _ _ hsorted, span]
    congr 1
    exact List.getLast_map (f := fun c => (ofInstant c.1 : ℚ)) (l := c :: rest)
      (List.cons_ne_nil _ _)

/-- What a bucket that never expires admits is bounded by its capacity and the time of the run. -/
theorem admittedCost_run_le (hcap : 0 < capacity) (hrate : 0 < rate) (hint : 0 < interval)
    {checks : List (Instant × ℚ)} (h : Orderly checks) :
    admittedCost checks
      ((Bucket.run none (requests capacity rate interval checks)).map (·.2.allowed)) ≤
        capacity + rate * span checks / interval := by
  rw [admittedCost_run]
  cases checks with
  | nil =>
    show (0 : ℚ) ≤ capacity + rate * 0 / interval
    rw [mul_zero, zero_div, add_zero]
    exact hcap.le
  | cons c rest =>
    set r := request c.1 capacity rate interval c.2 with hr
    have hfits : ∀ q ∈ requests capacity rate interval (c :: rest),
        q.Fits capacity rate interval := by
      intro q hq
      obtain ⟨check, hmem, rfl⟩ := List.mem_map.mp hq
      exact ⟨rfl, rfl, rfl, h.cost_nonneg check hmem⟩
    have hbound := Bucket.sum_charges_cons_le hcap hrate hint none r
      (requests capacity rate interval rest) hfits
    have hfresh : r.capacity ≤ (r.refill r.fresh).tokens := by
      rw [Bucket.refill_tokens]
      refine le_min ?_ le_rfl
      exact le_add_of_le_of_nonneg (le_max_left _ _) (Bucket.gained_nonneg hrate hint)
    rw [Option.getD_none, Bucket.worth_refill_of_full hfresh] at hbound
    have hforward := forward_requests capacity rate interval h
    calc (Bucket.charges none (requests capacity rate interval (c :: rest))).sum
        ≤ capacity + rate / interval *
          Bucket.forward ((requests capacity rate interval (c :: rest)).map (·.now)) := hbound
      _ = capacity + rate * span (c :: rest) / interval := by
        rw [hforward]
        ring

section Exact

variable [QuantityText ℚ]

/-- **Expiry cannot be observed exactly where a bucket refills while it is kept.**  There the cost
admitted through the store also keeps within the capacity and what the rate pays for the time from
the first check to the last. -/
theorem expiryUnobservable_iff (lossless : QuantityText.Lossless ℚ) (settings : LimiterSettings ℚ)
    (d : Dimension) (hvalid : Allowance.areValid capacity rate interval = true) :
    (ExpiryUnobservable settings d capacity rate interval ↔
      capacity ≤ gainedWhileKept rate interval) ∧
    (capacity ≤ gainedWhileKept rate interval →
      ∀ (s : Session) (checks : List (Instant × ℚ)) (answers : List Bool), Healthy s →
        s.gate.store.entries.get? (d.storageKey settings.keyPrefix) = none → Orderly checks →
        Checked settings d capacity rate interval s checks answers →
        admittedCost checks answers ≤ capacity + rate * span checks / interval) := by
  obtain ⟨hcap, hrate, hint⟩ := areValid_rational.mp hvalid
  have hif : capacity ≤ gainedWhileKept rate interval →
      ExpiryUnobservable settings d capacity rate interval := by
    intro hfull s checks answers hs hnone horder hrun
    have hkept : Kept interval (d.storageKey settings.keyPrefix) s.gate.store none ⟨0⟩ :=
      .unused hnone
    exact answers_eq_of_kept lossless hvalid hfull hrun hs hkept le_rfl horder.since_epoch horder
  refine ⟨⟨?_, hif⟩, ?_⟩
  · intro hsame
    by_contra hshort
    -- two requests for a whole bucket tell them apart
    have hanswers := hsame unused _ _ healthy_unused rfl (orderly_twoFullRequests hcap.le)
      (checked_twoFullRequests hvalid healthy_unused rfl)
    rw [run_twoFullRequests hrate hint hshort] at hanswers
    exact absurd hanswers (by decide)
  · intro hfull s checks answers hs hnone horder hrun
    rw [hif hfull s checks answers hs hnone horder hrun]
    exact admittedCost_run_le hcap hrate hint horder

end Exact

/-- The standard allowance of an address has refilled by the time it is forgotten. -/
theorem expiryUnobservable_standard :
    (@QuantityText.Lossless ℚ fractions ∧ Allowance.areValid (100 : ℚ) 100 60 = true) ∧
      @ExpiryUnobservable fractions .standard ⟨.ip, "203.0.113.7"⟩ 100 100 60 ∧
      admittedCost (twoFullRequests 100 60) [true, true] ≤
        100 + 100 * span (twoFullRequests 100 60) / 60 := by
  have hvalid : Allowance.areValid (100 : ℚ) 100 60 = true := by decide +kernel
  have hfull : (100 : ℚ) ≤ gainedWhileKept 100 60 := by decide +kernel
  obtain ⟨hiff, hbound⟩ := @expiryUnobservable_iff 100 100 60 fractions lossless_fractions
    .standard ⟨.ip, "203.0.113.7"⟩ hvalid
  refine ⟨⟨lossless_fractions, hvalid⟩, hiff.mpr hfull, ?_⟩
  refine hbound hfull unused _ _ healthy_unused rfl (orderly_twoFullRequests (by norm_num)) ?_
  exact @checked_twoFullRequests 100 100 60 fractions _ _ _ hvalid healthy_unused rfl

/-- A bucket of ten tokens that gains one a second is forgotten after two seconds.  Two requests for
ten tokens, two seconds apart, are admitted then, and the second would not be. -/
theorem slowRefill_forgotten :
    let d : Dimension := ⟨.ip, "203.0.113.7"⟩
    let checks : List (Instant × ℚ) := [(⟨0⟩, 10), (⟨2 * nanosPerSecond⟩, 10)]
    Allowance.areValid (10 : ℚ) 1 1 = true ∧ Healthy unused ∧ Orderly checks ∧
      unused.gate.store.entries.get? (d.storageKey "rate_limit:") = none ∧
      @Checked ℚ _ fractions .standard d 10 1 1 unused checks [true, true] ∧
      (Bucket.run none (requests 10 1 1 checks)).map (·.2.allowed) = [true, false] ∧
      ¬ admittedCost checks [true, true] ≤ 10 + 1 * span checks / 1 := by
  intro d checks
  have hvalid : Allowance.areValid (10 : ℚ) 1 1 = true := by decide +kernel
  have hchecks : checks = twoFullRequests 10 1 := by
    have httl : Allowance.ttlOf (1 : ℚ) = 2 := by decide +kernel
    unfold twoFullRequests
    rw [httl]
    rfl
  have horder : Orderly checks := hchecks ▸ orderly_twoFullRequests (by norm_num)
  have hrun : @Checked ℚ _ fractions .standard d 10 1 1 unused checks [true, true] :=
    hchecks ▸ @checked_twoFullRequests 10 1 1 fractions _ _ _ hvalid healthy_unused rfl
  refine ⟨hvalid, healthy_unused, horder, rfl, hrun, ?_, ?_⟩
  · decide +kernel
  · decide +kernel

end Bulwark.Limiter
