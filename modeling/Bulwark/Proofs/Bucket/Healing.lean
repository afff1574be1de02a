import Bulwark.Dimension
import Bulwark.Proofs.Bucket.Polling
import Bulwark.Proofs.Quantity.Extended

/-!
# Any stored bucket heals

What a store holds for a bucket may be anything that a double can be: tokens below zero or above
the capacity, a refill time in the future, infinities, not-a-number.  One step makes a proper bucket
of it.

For every such bucket there is one with exact numbers that a refill turns into the same bucket
(`mend`, `refill_lift`), so what is known of exact numbers is true of it.
-/

namespace Bulwark.Bucket

open Quantity

/-! ## Exact numbers among the extended ones -/

/-- A bucket of exact numbers as one of extended numbers. -/
def lift (b : Bucket ℚ) : Bucket Extended := ⟨.finite b.tokens, .finite b.lastRefill⟩

/-- A request in exact numbers as one in extended numbers. -/
def Request.lift (r : Request ℚ) : Request Extended where
  capacity := .finite r.capacity
  rate := .finite r.rate
  interval := .finite r.interval
  cost := .finite r.cost
  now := .finite r.now
  ttlSeconds := r.ttlSeconds

/-- An outcome in exact numbers as one in extended numbers. -/
def Outcome.lift (o : Outcome ℚ) : Outcome Extended := ⟨o.allowed, .finite o.remaining⟩

theorem charge_lift (r : Request ℚ) (b : Bucket ℚ) :
    r.lift.charge b.lift = ((r.charge b).1.lift, (r.charge b).2.lift) := by
  have hleft : Extended.finite b.tokens - .finite r.cost = .finite (b.tokens - r.cost) :=
    Extended.finite_sub _ _
  unfold Request.charge
  simp only [lift, Request.lift, Extended.finite_le_finite, hleft]
  split <;> rfl

/-- A charge is allowed exactly if the bucket has the tokens, takes these out if it is and nothing
otherwise, and tells what is left. -/
theorem charge_spec {α : Type} [Quantity α] (r : Request α) (b : Bucket α) :
    (r.charge b).2.remaining = (r.charge b).1.tokens ∧
      ((r.charge b).2.allowed = true ↔ r.cost ≤ b.tokens) ∧
      (r.charge b).1.tokens =
        if (r.charge b).2.allowed then b.tokens - r.cost else b.tokens := by
  unfold Request.charge
  by_cases hpaid : r.cost ≤ b.tokens
  · rw [if_pos hpaid]
    exact ⟨rfl, iff_of_true rfl hpaid, rfl⟩
  · rw [if_neg hpaid]
    exact ⟨rfl, iff_of_false Bool.false_ne_true hpaid, rfl⟩

/-! ## Mending -/

/-- The number that stored tokens count as: infinitely many are a full bucket, and what is no number
is nothing. -/
def mendTokens (capacity : ℚ) : Extended → ℚ
  | .finite q => q
  | .infinite false => capacity
  | .infinite true => 0
  | .nan => 0

/-- The time that a stored refill time counts as if it does not lie infinitely far back: what is no
time is now. -/
def mendTime (now : ℚ) : Extended → ℚ
  | .finite q => q
  | .infinite _ => now
  | .nan => now

/-- The bucket that a stored one counts as.  One that was last refilled infinitely long ago is
full. -/
def mend (r : Request ℚ) (b : Bucket Extended) : Bucket ℚ :=
  if b.lastRefill = .infinite true then r.fresh
  else ⟨mendTokens r.capacity b.tokens, mendTime r.now b.lastRefill⟩

section Mend

variable {r : Request ℚ} {b : Bucket Extended}

/-- A refill time that lies infinitely far back gives infinitely many tokens. -/
theorem gained_of_ever (hrate : 0 < r.rate) (hint : 0 < r.interval)
    (hever : b.lastRefill = .infinite true) : r.lift.gained b = .infinite false := by
  have hdiv : Extended.infinite false / .finite r.interval = .infinite false := by
    show Extended.infinite (false != decide (r.interval < 0)) = _
    simp [hint.le]
  have hmul : Extended.infinite false * .finite r.rate = .infinite false := by
    show (if r.rate = 0 then Extended.nan else .infinite (false != decide (r.rate < 0))) = _
    simp [hrate.ne', hrate.le]
  show floor (maximum (Extended.finite r.now - b.lastRefill) zero / .finite r.interval *
    .finite r.rate) = _
  rw [hever, show Extended.finite r.now - .infinite true = .infinite false from rfl,
    Extended.zero_eq, Extended.maximum_positive, hdiv, hmul]
  rfl

/-- Any other refill time gives as many tokens as the time that it counts as. -/
theorem gained_lift (hint : 0 < r.interval) (hever : b.lastRefill ≠ .infinite true) (tokens : ℚ) :
    r.lift.gained b = .finite (r.gained ⟨tokens, mendTime r.now b.lastRefill⟩) := by
  have helapsed : maximum (Extended.finite r.now - b.lastRefill) (.finite 0) =
      .finite (max (r.now - mendTime r.now b.lastRefill) 0) := by
    cases hlast : b.lastRefill with
    | finite q => rw [Extended.finite_sub, Extended.maximum_finite, mendTime]
    | infinite negative =>
      cases negative with
      | true => exact absurd hlast hever
      | false =>
        rw [mendTime, sub_self, max_self]
        exact Extended.maximum_negative 0
    | nan =>
      rw [mendTime, sub_self, max_self]
      exact Extended.maximum_nan 0
  show floor (maximum (Extended.finite r.now - b.lastRefill) zero / .finite r.interval *
    .finite r.rate) = _
  rw [Extended.zero_eq, helapsed, Extended.finite_div _ _ hint.ne', Extended.finite_mul,
    Extended.floor_finite, gained_eq]
  rfl

/-- Stored tokens, with what they have gained, give as many as the number that they count as. -/
theorem tokens_lift {capacity gained : ℚ} (hgained : 0 ≤ gained) (tokens : Extended) :
    minimum (maximum tokens (.finite 0) + .finite gained) (.finite capacity) =
      .finite (min (max (mendTokens capacity tokens) 0 + gained) capacity) := by
  cases tokens with
  | finite q =>
    rw [Extended.maximum_finite, Extended.finite_add, Extended.minimum_finite, mendTokens]
  | infinite negative =>
    cases negative with
    | true =>
      rw [Extended.maximum_negative, Extended.finite_add, Extended.minimum_finite, mendTokens,
        max_self]
    | false =>
      have hfull : capacity ≤ max capacity 0 + gained :=
        le_add_of_le_of_nonneg (le_max_left _ _) hgained
      rw [Extended.maximum_positive, mendTokens, min_eq_right hfull]
      exact Extended.minimum_positive capacity
  | nan =>
    rw [Extended.maximum_nan, Extended.finite_add, Extended.minimum_finite, mendTokens, max_self]

/-- Infinitely many tokens gained fill the bucket, whatever was in it. -/
theorem tokens_of_ever (capacity : ℚ) (tokens : Extended) :
    minimum (maximum tokens (.finite 0) + .infinite false) (.finite capacity) =
      .finite capacity := by
  have hsum : maximum tokens (.finite 0) + Extended.infinite false = .infinite false := by
    cases tokens with
    | finite q =>
      rw [Extended.maximum_finite]
      rfl
    | infinite negative =>
      cases negative with
      | true =>
        rw [Extended.maximum_negative]
        rfl
      | false =>
        rw [Extended.maximum_positive]
        rfl
    | nan =>
      rw [Extended.maximum_nan]
      rfl
  rw [hsum, Extended.minimum_positive]

/-- A stored refill time that is not ahead of the clock afterwards is the time that it counts as. -/
theorem minimum_lift (hever : b.lastRefill ≠ .infinite true) :
    minimum b.lastRefill (.finite r.now) =
      .finite (min (mendTime r.now b.lastRefill) r.now) := by
  cases hlast : b.lastRefill with
  | finite q => rw [Extended.minimum_finite, mendTime]
  | infinite negative =>
    cases negative with
    | true => exact absurd hlast hever
    | false =>
      rw [mendTime, min_self]
      exact Extended.minimum_positive r.now
  | nan =>
    rw [mendTime, min_self]
    exact Extended.minimum_nan r.now

/-- Where something has been gained, the refill time is a number. -/
theorem lastRefill_of_gained {tokens : ℚ}
    (hpos : 0 < r.gained ⟨tokens, mendTime r.now b.lastRefill⟩) :
    b.lastRefill = .finite (mendTime r.now b.lastRefill) := by
  cases hlast : b.lastRefill with
  | finite q => rfl
  | infinite negative =>
    rw [hlast, gained_of_lag le_rfl] at hpos
    exact absurd hpos (lt_irrefl 0)
  | nan =>
    rw [hlast, gained_of_lag le_rfl] at hpos
    exact absurd hpos (lt_irrefl 0)

/-- **A refill mends.**  It does to a stored bucket what it does to the one of exact numbers that
this counts as. -/
theorem refill_lift (hrate : 0 < r.rate) (hint : 0 < r.interval) :
    r.lift.refill b = (r.refill (mend r b)).lift := by
  by_cases hever : b.lastRefill = .infinite true
  · have hfull : r.refill (mend r b) = ⟨r.capacity, r.now⟩ := by
      rw [mend, if_pos hever]
      exact refill_fresh hrate hint
    rw [hfull, Request.refill, gained_of_ever hrate hint hever, Extended.zero_eq]
    simp only [Request.lift, tokens_of_ever, Extended.finite_le_finite, le_refl, if_true]
    rfl
  · have hgained := gained_lift hint hever (mendTokens r.capacity b.tokens)
    have hmend : mend r b = ⟨mendTokens r.capacity b.tokens, mendTime r.now b.lastRefill⟩ :=
      if_neg hever
    rw [← hmend] at hgained
    have htokens : (r.lift.refill b).tokens = .finite (r.refill (mend r b)).tokens := by
      show minimum (maximum b.tokens zero + r.lift.gained b) (.finite r.capacity) = _
      rw [hgained, Extended.zero_eq, tokens_lift (gained_nonneg hrate hint), refill_tokens, hmend]
    have hlast : (r.lift.refill b).lastRefill = .finite (r.refill (mend r b)).lastRefill := by
      show (if Extended.finite r.capacity ≤ (r.lift.refill b).tokens then Extended.finite r.now
        else if zero < r.lift.gained b then minimum (b.lastRefill + r.lift.gained b *
          .finite r.interval / .finite r.rate) (.finite r.now)
        else minimum b.lastRefill (.finite r.now)) = _
      rw [htokens, hgained, Extended.zero_eq, refill_lastRefill]
      simp only [Extended.finite_le_finite, Extended.finite_lt_finite]
      split
      · rfl
      split
      · rename_i hpos
        rw [hmend] at hpos ⊢
        rw [lastRefill_of_gained hpos, Extended.finite_mul, Extended.finite_div _ _ hrate.ne',
          Extended.finite_add, Extended.minimum_finite]
        rfl
      · rw [minimum_lift hever, hmend]
    exact congrArg₂ Bucket.mk htokens hlast

/-- The same where the store may hold nothing. -/
theorem refill_lift_getD (hrate : 0 < r.rate) (hint : 0 < r.interval)
    (current : Option (Bucket Extended)) :
    r.lift.refill (current.getD r.lift.fresh) =
      (r.refill ((current.map (mend r)).getD r.fresh)).lift := by
  cases current with
  | some b => exact refill_lift hrate hint
  | none => exact refill_lift (b := r.fresh.lift) hrate hint

end Mend

/-! ## After one step -/

/-- A bucket as a step may leave it: both fields are numbers, the tokens lie between nothing and the
capacity, and the refill time is not ahead of the clock. -/
structure Request.Keeps (r : Request Extended) (b : Bucket Extended) : Prop where
  tokens_isFinite : isFinite b.tokens = true
  zero_le_tokens : zero ≤ b.tokens
  tokens_le_capacity : b.tokens ≤ r.capacity
  lastRefill_isFinite : isFinite b.lastRefill = true
  lastRefill_le_now : b.lastRefill ≤ r.now

theorem keeps_lift {r : Request ℚ} {b : Bucket ℚ} (hzero : 0 ≤ b.tokens)
    (hcapacity : b.tokens ≤ r.capacity) (hnow : b.lastRefill ≤ r.now) : r.lift.Keeps b.lift where
  tokens_isFinite := rfl
  zero_le_tokens := by
    rw [Extended.zero_eq]
    exact (Extended.finite_le_finite _ _).mpr hzero
  tokens_le_capacity := (Extended.finite_le_finite _ _).mpr hcapacity
  lastRefill_isFinite := rfl
  lastRefill_le_now := (Extended.finite_le_finite _ _).mpr hnow

/-- A request whose parameters are checked, at a price and a time that are numbers, is one of exact
numbers. -/
theorem exists_lift_eq {r : Request Extended}
    (hvalid : Allowance.areValid r.capacity r.rate r.interval = true)
    (hcost : isFinite r.cost = true ∧ zero ≤ r.cost) (hnow : isFinite r.now = true) :
    ∃ q : Request ℚ, q.lift = r ∧ 0 < q.capacity ∧ 0 < q.rate ∧ 0 < q.interval ∧ 0 ≤ q.cost := by
  simp only [Allowance.areValid, Bool.and_eq_true, decide_eq_true_eq] at hvalid
  obtain ⟨⟨⟨⟨⟨hcapacity, hrate⟩, hinterval⟩, hcapacity'⟩, hrate'⟩, hinterval'⟩ := hvalid
  obtain ⟨hcost, hcost'⟩ := hcost
  obtain ⟨capacity, rate, interval, cost, now, ttl⟩ := r
  obtain ⟨c, rfl⟩ := Extended.isFinite_iff.mp hcapacity
  obtain ⟨p, rfl⟩ := Extended.isFinite_iff.mp hrate
  obtain ⟨i, rfl⟩ := Extended.isFinite_iff.mp hinterval
  obtain ⟨k, rfl⟩ := Extended.isFinite_iff.mp hcost
  obtain ⟨t, rfl⟩ := Extended.isFinite_iff.mp hnow
  simp only [Extended.zero_eq, Extended.finite_lt_finite, Extended.finite_le_finite]
    at hcapacity' hrate' hinterval' hcost'
  exact ⟨⟨c, p, i, k, t, ttl⟩, rfl, hcapacity', hrate', hinterval', hcost'⟩

/-- **Any stored bucket heals in one step.**  Whatever the store holds for a bucket, or if it holds
nothing, a step with checked parameters refills it to a proper bucket and leaves a proper one.  It
is allowed exactly if the refilled bucket has the tokens for it, and then takes these out, and
otherwise nothing. -/
theorem apply_heals (r : Request Extended)
    (hvalid : Allowance.areValid r.capacity r.rate r.interval = true)
    (hcost : isFinite r.cost = true ∧ zero ≤ r.cost) (hnow : isFinite r.now = true)
    (current : Option (Bucket Extended)) :
    let refilled := r.refill (current.getD r.fresh)
    let left := (r.apply current).1
    let outcome := (r.apply current).2
    r.Keeps refilled ∧ r.Keeps left ∧ outcome.remaining = left.tokens ∧
      (outcome.allowed = true ↔ r.cost ≤ refilled.tokens) ∧
      left.tokens = if outcome.allowed then refilled.tokens - r.cost else refilled.tokens := by
  intro refilled left outcome
  obtain ⟨q, rfl, hcapacity, hrate, hinterval, hprice⟩ := exists_lift_eq hvalid hcost hnow
  -- the exact bucket that the stored one counts as
  let b := (current.map (mend q)).getD q.fresh
  have hrefilled : refilled = (q.refill b).lift := refill_lift_getD hrate hinterval current
  have hnonneg : 0 ≤ (q.refill b).tokens := refill_tokens_nonneg hcapacity hrate hinterval
  have hleft : left = (q.charge (q.refill b)).1.lift := by
    show (q.lift.charge refilled).1 = _
    rw [hrefilled, charge_lift]
  have htaken : (q.charge (q.refill b)).1.tokens ≤ (q.refill b).tokens := by
    rw [charge_tokens]
    refine sub_le_self _ ?_
    unfold charged
    split
    · exact hprice
    · exact le_rfl
  refine ⟨?_, ?_, charge_spec q.lift refilled⟩
  · rw [hrefilled]
    exact keeps_lift hnonneg refill_tokens_le refill_lastRefill_le
  · rw [hleft]
    exact keeps_lift (charge_tokens_nonneg hnonneg) (htaken.trans refill_tokens_le)
      (charge_lastRefill.trans_le refill_lastRefill_le)

/-- A request for three of five tokens, ten seconds after the epoch. -/
def threeOfFive : Request Extended :=
  ⟨.finite 5, .finite 1, .finite 1, .finite 3, .finite 10, 2⟩

/-- Tokens that are no number count as none, and a refill time that lies infinitely far back fills
the bucket all the same. -/
theorem apply_heals_neverRefilled :
    (threeOfFive.apply (some ⟨.nan, .infinite true⟩)).1 = ⟨.finite 2, .finite 10⟩ ∧
      threeOfFive.Keeps (threeOfFive.apply (some ⟨.nan, .infinite true⟩)).1 :=
  ⟨by decide +kernel,
    (apply_heals threeOfFive (by decide +kernel) (by decide +kernel) (by decide +kernel)
      (some ⟨.nan, .infinite true⟩)).2.1⟩

end Bulwark.Bucket
