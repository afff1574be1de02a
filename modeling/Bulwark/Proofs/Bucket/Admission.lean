import Mathlib.Algebra.Order.Field.Rat
import Mathlib.Algebra.Order.BigOperators.Group.List
import Mathlib.Tactic.FieldSimp
import Mathlib.Tactic.Linarith
import Mathlib.Tactic.Positivity
import Mathlib.Tactic.Ring
import Bulwark.Bucket
import Bulwark.Proofs.Quantity.Exact

/-!
# What a bucket admits

Over exact numbers, the costs that a bucket admits are bounded by its capacity and by what its rate
pays for the time that the clock has moved forwards, however often it was asked and wherever the
clock has jumped in between.

The proof is by a potential.  `worth r b` counts the tokens in a bucket together with the time that
has passed since its refill time, at the price of the rate.  A refill turns time into tokens one for
one, or throws some of it away when the bucket is full (`worth_refill_le`); a charge takes its cost
out of the tokens; a backward move of the clock takes time away; only a forward move adds to the
potential.  After a refill less than one token's worth of time is left over (`worth_refill_lt`),
which is the `+ 1` in the bound on a stretch of a run.
-/

namespace Bulwark.Bucket

open Quantity

/-! ## One refill in exact arithmetic -/

section Refill

variable (r : Request ℚ) (b : Bucket ℚ)

/-- The time since the last refill, none if the refill time is ahead of the clock. -/
def Request.elapsed : ℚ := max (r.now - b.lastRefill) 0

theorem gained_eq : r.gained b = (⌊r.elapsed b / r.interval * r.rate⌋ : ℤ) := by
  show Quantity.floor (maximum (r.now - b.lastRefill) zero / r.interval * r.rate) = _
  rw [maximum_rational]
  rfl

theorem refill_tokens :
    (r.refill b).tokens = min (max b.tokens 0 + r.gained b) r.capacity := by
  show minimum (maximum b.tokens zero + r.gained b) r.capacity = _
  rw [minimum_rational, maximum_rational]
  rfl

theorem refill_lastRefill :
    (r.refill b).lastRefill =
      if r.capacity ≤ (r.refill b).tokens then r.now
      else if 0 < r.gained b then min (b.lastRefill + r.gained b * r.interval / r.rate) r.now
      else min b.lastRefill r.now := by
  rw [← minimum_rational, ← minimum_rational]
  rfl

theorem elapsed_nonneg : 0 ≤ r.elapsed b := le_max_right _ _

end Refill

section Potential

variable {r : Request ℚ} {b : Bucket ℚ}

theorem gained_nonneg (hrate : 0 < r.rate) (hint : 0 < r.interval) : 0 ≤ r.gained b := by
  rw [gained_eq]
  have h : 0 ≤ r.elapsed b / r.interval * r.rate := by
    have := elapsed_nonneg r b
    positivity
  exact_mod_cast Int.floor_nonneg.mpr h

theorem gained_le : r.gained b ≤ r.rate / r.interval * r.elapsed b := by
  rw [gained_eq, show r.rate / r.interval * r.elapsed b = r.elapsed b / r.interval * r.rate by ring]
  exact Int.floor_le _

theorem lt_gained_add_one : r.rate / r.interval * r.elapsed b < r.gained b + 1 := by
  rw [gained_eq, show r.rate / r.interval * r.elapsed b = r.elapsed b / r.interval * r.rate by ring]
  exact Int.lt_floor_add_one _

theorem refill_tokens_nonneg (hcap : 0 < r.capacity) (hrate : 0 < r.rate) (hint : 0 < r.interval) :
    0 ≤ (r.refill b).tokens := by
  rw [refill_tokens]
  exact le_min (add_nonneg (le_max_right _ _) (gained_nonneg hrate hint)) hcap.le

theorem refill_tokens_le : (r.refill b).tokens ≤ r.capacity := by
  rw [refill_tokens]
  exact min_le_right _ _

theorem refill_lastRefill_le : (r.refill b).lastRefill ≤ r.now := by
  rw [refill_lastRefill]
  split
  · exact le_rfl
  · split <;> exact min_le_right _ _

/-- Without a cap, the refill time is behind the clock by the elapsed time less what the gained
tokens account for. -/
theorem now_sub_lastRefill (hrate : 0 < r.rate) (hint : 0 < r.interval)
    (h : ¬ r.capacity ≤ (r.refill b).tokens) :
    r.now - (r.refill b).lastRefill = r.elapsed b - r.gained b * r.interval / r.rate := by
  rw [refill_lastRefill, if_neg h]
  by_cases hg : 0 < r.gained b
  · rw [if_pos hg]
    -- the gained tokens account for no more time than has elapsed
    have hpaid : r.gained b * r.interval / r.rate ≤ r.elapsed b := by
      rw [div_le_iff₀ hrate, ← le_div_iff₀ hint]
      calc r.gained b ≤ r.rate / r.interval * r.elapsed b := gained_le
        _ = r.elapsed b * r.rate / r.interval := by ring
    have hpos : 0 < r.elapsed b := by
      have : 0 < r.gained b * r.interval / r.rate := by positivity
      linarith
    -- something was gained, so the clock is ahead of the bucket
    have helapsed : r.elapsed b = r.now - b.lastRefill := by
      refine max_eq_left (le_of_lt ?_)
      by_contra hle
      rw [Request.elapsed, max_eq_right (not_lt.mp hle)] at hpos
      exact lt_irrefl _ hpos
    rw [min_eq_left (by linarith), helapsed]
    ring
  -- nothing was gained, and the refill time moves only if the clock has gone back
  · rw [if_neg hg, show r.gained b = 0 from le_antisymm (not_lt.mp hg) (gained_nonneg hrate hint)]
    rw [zero_mul, zero_div, sub_zero, Request.elapsed]
    rcases le_total b.lastRefill r.now with hle | hle
    · rw [min_eq_left hle, max_eq_left (sub_nonneg.mpr hle)]
    · rw [min_eq_right hle, max_eq_right (sub_nonpos.mpr hle), sub_self]

/-- The tokens in a bucket, and what the time since its refill time is worth in tokens. -/
def worth (r : Request ℚ) (b : Bucket ℚ) : ℚ :=
  b.tokens + r.rate / r.interval * (r.now - b.lastRefill)

/-- A full bucket is worth its capacity. -/
theorem worth_refill_of_full (h : r.capacity ≤ (r.refill b).tokens) :
    worth r (r.refill b) = r.capacity := by
  rw [worth, refill_lastRefill, if_pos h, le_antisymm refill_tokens_le h]
  ring

/-- A bucket that is not full keeps every part of its worth. -/
theorem worth_refill_of_not_full (hrate : 0 < r.rate) (hint : 0 < r.interval)
    (h : ¬ r.capacity ≤ (r.refill b).tokens) :
    worth r (r.refill b) = max b.tokens 0 + r.rate / r.interval * r.elapsed b := by
  have htokens : (r.refill b).tokens = max b.tokens 0 + r.gained b := by
    rw [refill_tokens] at h ⊢
    exact min_eq_left (le_of_lt (by simpa using h))
  rw [worth, now_sub_lastRefill hrate hint h, htokens]
  field_simp
  ring

/-- A refill creates no worth beyond what the elapsed time pays for. -/
theorem worth_refill_le (hrate : 0 < r.rate) (hint : 0 < r.interval) (htokens : 0 ≤ b.tokens) :
    worth r (r.refill b) ≤ b.tokens + r.rate / r.interval * r.elapsed b := by
  by_cases h : r.capacity ≤ (r.refill b).tokens
  · rw [worth_refill_of_full h]
    calc r.capacity ≤ (r.refill b).tokens := h
      _ ≤ max b.tokens 0 + r.gained b := by rw [refill_tokens]; exact min_le_left _ _
      _ ≤ b.tokens + r.rate / r.interval * r.elapsed b := by
        rw [max_eq_left htokens]
        exact add_le_add_right gained_le _
  · rw [worth_refill_of_not_full hrate hint h, max_eq_left htokens]

/-- After a refill, the time left over is worth less than one token. -/
theorem worth_refill_lt (hrate : 0 < r.rate) (hint : 0 < r.interval) :
    worth r (r.refill b) < r.capacity + 1 := by
  by_cases h : r.capacity ≤ (r.refill b).tokens
  · rw [worth_refill_of_full h]
    linarith
  · rw [worth_refill_of_not_full hrate hint h]
    have htokens : max b.tokens 0 + r.gained b < r.capacity := by
      rw [refill_tokens] at h
      simpa using h
    -- what flooring has left over is less than one token
    have hleft := lt_gained_add_one (r := r) (b := b)
    linarith

end Potential

/-! ## Charges -/

/-- What a step takes out of the bucket. -/
def charged (r : Request ℚ) (o : Outcome ℚ) : ℚ := if o.allowed then r.cost else 0

variable {r : Request ℚ} {b : Bucket ℚ}

theorem charge_tokens : (r.charge b).1.tokens = b.tokens - charged r (r.charge b).2 := by
  unfold Request.charge
  split
  · rfl
  · exact (sub_zero b.tokens).symm

theorem charge_lastRefill : (r.charge b).1.lastRefill = b.lastRefill := by
  unfold Request.charge
  split <;> rfl

theorem charge_tokens_nonneg (h : 0 ≤ b.tokens) : 0 ≤ (r.charge b).1.tokens := by
  unfold Request.charge
  split
  · exact sub_nonneg.mpr ‹r.cost ≤ b.tokens›
  · exact h

/-- A charge is taken out of the worth. -/
theorem worth_charge : worth r (r.charge b).1 = worth r b - charged r (r.charge b).2 := by
  rw [worth, worth, charge_tokens, charge_lastRefill]
  ring

/-! ## Runs -/

/-- What the steps of a run take out of the bucket, one after the other. -/
def charges : Option (Bucket ℚ) → List (Request ℚ) → List ℚ := fun current rs =>
  (rs.zip (run current rs)).map fun (r, _, o) => charged r o

/-- The bucket after a run. -/
def after : Option (Bucket ℚ) → List (Request ℚ) → Option (Bucket ℚ)
  | current, [] => current
  | current, r :: rest => after (some (r.apply current).1) rest

@[simp]
theorem charges_nil (current : Option (Bucket ℚ)) : charges current [] = [] := rfl

@[simp]
theorem charges_cons (current : Option (Bucket ℚ)) (r : Request ℚ) (rest : List (Request ℚ)) :
    charges current (r :: rest) =
      charged r (r.apply current).2 :: charges (some (r.apply current).1) rest := rfl

theorem length_charges (current : Option (Bucket ℚ)) (rs : List (Request ℚ)) :
    (charges current rs).length = rs.length := by
  induction rs generalizing current with
  | nil => rfl
  | cons r rest ih => rw [charges_cons, List.length_cons, ih, List.length_cons]

theorem charges_append (current : Option (Bucket ℚ)) (xs ys : List (Request ℚ)) :
    charges current (xs ++ ys) = charges current xs ++ charges (after current xs) ys := by
  induction xs generalizing current with
  | nil => rfl
  | cons r rest ih =>
    rw [List.cons_append, charges_cons, charges_cons, List.cons_append, ih]
    rfl

/-- The forward movements of a clock that shows these times one after the other. -/
def forward : List ℚ → ℚ
  | [] => 0
  | [_] => 0
  | t :: u :: rest => max 0 (u - t) + forward (u :: rest)

/-- A clock that never goes back has moved from its first time to its last. -/
theorem forward_eq_sub (t : ℚ) (ts : List ℚ) (h : (t :: ts).Pairwise (· ≤ ·)) :
    forward (t :: ts) = (t :: ts).getLast (List.cons_ne_nil t ts) - t := by
  induction ts generalizing t with
  | nil => exact (sub_self t).symm
  | cons u rest ih =>
    obtain ⟨hfirst, hrest⟩ := List.pairwise_cons.mp h
    rw [forward, ih u hrest, max_eq_right (sub_nonneg.mpr (hfirst u List.mem_cons_self)),
      List.getLast_cons (List.cons_ne_nil u rest)]
    ring

/-- A request to the bucket with the given parameters, at a cost that is not negative. -/
structure Request.Fits (capacity rate interval : ℚ) (r : Request ℚ) : Prop where
  capacity_eq : r.capacity = capacity
  rate_eq : r.rate = rate
  interval_eq : r.interval = interval
  cost_nonneg : 0 ≤ r.cost

section Bounds

variable {capacity rate interval : ℚ}

/-- What a run takes out of a bucket is at most the worth of the bucket at the start and what the
rate pays for the forward movements of the clock. -/
theorem sum_charges_le (hcap : 0 < capacity) (hrate : 0 < rate) (hint : 0 < interval)
    (rs : List (Request ℚ)) :
    ∀ (b : Bucket ℚ) (clock : ℚ), 0 ≤ b.tokens → b.lastRefill ≤ clock →
      (∀ r ∈ rs, r.Fits capacity rate interval) →
      (charges (some b) rs).sum ≤ b.tokens + rate / interval * (clock - b.lastRefill)
        + rate / interval * forward (clock :: rs.map (·.now)) := by
  have hprice : 0 < rate / interval := div_pos hrate hint
  -- induction on the run: the worth of the bucket pays for the first step and for the rest
  induction rs with
  | nil =>
    intro b clock htokens hle _
    have := mul_nonneg hprice.le (sub_nonneg.mpr hle)
    simp only [charges_nil, List.sum_nil, List.map_nil, forward, mul_zero]
    linarith
  | cons r rest ih =>
    intro b clock htokens hle hfits
    obtain ⟨rfl, rfl, rfl, _⟩ := hfits r List.mem_cons_self
    have hrefilled : 0 ≤ (r.refill b).tokens := refill_tokens_nonneg hcap hrate hint
    have hrest := ih (r.apply (some b)).1 r.now (charge_tokens_nonneg hrefilled)
      (charge_lastRefill.trans_le refill_lastRefill_le)
      fun q hq => hfits q (List.mem_cons_of_mem r hq)
    have hspent : worth r (r.apply (some b)).1 =
        worth r (r.refill b) - charged r (r.apply (some b)).2 := worth_charge
    rw [worth.eq_def r (r.apply (some b)).1] at hspent
    have hworth : worth r (r.refill b) ≤ b.tokens + r.rate / r.interval * r.elapsed b :=
      worth_refill_le hrate hint htokens
    -- time since the refill time is time up to the last step, or forward movement since then
    have helapsed : r.elapsed b ≤ (clock - b.lastRefill) + max 0 (r.now - clock) := by
      refine max_le ?_ ?_
      · linarith [le_max_right 0 (r.now - clock)]
      · linarith [le_max_left 0 (r.now - clock)]
    have hpaid := mul_le_mul_of_nonneg_left helapsed hprice.le
    rw [charges_cons, List.sum_cons, List.map_cons, forward, mul_add]
    linarith

/-- A run that starts with a given request takes at most the worth of the bucket after its first
refill, and what the rate pays for later forward movements of the clock. -/
theorem sum_charges_cons_le (hcap : 0 < capacity) (hrate : 0 < rate) (hint : 0 < interval)
    (current : Option (Bucket ℚ)) (r : Request ℚ) (rest : List (Request ℚ))
    (hfits : ∀ q ∈ r :: rest, q.Fits capacity rate interval) :
    (charges current (r :: rest)).sum ≤ worth r (r.refill (current.getD r.fresh))
      + rate / interval * forward ((r :: rest).map (·.now)) := by
  obtain ⟨rfl, rfl, rfl, _⟩ := hfits r List.mem_cons_self
  have hrefilled : 0 ≤ (r.refill (current.getD r.fresh)).tokens :=
    refill_tokens_nonneg hcap hrate hint
  have hrest := sum_charges_le hcap hrate hint rest (r.apply current).1 r.now
    (charge_tokens_nonneg hrefilled) (charge_lastRefill.trans_le refill_lastRefill_le)
    fun q hq => hfits q (List.mem_cons_of_mem r hq)
  have hspent : worth r (r.apply current).1 =
      worth r (r.refill (current.getD r.fresh)) - charged r (r.apply current).2 := worth_charge
  rw [worth.eq_def r (r.apply current).1] at hspent
  rw [charges_cons, List.sum_cons, List.map_cons]
  linarith

/-- **No more is admitted than capacity and time allow.**  A whole run from a bucket nobody has used
admits at most the capacity and what the rate pays for the forward movements of the clock; any
stretch of it admits less than one token more than that, counted from its own start. -/
theorem admitted_le_and_stretch_lt (hcap : 0 < capacity) (hrate : 0 < rate) (hint : 0 < interval)
    (rs : List (Request ℚ)) (hfits : ∀ r ∈ rs, r.Fits capacity rate interval) :
    (charges none rs).sum ≤ capacity + rate / interval * forward (rs.map (·.now)) ∧
    ∀ past stretch rest, rs = past ++ stretch ++ rest →
      (((charges none rs).drop past.length).take stretch.length).sum <
        capacity + 1 + rate / interval * forward (stretch.map (·.now)) := by
  constructor
  · cases rs with
    | nil =>
      simp only [charges_nil, List.sum_nil, List.map_nil, forward, mul_zero]
      linarith
    | cons r rest =>
      have hbound := sum_charges_cons_le hcap hrate hint none r rest hfits
      obtain ⟨rfl, rfl, rfl, _⟩ := hfits r List.mem_cons_self
      -- an unused bucket is full at its first refill
      have hfresh : r.capacity ≤ (r.refill r.fresh).tokens := by
        rw [refill_tokens]
        refine le_min ?_ le_rfl
        exact le_add_of_le_of_nonneg (le_max_left _ _) (gained_nonneg hrate hint)
      rwa [Option.getD_none, worth_refill_of_full hfresh] at hbound
  · rintro past stretch rest rfl
    have hstretch : ((charges none (past ++ stretch ++ rest)).drop past.length).take stretch.length
        = charges (after none past) stretch := by
      rw [charges_append, charges_append, List.append_assoc,
        List.drop_left' (length_charges none past),
        List.take_left' (length_charges (after none past) stretch)]
    rw [hstretch]
    cases stretch with
    | nil =>
      simp only [charges_nil, List.sum_nil, List.map_nil, forward, mul_zero]
      linarith
    | cons r later =>
      have hmem : ∀ q ∈ r :: later, q.Fits capacity rate interval := fun q hq =>
        hfits q (List.mem_append_left _ (List.mem_append_right _ hq))
      have hbound := sum_charges_cons_le hcap hrate hint (after none past) r later hmem
      obtain ⟨rfl, rfl, rfl, _⟩ := hmem r List.mem_cons_self
      have hlt := worth_refill_lt (r := r) (b := (after none past).getD r.fresh) hrate hint
      linarith

end Bounds

/-- Three requests of a bucket for two tokens, the second at a clock that has jumped back. -/
def jumpBack : List (Request ℚ) :=
  [⟨2, 1, 1, 2, 10, 2⟩, ⟨2, 1, 1, 1, 9, 2⟩, ⟨2, 1, 1, 1, 10, 2⟩]

/-- The first bound is reached: the way back and forth buys one token more. -/
theorem charges_jumpBack :
    charges none jumpBack = [2, 0, 1] ∧ forward (jumpBack.map (·.now)) = 1 ∧
      (charges none jumpBack).sum ≤ 2 + 1 / 1 * forward (jumpBack.map (·.now)) := by
  refine ⟨by decide +kernel, by decide +kernel, ?_⟩
  refine (admitted_le_and_stretch_lt (by norm_num) (by norm_num) (by norm_num) jumpBack ?_).1
  intro r hr
  simp only [jumpBack, List.mem_cons, List.not_mem_nil, or_false] at hr
  rcases hr with rfl | rfl | rfl <;> exact ⟨rfl, rfl, rfl, by norm_num⟩

end Bulwark.Bucket
