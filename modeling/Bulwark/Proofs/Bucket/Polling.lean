import Bulwark.Proofs.Bucket.Admission

/-!
# Steps that take nothing

A step that costs nothing, or that is denied, leaves a refilled bucket behind and nothing else
(`apply_of_takesNothing`).  What is said here is over exact numbers.

If the clock has not gone back, refilling now and again later is refilling later (`refill_refill`):
what flooring has left over the first time is still there the second time.  So such steps may be
made at any moments in between, and no later step notices (`run_after_polls`).

A step whose clock lags behind the refill time sees no time passed, and sets the refill time back to
its own clock (`apply_after_lag`).  To later steps with a better clock that is worth the whole
tokens that the time set back stands for.
-/

namespace Bulwark.Bucket

open Quantity

/-- A request to the bucket with the given parameters, at any cost. -/
structure Request.IsTo (capacity rate interval : ℚ) (r : Request ℚ) : Prop where
  capacity_eq : r.capacity = capacity
  rate_eq : r.rate = rate
  interval_eq : r.interval = interval

/-- A step that costs nothing or is denied. -/
def Request.TakesNothing (r : Request ℚ) (current : Option (Bucket ℚ)) : Prop :=
  r.cost = 0 ∨ (r.apply current).2.allowed = false

/-! ## One refill -/

section Refill

variable {r : Request ℚ} {b : Bucket ℚ}

/-- Nothing is gained while the clock lags behind the refill time. -/
theorem gained_of_lag (hlag : r.now ≤ b.lastRefill) : r.gained b = 0 := by
  have helapsed : r.elapsed b = 0 := max_eq_right (sub_nonpos.mpr hlag)
  rw [gained_eq, helapsed, zero_div, zero_mul, Int.floor_zero, Int.cast_zero]

/-- All that a step leaves which takes nothing is the refill. -/
theorem apply_of_takesNothing {current : Option (Bucket ℚ)} (h : r.TakesNothing current) :
    (r.apply current).1 = r.refill (current.getD r.fresh) := by
  unfold Request.TakesNothing Request.apply Request.charge at *
  dsimp only at h ⊢
  split
  · rename_i hpaid
    rw [if_pos hpaid] at h
    have hcost : r.cost = 0 := h.resolve_right (by simp)
    simp only [hcost, sub_zero]
  · rfl

/-- A bucket that is full stays full, and counts from now. -/
theorem refill_of_full (hrate : 0 < r.rate) (hint : 0 < r.interval)
    (hfull : r.capacity ≤ b.tokens) : r.refill b = ⟨r.capacity, r.now⟩ := by
  have htokens : (r.refill b).tokens = r.capacity := by
    rw [refill_tokens]
    refine min_eq_right (hfull.trans ?_)
    exact le_add_of_le_of_nonneg (le_max_left _ _) (gained_nonneg hrate hint)
  have hlast : (r.refill b).lastRefill = r.now := by
    rw [refill_lastRefill, if_pos htokens.ge]
  exact congrArg₂ Bucket.mk htokens hlast

theorem refill_fresh (hrate : 0 < r.rate) (hint : 0 < r.interval) :
    r.refill r.fresh = ⟨r.capacity, r.now⟩ := refill_of_full hrate hint le_rfl

/-- A bucket that gets full counts from now. -/
theorem refill_eq_of_full (h : r.capacity ≤ (r.refill b).tokens) :
    r.refill b = ⟨r.capacity, r.now⟩ := by
  have hlast : (r.refill b).lastRefill = r.now := by
    rw [refill_lastRefill, if_pos h]
  exact congrArg₂ Bucket.mk (le_antisymm refill_tokens_le h) hlast

/-- A bucket that does not get full gains its tokens, and its refill time moves by what they account
for. -/
theorem refill_eq_of_not_full (hrate : 0 < r.rate) (hint : 0 < r.interval)
    (hpast : b.lastRefill ≤ r.now) (h : ¬ r.capacity ≤ (r.refill b).tokens) :
    r.refill b =
      ⟨max b.tokens 0 + r.gained b, b.lastRefill + r.gained b * r.interval / r.rate⟩ := by
  have htokens : (r.refill b).tokens = max b.tokens 0 + r.gained b := by
    rw [refill_tokens] at h ⊢
    exact min_eq_left (le_of_lt (by simpa using h))
  have hlast : (r.refill b).lastRefill = b.lastRefill + r.gained b * r.interval / r.rate := by
    have helapsed : r.elapsed b = r.now - b.lastRefill := max_eq_left (sub_nonneg.mpr hpast)
    have hbehind := now_sub_lastRefill hrate hint h
    linarith
  exact congrArg₂ Bucket.mk htokens hlast

end Refill

/-! ## Two refills -/

section Twice

variable {capacity rate interval : ℚ} {r q : Request ℚ} {b : Bucket ℚ}

/-- Later there is more to gain. -/
theorem gained_le_gained (hrate : 0 < rate) (hint : 0 < interval)
    (hr : r.IsTo capacity rate interval) (hq : q.IsTo capacity rate interval)
    (hlater : r.now ≤ q.now) : r.gained b ≤ q.gained b := by
  have helapsed : r.elapsed b ≤ q.elapsed b :=
    max_le_max_right 0 (sub_le_sub_right hlater b.lastRefill)
  rw [gained_eq, gained_eq, hr.rate_eq, hr.interval_eq, hq.rate_eq, hq.interval_eq]
  refine Int.cast_le.mpr (Int.floor_le_floor ?_)
  exact mul_le_mul_of_nonneg_right (div_le_div_of_nonneg_right helapsed hint.le) hrate.le

/-- Whole tokens that the refill time has moved by are not gained again, and all others are. -/
theorem gained_of_moved (hrate : 0 < rate) (hint : 0 < interval)
    (hq : q.IsTo capacity rate interval) (hpast : b.lastRefill ≤ q.now) (tokens : ℚ) (n : ℤ)
    (hmoved : b.lastRefill + n * interval / rate ≤ q.now) :
    q.gained ⟨tokens, b.lastRefill + n * interval / rate⟩ = q.gained b - n := by
  have helapsed : q.elapsed b = q.now - b.lastRefill := max_eq_left (sub_nonneg.mpr hpast)
  have hleft : q.elapsed ⟨tokens, b.lastRefill + n * interval / rate⟩ =
      q.elapsed b - n * interval / rate := by
    rw [helapsed]
    show max (q.now - (b.lastRefill + n * interval / rate)) 0 = _
    rw [max_eq_left (sub_nonneg.mpr hmoved)]
    ring
  have hworth : q.elapsed ⟨tokens, b.lastRefill + n * interval / rate⟩ / interval * rate =
      q.elapsed b / interval * rate - n := by
    rw [hleft]
    field_simp
  rw [gained_eq, gained_eq, hq.rate_eq, hq.interval_eq, hworth, Int.floor_sub_intCast]
  exact Int.cast_sub _ n

/-- A bucket that has been given whole tokens, and the time that they account for, is refilled as it
would have been before. -/
theorem refill_of_moved (hrate : 0 < rate) (hint : 0 < interval)
    (hq : q.IsTo capacity rate interval) (hpast : b.lastRefill ≤ q.now) (n : ℤ)
    (hnonneg : 0 ≤ max b.tokens 0 + n)
    (hmoved : b.lastRefill + n * interval / rate ≤ q.now) :
    q.refill ⟨max b.tokens 0 + n, b.lastRefill + n * interval / rate⟩ = q.refill b := by
  have hq' : 0 < q.rate ∧ 0 < q.interval := ⟨hq.rate_eq ▸ hrate, hq.interval_eq ▸ hint⟩
  have hleft := gained_of_moved hrate hint hq hpast (max b.tokens 0 + n) n hmoved
  generalize hc : (⟨max b.tokens 0 + n, b.lastRefill + n * interval / rate⟩ : Bucket ℚ) = c at hleft
  have htokens : max c.tokens 0 + q.gained c = max b.tokens 0 + q.gained b := by
    rw [hleft, ← hc, max_eq_left hnonneg]
    ring
  have hsame : (q.refill c).tokens = (q.refill b).tokens := by
    rw [refill_tokens, refill_tokens, htokens]
  by_cases hfull : q.capacity ≤ (q.refill b).tokens
  · rw [refill_eq_of_full hfull, refill_eq_of_full (hsame ▸ hfull)]
  · have hc' : c.lastRefill ≤ q.now := by
      rw [← hc]
      exact hmoved
    rw [refill_eq_of_not_full hq'.1 hq'.2 hpast hfull,
      refill_eq_of_not_full hq'.1 hq'.2 hc' (hsame ▸ hfull), htokens, hleft, ← hc,
      hq.rate_eq, hq.interval_eq]
    congr 1
    ring

/-- **Refill is independent of the path.**  Refilling now and again later is refilling later. -/
theorem refill_refill (hrate : 0 < rate) (hint : 0 < interval) (hr : r.IsTo capacity rate interval)
    (hq : q.IsTo capacity rate interval) (hpast : b.lastRefill ≤ r.now) (hlater : r.now ≤ q.now) :
    q.refill (r.refill b) = q.refill b := by
  have hr' : 0 < r.rate ∧ 0 < r.interval := ⟨hr.rate_eq ▸ hrate, hr.interval_eq ▸ hint⟩
  have hcapacity : q.capacity = r.capacity := hq.capacity_eq.trans hr.capacity_eq.symm
  by_cases hfull : r.capacity ≤ (r.refill b).tokens
  -- a bucket that is full now is full later, on either path
  · have hdirect : q.capacity ≤ (q.refill b).tokens := by
      rw [refill_tokens] at hfull ⊢
      refine le_min ?_ le_rfl
      calc q.capacity = r.capacity := hcapacity
        _ ≤ max b.tokens 0 + r.gained b := hfull.trans (min_le_left _ _)
        _ ≤ max b.tokens 0 + q.gained b :=
          add_le_add_right (gained_le_gained hrate hint hr hq hlater) _
    rw [refill_eq_of_full hfull, refill_eq_of_full hdirect]
    exact refill_of_full (hq.rate_eq ▸ hrate) (hq.interval_eq ▸ hint) hcapacity.le
  · have hrefill := refill_eq_of_not_full hr'.1 hr'.2 hpast hfull
    have hmoved : (r.refill b).lastRefill ≤ q.now := refill_lastRefill_le.trans hlater
    have hnonneg : 0 ≤ max b.tokens 0 + r.gained b :=
      add_nonneg (le_max_right _ _) (gained_nonneg hr'.1 hr'.2)
    rw [hrefill, hr.rate_eq, hr.interval_eq, gained_eq r] at hmoved
    rw [hrefill, hr.rate_eq, hr.interval_eq]
    rw [gained_eq r] at hnonneg ⊢
    exact refill_of_moved hrate hint hq (hpast.trans hlater) _ hnonneg hmoved

end Twice

/-! ## Polling -/

section Polling

variable {capacity rate interval : ℚ}

/-- A step made after one that takes nothing is the step made in its place. -/
theorem apply_after_poll (hrate : 0 < rate) (hint : 0 < interval) {r q : Request ℚ}
    (hr : r.IsTo capacity rate interval) (hq : q.IsTo capacity rate interval)
    (hlater : r.now ≤ q.now) {current : Option (Bucket ℚ)}
    (hpast : ∀ b ∈ current, b.lastRefill ≤ r.now) (hnothing : r.TakesNothing current) :
    q.apply (some (r.apply current).1) = q.apply current := by
  have hrefill : q.refill (r.refill (current.getD r.fresh)) = q.refill (current.getD q.fresh) := by
    cases current with
    | some b => exact refill_refill hrate hint hr hq (hpast b rfl) hlater
    | none =>
      rw [Option.getD_none, Option.getD_none,
        refill_fresh (hr.rate_eq ▸ hrate) (hr.interval_eq ▸ hint),
        refill_fresh (hq.rate_eq ▸ hrate) (hq.interval_eq ▸ hint)]
      exact refill_of_full (hq.rate_eq ▸ hrate) (hq.interval_eq ▸ hint)
        (hq.capacity_eq.trans hr.capacity_eq.symm).le
  unfold Request.apply at hrefill ⊢
  rw [show (r.charge (r.refill (current.getD r.fresh))).1 = _ from apply_of_takesNothing hnothing,
    Option.getD_some, hrefill]

/-- Steps of which each takes nothing where it is made. -/
def AllTakeNothing : Option (Bucket ℚ) → List (Request ℚ) → Prop
  | _, [] => True
  | current, r :: rest =>
    r.TakesNothing current ∧ AllTakeNothing (some (r.apply current).1) rest

/-- **Polling is free.**  Steps that take nothing, made at any moments before another step, are not
noticed by that step or by any after it: these leave the same buckets and have the same outcomes as
without them.  The refill time of the bucket comes first, and the clock does not go back up to that
step. -/
theorem run_after_polls (hrate : 0 < rate) (hint : 0 < interval) (polls : List (Request ℚ))
    (r : Request ℚ) (rest : List (Request ℚ)) :
    ∀ current : Option (Bucket ℚ), AllTakeNothing current polls →
      (∀ q ∈ polls ++ [r], q.IsTo capacity rate interval) →
      (current.toList.map (·.lastRefill) ++ (polls ++ [r]).map (·.now)).Pairwise (· ≤ ·) →
      (run current (polls ++ r :: rest)).drop polls.length = run current (r :: rest) := by
  -- induction on the polls: the first one leaves a bucket from which the others take nothing either
  induction polls with
  | nil =>
    intro current _ _ _
    rfl
  | cons p polls ih =>
    intro current hnothing hto hclock
    obtain ⟨hpoll, hpolls⟩ := hnothing
    have hpolled : (p.apply current).1 = p.refill (current.getD p.fresh) :=
      apply_of_takesNothing hpoll
    have hp := hto p List.mem_cons_self
    have hr := hto r (by simp)
    obtain ⟨-, htimes, hpast⟩ := List.pairwise_append.mp hclock
    obtain ⟨hfirst, htimes'⟩ := List.pairwise_cons.mp htimes
    have hlater : ∀ q ∈ polls ++ [r], p.now ≤ q.now := fun q hq =>
      hfirst q.now (List.mem_map_of_mem hq)
    have hrest := ih (some (p.apply current).1) hpolls
      (fun q hq => hto q (List.mem_cons_of_mem p hq)) (by
        refine List.pairwise_cons.mpr ⟨?_, htimes'⟩
        intro t ht
        obtain ⟨q, hq, rfl⟩ := List.mem_map.mp ht
        rw [hpolled]
        exact refill_lastRefill_le.trans (hlater q hq))
    have hsame : r.apply (some (p.apply current).1) = r.apply current := by
      refine apply_after_poll hrate hint hp hr (hlater r (by simp)) (fun b hb => ?_) hpoll
      exact hpast b.lastRefill (List.mem_map_of_mem (Option.mem_toList.mpr hb)) p.now
        List.mem_cons_self
    rw [List.cons_append, List.length_cons, run, List.drop_succ_cons, hrest, run, run, hsame]

/-- Three requests to a bucket that gains five tokens a second, half a token apart. -/
def halfTokens : List (Request ℚ) :=
  [⟨5, 5, 1, 1, 100, 2⟩, ⟨5, 5, 1, 1, 100 + 1 / 10, 2⟩, ⟨5, 5, 1, 1, 100 + 2 / 10, 2⟩]

/-- The first two find an empty bucket and are denied, and the last one gets its token. -/
theorem run_after_polls_halfTokens :
    (run (some ⟨0, 100⟩) halfTokens).map (·.2.allowed) = [false, false, true] ∧
      (run (some ⟨0, 100⟩) halfTokens).drop 2 = run (some ⟨0, 100⟩) (halfTokens.drop 2) := by
  refine ⟨by decide +kernel, ?_⟩
  refine @run_after_polls 5 5 1 (by norm_num) (by norm_num) (halfTokens.take 2)
    ⟨5, 5, 1, 1, 100 + 2 / 10, 2⟩ [] (some ⟨0, 100⟩) ?_ ?_ (by decide +kernel)
  · exact ⟨.inr (by decide +kernel), .inr (by decide +kernel), trivial⟩
  · intro q hq
    simp only [halfTokens, List.take, List.cons_append, List.nil_append, List.mem_cons,
      List.not_mem_nil, or_false] at hq
    rcases hq with rfl | rfl | rfl <;> exact ⟨rfl, rfl, rfl⟩

end Polling

/-! ## Clocks that lag -/

section Lag

variable {capacity rate interval : ℚ}

/-- The bucket with its refill time set back to a clock that is behind it. -/
def rewind (clock : ℚ) (b : Bucket ℚ) : Bucket ℚ := ⟨b.tokens, min b.lastRefill clock⟩

/-- The tokens that a step finds. -/
def Request.available (q : Request ℚ) (current : Option (Bucket ℚ)) : ℚ :=
  ({ q with cost := 0 }.apply current).2.remaining

theorem available_eq (q : Request ℚ) (current : Option (Bucket ℚ)) :
    q.available current = (q.refill (current.getD q.fresh)).tokens := by
  unfold Request.available Request.apply Request.charge
  dsimp only
  split
  · exact sub_zero _
  · rfl

/-- Refilling sets the refill time back anyway. -/
theorem refill_rewind (r : Request ℚ) (b : Bucket ℚ) : r.refill (b.rewind r.now) = r.refill b := by
  have helapsed : r.elapsed (b.rewind r.now) = r.elapsed b := by
    show max (r.now - min b.lastRefill r.now) 0 = max (r.now - b.lastRefill) 0
    rcases le_total b.lastRefill r.now with hle | hle
    · rw [min_eq_left hle]
    · rw [min_eq_right hle, sub_self, max_self, max_eq_right (sub_nonpos.mpr hle)]
  have hgained : r.gained (b.rewind r.now) = r.gained b := by
    rw [gained_eq, gained_eq, helapsed]
  have htokens : (r.refill (b.rewind r.now)).tokens = (r.refill b).tokens := by
    rw [refill_tokens, refill_tokens, hgained]
    rfl
  refine congrArg₂ Bucket.mk htokens ?_
  show (r.refill (b.rewind r.now)).lastRefill = (r.refill b).lastRefill
  rw [refill_lastRefill, refill_lastRefill, htokens, hgained]
  split
  · rfl
  split
  · rename_i hpos
    -- something was gained, so the clock is ahead of the bucket
    have hahead : b.lastRefill ≤ r.now := by
      by_contra hlag
      rw [gained_of_lag (not_le.mp hlag).le] at hpos
      exact lt_irrefl 0 hpos
    show min (min b.lastRefill r.now + _) r.now = _
    rw [min_eq_left hahead]
  · show min (min b.lastRefill r.now) r.now = _
    rw [min_assoc, min_self]

/-- A step whose clock lags gains nothing, and leaves its clock as the refill time. -/
theorem refill_of_lag {r : Request ℚ} {b : Bucket ℚ} (hlag : r.now ≤ b.lastRefill) :
    r.refill b = ⟨min (max b.tokens 0) r.capacity, r.now⟩ := by
  have hgained : r.gained b = 0 := gained_of_lag hlag
  refine congrArg₂ Bucket.mk ?_ ?_
  · show (r.refill b).tokens = _
    rw [refill_tokens, hgained, add_zero]
  · show (r.refill b).lastRefill = _
    rw [refill_lastRefill, hgained, if_neg (lt_irrefl 0), min_eq_right hlag, ite_self]

/-- To later steps, a step that takes nothing has set the refill time back to its clock. -/
theorem apply_after_lag (hrate : 0 < rate) (hint : 0 < interval) {r q : Request ℚ}
    (hr : r.IsTo capacity rate interval) (hq : q.IsTo capacity rate interval)
    (hlater : r.now ≤ q.now) {current : Option (Bucket ℚ)} (hnothing : r.TakesNothing current) :
    q.apply (some (r.apply current).1) = q.apply (current.map (rewind r.now)) := by
  cases current with
  | none => exact apply_after_poll hrate hint hr hq hlater nofun hnothing
  | some b =>
    -- the step does the same to the bucket that is set back, whose refill time does not lie ahead
    have hsame : r.apply (some (b.rewind r.now)) = r.apply (some b) :=
      congrArg r.charge (refill_rewind r b)
    have hpast : ∀ c ∈ some (b.rewind r.now), c.lastRefill ≤ r.now := by
      rintro c ⟨⟩
      exact min_le_right _ _
    have hpoll := apply_after_poll hrate hint hr hq hlater hpast
      (hnothing.imp_right (by rw [hsame]; exact id))
    rwa [hsame] at hpoll

/-- From a refill time that is set back there is no less to gain. -/
theorem gained_le_gained_rewind (hrate : 0 < rate) (hint : 0 < interval) {q : Request ℚ}
    (hq : q.IsTo capacity rate interval) (clock : ℚ) (b : Bucket ℚ) :
    q.gained b ≤ q.gained (b.rewind clock) := by
  rw [gained_eq, gained_eq, hq.rate_eq, hq.interval_eq]
  refine Int.cast_le.mpr (Int.floor_le_floor ?_)
  refine mul_le_mul_of_nonneg_right (div_le_div_of_nonneg_right ?_ hint.le) hrate.le
  exact max_le_max_right 0 (sub_le_sub_left (min_le_left _ _) q.now)

/-- Where more is gained, no more is there only if the bucket would be full anyway. -/
theorem min_add_le_min_add_iff {tokens gained more capacity : ℚ} (h : gained ≤ more) :
    min (tokens + more) capacity ≤ min (tokens + gained) capacity ↔
      more = gained ∨ min (tokens + gained) capacity = capacity := by
  constructor
  · intro hle
    by_cases hfull : capacity ≤ tokens + gained
    · exact .inr (min_eq_right hfull)
    · rw [min_eq_left (not_le.mp hfull).le] at hle
      refine .inl (le_antisymm ?_ h)
      rcases min_le_iff.mp hle with hmore | hcapacity
      · exact (add_le_add_iff_left _).mp hmore
      · exact absurd hcapacity hfull
  · rintro (heq | hfull)
    · rw [heq]
    · rw [hfull]
      exact min_le_right _ _

/-- **What a lagging clock mints.**  A step that is denied while its clock lags behind the refill
time gains nothing and sets the refill time back, which is all that later steps see of it.  So the
tokens that a later step finds are those that it would have found without the denied one, if the
clock did not lag.  If it did, they are no more than those exactly if the time set back is worth no
whole token then, or the bucket would be full anyway. -/
theorem available_after_denied_le_iff (hrate : 0 < rate) (hint : 0 < interval) {r q : Request ℚ}
    (hr : r.IsTo capacity rate interval) (hq : q.IsTo capacity rate interval)
    (hlater : r.now ≤ q.now) (current : Option (Bucket ℚ))
    (hdenied : (r.apply current).2.allowed = false) :
    let left := (r.apply current).1
    (∀ b ∈ current, r.now ≤ b.lastRefill → left = ⟨min (max b.tokens 0) capacity, r.now⟩) ∧
    q.apply (some left) = q.apply (current.map (rewind r.now)) ∧
    ((∀ b ∈ current, b.lastRefill ≤ r.now) → q.available (some left) = q.available current) ∧
    (q.available (some left) ≤ q.available current ↔
      ∀ b ∈ current, q.gained (b.rewind r.now) = q.gained b ∨ q.available current = capacity) := by
  intro left
  have hnothing : r.TakesNothing current := .inr hdenied
  have hleft : left = r.refill (current.getD r.fresh) := apply_of_takesNothing hnothing
  have hq0 : Request.IsTo capacity rate interval { q with cost := 0 } :=
    ⟨hq.capacity_eq, hq.rate_eq, hq.interval_eq⟩
  have hfound : q.available (some left) = q.available (current.map (rewind r.now)) :=
    congrArg (·.2.remaining) (apply_after_lag hrate hint hr hq0 hlater hnothing)
  refine ⟨?_, apply_after_lag hrate hint hr hq hlater hnothing, ?_, ?_⟩
  · rintro b ⟨⟩ hlag
    rw [hleft, Option.getD_some, refill_of_lag hlag, hr.capacity_eq]
  · intro hpast
    exact congrArg (·.2.remaining) (apply_after_poll hrate hint hr hq0 hlater hpast hnothing)
  · rw [hfound]
    cases current with
    | none => exact ⟨fun _ => nofun, fun _ => le_rfl⟩
    | some b =>
      simp only [Option.map_some, Option.mem_def, Option.some.injEq, forall_eq', available_eq,
        Option.getD_some, refill_tokens, hq.capacity_eq]
      exact min_add_le_min_add_iff (gained_le_gained_rewind hrate hint hq r.now b)

/-- A request at a time to a bucket for five tokens that gains one a second. -/
def requestAt (now : ℚ) : Request ℚ := ⟨5, 1, 1, 1, now, 2⟩

/-- A lag of half a second mints nothing as long as it is not worth a token. -/
theorem available_after_denied_halfSecond :
    (requestAt (3 / 4)).available (some ((requestAt 0).apply (some ⟨0, 1 / 2⟩)).1) ≤
      (requestAt (3 / 4)).available (some ⟨0, 1 / 2⟩) := by
  have hto : ∀ now, (requestAt now).IsTo 5 1 1 := fun _ => ⟨rfl, rfl, rfl⟩
  refine (available_after_denied_le_iff (by norm_num) (by norm_num) (hto 0) (hto (3 / 4))
    (by decide +kernel) (some ⟨0, 1 / 2⟩) (by decide +kernel)).2.2.2.mpr ?_
  rintro b ⟨⟩
  exact .inl (by decide +kernel)

/-- An empty bucket, refilled by somebody whose clock shows ten seconds. -/
def aheadOfUs : Bucket ℚ := ⟨0, 10⟩

/-- A denied step at a lagging clock makes five tokens out of nothing. -/
theorem laggingDenial_mints :
    (((requestAt 0).apply (some aheadOfUs)).2.allowed = false) ∧
      ¬ (requestAt 5).available (some ((requestAt 0).apply (some aheadOfUs)).1) ≤
        (requestAt 5).available (some aheadOfUs) := by
  decide +kernel

end Lag

end Bulwark.Bucket
