import Bulwark.Proofs.Decimal.Rounding
import Bulwark.Proofs.Quantity.Extended
import Bulwark.Proofs.Recovery.Backoff

/-!
# How delays are spread

What a configuration that makes sense may rely on when its delays are spread, in exact arithmetic.
A sample is anything that a double can be.  Between minus one and one it takes its share of the
jitter; outside, and for the infinities, it counts as the nearer end; and what is no number leaves no
delay at all.

The spread delay is the exact one, `exactSpread`, to the nearest nanosecond
(`jitteredDelay?_nearest`).  Rounding keeps the order, so everything that `Spreads` says of delays
follows from what is true of `exactSpread`.  That doubles in place of exact numbers do not make a
delay too long either is `RetrySettings.holdsDelays_of_policies`.
-/

namespace Bulwark

open Quantity

/-! ## Lengths of time in exact arithmetic -/

theorem nanosPerSecond_pos : (0 : ℚ) < nanosPerSecond := by
  show (0 : ℚ) < ((1000000000 : ℕ) : ℚ)
  norm_num

/-- A number of seconds is rounded to the nearest nanosecond, if it is not above a length that can be
held. -/
theorem Quantity.toDuration?_rational {x : ℚ} {longest : ℕ} (hnonneg : 0 ≤ x)
    (hle : x * nanosPerSecond ≤ longest) (hheld : longest < Duration.limit) :
    ∃ d : Duration, toDuration? x = some d ∧ NearestEven (x * nanosPerSecond) d.nanos := by
  have hquotient : ((x.num.toNat * nanosPerSecond : ℕ) : ℚ) / x.den = x * nanosPerSecond := by
    have hnum : ((x.num.toNat : ℕ) : ℚ) = x.num := by
      exact_mod_cast Int.toNat_of_nonneg (Rat.num_nonneg.mpr hnonneg)
    rw [Nat.cast_mul, hnum, mul_div_right_comm, Rat.num_div_den]
  have hnearest := nearestEven_roundHalfEven (x.num.toNat * nanosPerSecond) x.den_pos
  rw [hquotient] at hnearest
  have hlength := (hnearest.mono (nearestEven_natCast longest) hle).trans_lt hheld
  refine ⟨_, if_neg ?_, hnearest⟩
  rintro (hneg | hlong)
  · exact hneg.not_ge hnonneg
  · exact hlong (decide_eq_true hlength)

namespace Extended

/-- A length of time in seconds is exact. -/
theorem ofDuration_eq (d : Duration) : (ofDuration d : Extended) = finite (d.nanos / nanosPerSecond) := by
  have hparts : (d.seconds : ℚ) * nanosPerSecond + d.subsecond = d.nanos := by
    exact_mod_cast Nat.div_add_mod' d.nanos nanosPerSecond
  show finite d.seconds + finite d.subsecond / finite nanosPerSecond = _
  rw [finite_div _ _ nanosPerSecond_pos.ne', finite_add, ← hparts, add_div,
    mul_div_cancel_right₀ _ nanosPerSecond_pos.ne']

/-- The share of the jitter that a sample takes: what is no number takes none. -/
def share? : Extended → Option ℚ
  | finite q => some (max (-1) (min 1 q))
  | infinite negative => some (if negative then -1 else 1)
  | nan => none

theorem share?_of_between {q : ℚ} (hlow : -1 ≤ q) (hhigh : q ≤ 1) : share? (finite q) = some q := by
  rw [share?, min_eq_right hhigh, max_eq_right hlow]

theorem share?_between {u : Extended} {c : ℚ} (h : share? u = some c) : -1 ≤ c ∧ c ≤ 1 := by
  cases u with
  | finite q =>
    obtain rfl := Option.some.inj h
    exact ⟨le_max_left _ _, max_le (by norm_num) (min_le_left _ _)⟩
  | infinite negative =>
    obtain rfl := Option.some.inj h
    cases negative
    · norm_num
    · norm_num
  | nan => cases h

theorem one_eq : (one : Extended) = finite 1 := by
  show finite ((1 : ℕ) : ℚ) = finite 1
  rw [Nat.cast_one]

theorem minusOne_eq : (zero - one : Extended) = finite (-1) := by
  rw [zero_eq, one_eq, finite_sub, zero_sub]

/-- A larger sample takes a larger share. -/
theorem share?_mono {u v : Extended} (h : u ≤ v) :
    ∃ c d, share? u = some c ∧ share? v = some d ∧ c ≤ d := by
  have hends : ∀ q : ℚ, -1 ≤ max (-1) (min 1 q) ∧ max (-1) (min 1 q) ≤ 1 :=
    fun q => share?_between (u := finite q) rfl
  cases u with
  | nan => cases v <;> exact Bool.noConfusion h
  | finite q => cases v with
    | nan => exact Bool.noConfusion h
    | finite r =>
      have hqr := (finite_le_finite q r).mp h
      exact ⟨_, _, rfl, rfl, max_le_max le_rfl (min_le_min le_rfl hqr)⟩
    | infinite negative => cases negative with
      | false => exact ⟨_, _, rfl, rfl, (hends q).2⟩
      | true => exact Bool.noConfusion h
  | infinite negative => cases negative with
    | false => cases v with
      | infinite negative' => cases negative' with
        | false => exact ⟨_, _, rfl, rfl, le_rfl⟩
        | true => exact Bool.noConfusion h
      | _ => exact Bool.noConfusion h
    | true => cases v with
      | finite r => exact ⟨_, _, rfl, rfl, (hends r).1⟩
      | infinite negative' => exact ⟨_, _, rfl, rfl, by cases negative' <;> norm_num⟩
      | nan => exact Bool.noConfusion h

theorem share?_above {u : Extended} (h : one < u) : share? u = share? one := by
  rw [one_eq] at h ⊢
  cases u with
  | finite q =>
    have hq := (finite_lt_finite 1 q).mp h
    rw [share?, share?, min_eq_left hq.le, min_self]
  | infinite negative => cases negative with
    | false =>
      rw [share?, share?, min_self, max_eq_right (by norm_num)]
      rfl
    | true => exact Bool.noConfusion h
  | nan => exact Bool.noConfusion h

theorem share?_below {u : Extended} (h : u < zero - one) :
    share? u = share? (zero - one) := by
  rw [minusOne_eq] at h ⊢
  cases u with
  | finite q =>
    have hq := (finite_lt_finite q (-1)).mp h
    rw [share?, share?, min_eq_right (by linarith), min_eq_right (by norm_num), max_eq_left hq.le,
      max_self]
  | infinite negative => cases negative with
    | true =>
      rw [share?, share?, min_eq_right (by norm_num), max_self]
      rfl
    | false => exact Bool.noConfusion h
  | nan => exact Bool.noConfusion h

/-- A sample is cut to its share. -/
theorem clamp_eq (u : Extended) :
    clamp (zero - one) one u = ((share? u).map finite).getD nan := by
  unfold clamp
  rw [minusOne_eq, one_eq]
  cases u with
  | nan => rfl
  | infinite negative => cases negative <;> rfl
  | finite q =>
    simp only [share?, Option.map_some, Option.getD_some]
    by_cases hlow : q < -1
    · rw [if_pos ((finite_lt_finite _ _).mpr hlow), if_neg, min_eq_right (by linarith),
        max_eq_left hlow.le]
      rw [finite_lt_finite]
      norm_num
    · rw [if_neg ((finite_lt_finite _ _).not.mpr hlow)]
      by_cases hhigh : 1 < q
      · rw [if_pos ((finite_lt_finite _ _).mpr hhigh), min_eq_left hhigh.le, max_eq_right]
        norm_num
      · rw [if_neg ((finite_lt_finite _ _).not.mpr hhigh), min_eq_right (not_lt.mp hhigh),
          max_eq_right (not_lt.mp hlow)]

/-- The fraction that a checked jitter is. -/
theorem exists_fraction {x : Extended} (h : zero ≤ x ∧ x ≤ one) :
    ∃ q : ℚ, x = finite q ∧ 0 ≤ q ∧ q ≤ 1 := by
  obtain ⟨hlow, hhigh⟩ := h
  rw [zero_eq] at hlow
  rw [one_eq] at hhigh
  cases x with
  | finite q => exact ⟨q, rfl, (finite_le_finite 0 q).mp hlow, (finite_le_finite q 1).mp hhigh⟩
  | infinite negative => cases negative with
    | false => exact Bool.noConfusion hhigh
    | true => exact Bool.noConfusion hlow
  | nan => exact Bool.noConfusion hlow

end Extended

/-! ## The exact delay -/

/-- The delay that a sample leaves of a length of time, in nanoseconds and before it is rounded. -/
def exactSpread (base : ℕ) (jitter : ℚ) (sample : Extended) : ℚ :=
  ((Extended.share? sample).map fun c => base * (1 + c * jitter)).getD 0

section ExactSpread

variable {base base' : ℕ} {jitter : ℚ}

theorem exactSpread_of_share {u : Extended} {c : ℚ} (h : Extended.share? u = some c) :
    exactSpread base jitter u = base * (1 + c * jitter) := by
  rw [exactSpread, h]
  rfl

theorem exactSpread_of_none {u : Extended} (h : Extended.share? u = none) :
    exactSpread base jitter u = 0 := by
  rw [exactSpread, h]
  rfl

/-- A share of the jitter changes a delay by its whole length at most. -/
theorem factor_between {c : ℚ} (hc : -1 ≤ c ∧ c ≤ 1) (hjitter : 0 ≤ jitter ∧ jitter ≤ 1) :
    0 ≤ 1 + c * jitter ∧ 1 + c * jitter ≤ 2 := by
  obtain ⟨hlow, hhigh⟩ := hc
  obtain ⟨hnonneg, hle⟩ := hjitter
  constructor
  · nlinarith
  · nlinarith

theorem exactSpread_between (hjitter : 0 ≤ jitter ∧ jitter ≤ 1) (base : ℕ) (u : Extended) :
    0 ≤ exactSpread base jitter u ∧ exactSpread base jitter u ≤ 2 * base := by
  have hbase : (0 : ℚ) ≤ base := Nat.cast_nonneg base
  cases hu : Extended.share? u with
  | none =>
    rw [exactSpread_of_none hu]
    exact ⟨le_rfl, mul_nonneg two_pos.le hbase⟩
  | some c =>
    obtain ⟨hlow, hhigh⟩ := factor_between (Extended.share?_between hu) hjitter
    rw [exactSpread_of_share hu]
    exact ⟨mul_nonneg hbase hlow, by nlinarith⟩

theorem exactSpread_mono_sample (hjitter : 0 ≤ jitter) {u v : Extended} (h : u ≤ v) :
    exactSpread base jitter u ≤ exactSpread base jitter v := by
  obtain ⟨c, d, hu, hv, hcd⟩ := Extended.share?_mono h
  rw [exactSpread_of_share hu, exactSpread_of_share hv]
  have hshare : c * jitter ≤ d * jitter := mul_le_mul_of_nonneg_right hcd hjitter
  exact mul_le_mul_of_nonneg_left (by linarith) (Nat.cast_nonneg base)

theorem exactSpread_mono_base (hjitter : 0 ≤ jitter ∧ jitter ≤ 1) (h : base ≤ base')
    (u : Extended) : exactSpread base jitter u ≤ exactSpread base' jitter u := by
  cases hu : Extended.share? u with
  | none =>
    rw [exactSpread_of_none hu, exactSpread_of_none hu]
  | some c =>
    rw [exactSpread_of_share hu, exactSpread_of_share hu]
    exact mul_le_mul_of_nonneg_right (by exact_mod_cast h)
      (factor_between (Extended.share?_between hu) hjitter).1

end ExactSpread

namespace RetryPolicy

variable {p : RetryPolicy Extended} {jitter : ℚ}

/-- A delay is spread in exact arithmetic, and rounded at the end. -/
theorem jitteredDelay?_eq (hp : p.jitterFraction = .finite jitter)
    (hjitter : 0 ≤ jitter ∧ jitter ≤ 1) (n : ℕ) (u : Extended) :
    p.jitteredDelay? n u =
      toDuration? (exactSpread (p.baseDelay n).nanos jitter u / nanosPerSecond) := by
  show toDuration? (maximum (ofDuration (p.baseDelay n) *
    (one + clamp (zero - one) one u * p.jitterFraction)) zero) = _
  rw [hp, Extended.ofDuration_eq, Extended.clamp_eq, Extended.one_eq, Extended.zero_eq]
  cases hu : Extended.share? u with
  | none =>
    -- what is no number stays so up to the maximum with zero
    rw [exactSpread_of_none hu, zero_div]
    exact congrArg toDuration? (Extended.maximum_nan 0)
  | some c =>
    have hnonneg := (exactSpread_between hjitter (p.baseDelay n).nanos u).1
    rw [exactSpread_of_share hu] at hnonneg ⊢
    rw [Option.map_some, Option.getD_some, Extended.finite_mul, Extended.finite_add,
      Extended.finite_mul, Extended.maximum_finite, div_mul_eq_mul_div,
      max_eq_left (div_nonneg hnonneg nanosPerSecond_pos.le)]
    rfl

/-- A spread delay is the exact one to the nearest nanosecond, and no longer than twice the
maximum. -/
theorem jitteredDelay?_nearest (hp : p.jitterFraction = .finite jitter)
    (hjitter : 0 ≤ jitter ∧ jitter ≤ 1) (hmax : 2 * p.maxDelay.nanos < Duration.limit) (n : ℕ)
    (u : Extended) :
    ∃ d : Duration, p.jitteredDelay? n u = some d ∧ d.nanos ≤ 2 * p.maxDelay.nanos ∧
      NearestEven (exactSpread (p.baseDelay n).nanos jitter u) d.nanos := by
  obtain ⟨hnonneg, hle⟩ := exactSpread_between hjitter (p.baseDelay n).nanos u
  have hbase : ((p.baseDelay n).nanos : ℚ) ≤ p.maxDelay.nanos := by
    exact_mod_cast p.baseDelay_le n
  have htwice : exactSpread (p.baseDelay n).nanos jitter u ≤ (2 * p.maxDelay.nanos : ℕ) := by
    push_cast
    linarith
  rw [jitteredDelay?_eq hp hjitter]
  generalize exactSpread (p.baseDelay n).nanos jitter u = x at hnonneg htwice
  have hseconds : x / nanosPerSecond * nanosPerSecond = x :=
    div_mul_cancel₀ _ nanosPerSecond_pos.ne'
  obtain ⟨d, hd, hnearest⟩ := toDuration?_rational (div_nonneg hnonneg nanosPerSecond_pos.le)
    (hseconds.trans_le htwice) hmax
  rw [hseconds] at hnearest
  exact ⟨d, hd, hnearest.mono (nearestEven_natCast _) htwice, hnearest⟩

/-! ## Spread delays -/

/-- How a policy spreads its delays, by a fraction of them at most. -/
structure Spreads (p : RetryPolicy Extended) (jitter : ℚ) : Prop where
  /-- Every delay can be held, whatever the sample, and none is longer than twice the maximum. -/
  held : ∀ n u, ∃ d, p.jitteredDelay? n u = some d ∧ d.nanos ≤ 2 * p.maxDelay.nanos
  /-- A sample between the ends spreads a delay by its share of the jitter, to the nearest
  nanosecond. -/
  nearest : ∀ n (u : ℚ), -1 ≤ u → u ≤ 1 → ∀ d ∈ p.jitteredDelay? n (.finite u),
    NearestEven ((p.baseDelay n).nanos * (1 + u * jitter)) d.nanos
  /-- So the delay lies between the shortest and the longest one, as these are rounded. -/
  between : ∀ n (u : ℚ), -1 ≤ u → u ≤ 1 → ∀ d ∈ p.jitteredDelay? n (.finite u), ∃ low high,
    NearestEven ((p.baseDelay n).nanos * (1 - jitter)) low ∧
      NearestEven ((p.baseDelay n).nanos * (1 + jitter)) high ∧ low ≤ d.nanos ∧ d.nanos ≤ high
  /-- A sample above one counts as one. -/
  above : ∀ n u, one < u → p.jitteredDelay? n u = p.jitteredDelay? n one
  /-- A sample below minus one counts as minus one. -/
  below : ∀ n u, u < zero - one → p.jitteredDelay? n u = p.jitteredDelay? n (zero - one)
  /-- A larger sample does not shorten a delay. -/
  mono_sample : ∀ n u v, u ≤ v → ∀ d ∈ p.jitteredDelay? n u, ∀ e ∈ p.jitteredDelay? n v,
    d.nanos ≤ e.nanos
  /-- A later retry does not have a shorter delay. -/
  mono_retry : ∀ m n, m ≤ n → ∀ u, ∀ d ∈ p.jitteredDelay? m u, ∀ e ∈ p.jitteredDelay? n u,
    d.nanos ≤ e.nanos

/-- A policy whose jitter is a fraction, and whose longest delay can be held twice over. -/
theorem spreads_of_fraction (hp : p.jitterFraction = .finite jitter)
    (hjitter : 0 ≤ jitter ∧ jitter ≤ 1) (hmax : 2 * p.maxDelay.nanos < Duration.limit) :
    p.Spreads jitter := by
  have hnearest : ∀ n u, ∀ d ∈ p.jitteredDelay? n u,
      NearestEven (exactSpread (p.baseDelay n).nanos jitter u) d.nanos := by
    intro n u d hd
    obtain ⟨d', hd', _, hnearest⟩ := jitteredDelay?_nearest hp hjitter hmax n u
    obtain rfl : d' = d := Option.some.inj (hd'.symm.trans hd)
    exact hnearest
  have hcongr : ∀ n {u v : Extended}, Extended.share? u = Extended.share? v →
      p.jitteredDelay? n u = p.jitteredDelay? n v := by
    intro n u v huv
    rw [jitteredDelay?_eq hp hjitter, jitteredDelay?_eq hp hjitter, exactSpread, exactSpread, huv]
  have hshare : ∀ n (u : ℚ), -1 ≤ u → u ≤ 1 → ∀ d ∈ p.jitteredDelay? n (.finite u),
      NearestEven ((p.baseDelay n).nanos * (1 + u * jitter)) d.nanos := by
    intro n u hlow hhigh d hd
    rw [← exactSpread_of_share (Extended.share?_of_between hlow hhigh)]
    exact hnearest n _ d hd
  refine ⟨fun n u => ?_, hshare, fun n u hlow hhigh d hd => ?_,
    fun n u hu => hcongr n (Extended.share?_above hu),
    fun n u hu => hcongr n (Extended.share?_below hu),
    fun n u v huv d hd e he => ?_, fun m n hmn u d hd e he => ?_⟩
  · obtain ⟨d, hd, hle, _⟩ := jitteredDelay?_nearest hp hjitter hmax n u
    exact ⟨d, hd, hle⟩
  · obtain ⟨low, hlow', _⟩ := jitteredDelay?_nearest hp hjitter hmax n (.finite (-1))
    obtain ⟨high, hhigh', _⟩ := jitteredDelay?_nearest hp hjitter hmax n (.finite 1)
    have hshortest := hshare n (-1) le_rfl (by norm_num) low hlow'
    have hlongest := hshare n 1 (by norm_num) le_rfl high hhigh'
    rw [neg_one_mul, ← sub_eq_add_neg] at hshortest
    rw [one_mul] at hlongest
    refine ⟨low.nanos, high.nanos, hshortest, hlongest, ?_, ?_⟩
    · exact (hnearest n _ low hlow').mono (hnearest n _ d hd)
        (exactSpread_mono_sample hjitter.1 ((Extended.finite_le_finite _ _).mpr hlow))
    · exact (hnearest n _ d hd).mono (hnearest n _ high hhigh')
        (exactSpread_mono_sample hjitter.1 ((Extended.finite_le_finite _ _).mpr hhigh))
  · exact (hnearest n u d hd).mono (hnearest n v e he) (exactSpread_mono_sample hjitter.1 huv)
  · have hheld : p.maxDelay.isHeld = true := decide_eq_true (by omega)
    exact (hnearest m u d hd).mono (hnearest n u e he)
      (exactSpread_mono_base hjitter (baseDelay_mono hheld hmn) u)

end RetryPolicy

/-- **Configured delays are safe, banded and monotone.**  For every profile and all changes to its
policy that make sense, with delays in milliseconds of 64 bits, and in exact arithmetic: no sample,
infinities and not-a-number included, leads to a delay that is too long to be held; a sample between
minus one and one spreads the delay by its share of the jitter, to the nearest nanosecond; a sample
outside counts as the nearer end; and neither a larger sample nor a later retry has a shorter
delay. -/
theorem RetryOverrides.spreads_of_resolve {changes : RetryOverrides Extended}
    {profile : RetryProfile} {p : RetryPolicy Extended}
    (hresolve : changes.resolve profile = .ok p)
    (hfits : ∀ ms ∈ changes.maxDelayMs, ms ≤ Text.maxUnsigned) :
    ∃ jitter : ℚ, p.jitterFraction = .finite jitter ∧ 0 ≤ jitter ∧ jitter ≤ 1 ∧
      p.Spreads jitter := by
  have hset : (RetrySettings.none.set profile changes).of profile = changes := by
    cases profile <;> rfl
  have hfollows : p.Follows (RetrySettings.none.set profile changes) profile :=
    RetrySettings.follows_of_resolve (by rw [hset]; exact hresolve)
  obtain ⟨jitter, hp, hjitter⟩ := Extended.exists_fraction hfollows.jitter
  refine ⟨jitter, hp, hjitter.1, hjitter.2, RetryPolicy.spreads_of_fraction hp hjitter ?_⟩
  rw [hfollows.maxDelay_eq, hset]
  cases hms : changes.maxDelayMs with
  | none => cases profile <;> decide
  | some ms =>
    have hle := hfits ms hms
    show 2 * (ms * 1000000) < 18446744073709551616 * 1000000000
    change ms ≤ 18446744073709551615 at hle
    omega

/-- The longest delays that a configuration can name, spread by their whole length. -/
def widest : RetryOverrides Extended :=
  ⟨none, some Text.maxUnsigned, some Text.maxUnsigned, some (.finite 1), none, none⟩

/-- The policy that comes of them. -/
def widestPolicy : RetryPolicy Extended :=
  ⟨3, .longestMillis, .longestMillis, .finite 1, .zero, [.transient, .storeUnavailable]⟩

/-- An infinite sample leads to the longest delay of all, and that can be held. -/
theorem RetryOverrides.spreads_of_resolve_widest :
    widest.resolve .generic = .ok widestPolicy ∧
      widestPolicy.jitteredDelay? 0 (.infinite false) =
        some ⟨2 * Duration.longestMillis.nanos⟩ ∧
      ∃ jitter : ℚ, widestPolicy.jitterFraction = .finite jitter ∧ 0 ≤ jitter ∧ jitter ≤ 1 ∧
        widestPolicy.Spreads jitter := by
  have hresolve : widest.resolve .generic = .ok widestPolicy := by decide +kernel
  refine ⟨hresolve, by decide +kernel, ?_⟩
  refine spreads_of_resolve hresolve ?_
  rintro ms ⟨⟩
  exact le_rfl

end Bulwark
