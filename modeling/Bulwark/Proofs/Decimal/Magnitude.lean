import Mathlib.Data.Nat.Log
import Mathlib.Tactic.IntervalCases
import Mathlib.Tactic.Positivity
import Mathlib.Tactic.Ring
import Bulwark.Quantity

/-!
# How large doubles get

A double is below `2^k` if it is no infinity and, being a number, has a magnitude less than that.
Rounding raises such a bound by one place at most, whatever it does to the digits, so sums, products
and quotients far from overflow can be bounded without a law of rounding: `bounded_add`,
`bounded_mul` and `bounded_div` count places.

Comparisons go the other way: a double that lies between minus one and one is below `2^1`
(`bounded_of_between`).  At the end of such a computation stands `toDuration?_isSome`: what is
below `2^64` and not negative can be held as a number of seconds.
-/

namespace Bulwark.Binary64

open Float.Model Float.Model.UnpackedFloat

/-- Not infinite, and below `2^k` in magnitude if it is a number. -/
def Below (k : ℤ) : UnpackedFloat → Prop
  | .finite _ m e _ => totalExponent m e ≤ k
  | .infinity _ => False
  | .zero _ => True
  | .notANumber => True

theorem Below.mono {j k : ℤ} {u : UnpackedFloat} (h : Below j u) (hjk : j ≤ k) : Below k u := by
  cases u with
  | finite s m e hm => exact le_trans (show totalExponent m e ≤ j from h) hjk
  | infinity s => exact h
  | zero s => trivial
  | notANumber => trivial

/-! ## Rounding -/

theorem log2_div_two_pow (m s : ℕ) : (m / 2 ^ s).log2 = m.log2 - s := by
  simp only [Nat.log2_eq_log_two, Nat.log_div_base_pow]

theorem log2_mul_two_pow {m : ℕ} (hm : m ≠ 0) (s : ℕ) : (m * 2 ^ s).log2 = m.log2 + s := by
  have hlow : s ≤ (m * 2 ^ s).log2 :=
    (Nat.le_log2 (by positivity)).mpr (Nat.le_mul_of_pos_left _ (Nat.pos_of_ne_zero hm))
  have hdiv := log2_div_two_pow (m * 2 ^ s) s
  rw [Nat.mul_div_cancel _ (by positivity)] at hdiv
  omega

theorem log2_le_of_le_add_one {m n : ℕ} (h : m ≤ n + 1) : m.log2 ≤ n.log2 + 1 := by
  by_cases hm : m = 0
  · rw [hm, Nat.log2_zero]
    exact Nat.zero_le _
  · refine Nat.lt_succ_iff.mp ((Nat.log2_lt hm).mpr ?_)
    have hn : n < 2 ^ (n.log2 + 1) := Nat.lt_log2_self
    have hpos : 1 ≤ 2 ^ n.log2 := Nat.one_le_two_pow
    have hpow : 2 ^ (n.log2 + 1 + 1) = 4 * 2 ^ n.log2 := by ring
    have hpow' : 2 ^ (n.log2 + 1) = 2 * 2 ^ n.log2 := by ring
    omega

theorem mantissa_shiftRight (x : ExtendedMantissa) (k : ℕ) :
    (x >>> k).mantissa = x.mantissa / 2 ^ k := by
  induction k with
  | zero => rw [pow_zero, Nat.div_one]; rfl
  | succ k ih =>
    show (x >>> k).mantissa / 2 = _
    rw [ih, Nat.div_div_eq_div_mul, pow_succ]

theorem mantissa_ofMantissaAndAccuracy (m : ℕ) (a : Accuracy) :
    (ExtendedMantissa.ofMantissaAndAccuracy m a).mantissa = m := by
  rcases a with _ | _ | _ | _ <;> rfl

theorem roundedMantissa_le (x : ExtendedMantissa) : x.roundedMantissa ≤ x.mantissa + 1 := by
  obtain ⟨m, _ | _, _ | _⟩ := x
  · exact Nat.le_succ m
  · exact Nat.le_succ m
  · show m + m % 2 ≤ m + 1
    omega
  · exact le_rfl

theorem targetExponent_binary64 (t : ℤ) :
    Format.binary64.targetExponent t = max (t - 53) (-1074) := rfl

/-- The mantissa and the exponent of a number that has dropped the places it has no room for. -/
theorem shiftToTargetExponent_eq (m : ℕ) (e : ℤ) (a : Accuracy) :
    let n := (max (totalExponent m e - 53) (-1074) - e).toNat
    (shiftToTargetExponent Format.binary64 m e a).1.mantissa = m / 2 ^ n ∧
      (shiftToTargetExponent Format.binary64 m e a).2 = e + n := by
  refine ⟨?_, rfl⟩
  unfold shiftToTargetExponent shiftToExponent
  rw [mantissa_shiftRight, mantissa_ofMantissaAndAccuracy, targetExponent_binary64]

/-- A number that keeps a place keeps the first one. -/
theorem totalExponent_shift {m : ℕ} {e : ℤ} {a : Accuracy}
    (h : (shiftToTargetExponent Format.binary64 m e a).1.mantissa ≠ 0) :
    totalExponent (shiftToTargetExponent Format.binary64 m e a).1.mantissa
      (shiftToTargetExponent Format.binary64 m e a).2 = totalExponent m e := by
  obtain ⟨hm, he⟩ := shiftToTargetExponent_eq m e a
  rw [hm] at h ⊢
  rw [he]
  have hm0 : m ≠ 0 := by
    rintro rfl
    exact h (Nat.zero_div _)
  have hle := (Nat.le_log2 hm0).mpr (not_lt.mp fun hlt => h (Nat.div_eq_of_lt hlt))
  unfold totalExponent at hle ⊢
  rw [log2_div_two_pow]
  omega

/-- What is left of a number is rounded up to the next power of two at most. -/
theorem totalExponent_rounded_le {m : ℕ} {e k : ℤ} (a : Accuracy) (h : totalExponent m e ≤ k)
    (hk : -1073 ≤ k) :
    totalExponent (shiftToTargetExponent Format.binary64 m e a).1.roundedMantissa
      (shiftToTargetExponent Format.binary64 m e a).2 ≤ k + 1 := by
  obtain ⟨hm, he⟩ := shiftToTargetExponent_eq m e a
  have hround := roundedMantissa_le (shiftToTargetExponent Format.binary64 m e a).1
  have hlog := log2_le_of_le_add_one hround
  rw [hm] at hround hlog
  rw [he]
  set r := (shiftToTargetExponent Format.binary64 m e a).1.roundedMantissa
  set n := (max (totalExponent m e - 53) (-1074) - e).toNat with hn
  rw [log2_div_two_pow] at hlog
  unfold totalExponent at h hn ⊢
  by_cases hkept : n ≤ m.log2
  · omega
  · -- nothing but a carry is left of the mantissa
    have hzero : m / 2 ^ n = 0 := by
      refine Nat.div_eq_of_lt ?_
      by_cases hm0 : m = 0
      · rw [hm0]
        positivity
      · exact (Nat.log2_lt hm0).mp (not_le.mp hkept)
    have hone : r.log2 = 0 := by
      rw [hzero] at hround
      interval_cases r <;> rfl
    omega

theorem below_dite {c : Prop} [Decidable c] {k : ℤ} {x : c → UnpackedFloat}
    {y : ¬ c → UnpackedFloat} (hx : ∀ h, Below k (x h)) (hy : ∀ h, Below k (y h)) :
    Below k (if h : c then x h else y h) := by
  by_cases h : c
  · rw [dif_pos h]
    exact hx h
  · rw [dif_neg h]
    exact hy h

/-- Rounding raises a bound by one place at most. -/
theorem below_roundWithAccuracy {m : ℕ} {e k : ℤ} (s : Sign) (a : Accuracy)
    (h : totalExponent m e ≤ k) (hk : -1073 ≤ k) :
    Below (k + 1) (roundWithAccuracy Format.binary64 s m e a) := by
  have hle := totalExponent_rounded_le a h hk
  unfold roundWithAccuracy
  dsimp only
  -- the second shift makes room for a carry
  exact below_dite (fun _ => trivial) fun hpos => (totalExponent_shift hpos).le.trans hle

/-- A number with more digits than it has room for is rounded, one with fewer is written with more
zeros first. -/
theorem below_round {m : ℕ} {e k : ℤ} (s : Sign) (hm : m ≠ 0) (h : totalExponent m e ≤ k)
    (hk : -1073 ≤ k) : Below (k + 1) (round Format.binary64 s m e) := by
  unfold UnpackedFloat.round decreaseExponent
  dsimp only
  refine below_roundWithAccuracy s _ ?_ hk
  set n := (e - Format.binary64.targetExponent (totalExponent m e)).toNat
  have hlog : (m <<< n).log2 = m.log2 + n := by
    rw [Nat.shiftLeft_eq, log2_mul_two_pow hm]
  unfold totalExponent at h ⊢
  omega

theorem below_normalize {m e k : ℤ} (s : Sign) (h : totalExponent m.natAbs e ≤ k)
    (hk : -1073 ≤ k) : Below (k + 1) (normalize Format.binary64 m e s) := by
  unfold UnpackedFloat.normalize
  split
  · rename_i hlt
    have hneg := Int.compare_eq_lt.mp hlt
    exact below_round _ (by omega) (by rwa [show (-m).toNat = m.natAbs by omega]) hk
  · trivial
  · rename_i hgt
    have hpos := Int.compare_eq_gt.mp hgt
    exact below_round _ (by omega) (by rwa [show m.toNat = m.natAbs by omega]) hk

/-! ## Bits -/

/-- The mantissa of a normal number. -/
theorem toNat_leadingOne (y : BitVec 52) : (1#1 ++ y).toNat = 2 ^ 52 + y.toNat := by
  rw [BitVec.toNat_append, ← Nat.shiftLeft_add_eq_or_of_lt y.isLt]
  rfl

/-- What the bits of a number say of its size. -/
theorem below_unpack {b : BitVec 64} {k : ℤ}
    (hfinite : (@unpackExponent Format.binary64 b).toNat ≠ 2047)
    (h : ((@unpackExponent Format.binary64 b).toNat : ℤ) - 1022 ≤ k) :
    Below k (unpack Format.binary64 b) := by
  unfold UnpackedFloat.unpack
  dsimp only
  set x := @unpackExponent Format.binary64 b
  set y := @unpackMantissa Format.binary64 b
  have hy : y.toNat < 2 ^ 52 := y.isLt
  refine iteInduction (motive := Below k) ?_ fun _ => iteInduction (motive := Below k) ?_ ?_
  · intro hones
    exact absurd (congrArg BitVec.toNat hones) hfinite
  · intro hzero
    refine below_dite (fun _ => trivial) fun hpos => ?_
    -- a subnormal number
    have hpos' : y.toNat ≠ 0 := fun hy0 => hpos (BitVec.eq_of_toNat_eq hy0)
    have hlog := (Nat.log2_lt hpos').mpr hy
    show ((y.toNat.log2 : ℤ) + 1 + ((x.toNat : ℤ) - 1075 + 1)) ≤ k
    rw [hzero]
    show ((y.toNat.log2 : ℤ) + 1 + (((0 : ℕ) : ℤ) - 1075 + 1)) ≤ k
    omega
  · intro _
    have hlog : (1#1 ++ y).toNat.log2 < 53 := by
      rw [toNat_leadingOne]
      exact (Nat.log2_lt (by omega)).mpr (by omega)
    show (((1#1 ++ y).toNat.log2 : ℤ) + 1 + ((x.toNat : ℤ) - 1075)) ≤ k
    omega

/-- Numbers far from overflow survive packing, and packing makes nothing larger. -/
theorem below_unpack_pack {u : UnpackedFloat} {k : ℤ} (h : Below k u) (hlow : -1022 ≤ k)
    (hhigh : k ≤ 900) : Below k (unpack Format.binary64 (pack Format.binary64 u)) := by
  cases u with
  | notANumber => trivial
  | infinity s => exact h.elim
  | zero s => cases s <;> trivial
  | finite s m e hm =>
    have htotal : (m.log2 : ℤ) + 1 + e ≤ k := h
    unfold UnpackedFloat.pack
    dsimp only
    rw [show Format.binary64.exponentBias = 1023 from rfl]
    set x := (e + (1023 : ℕ) + (52 : ℕ)).toNat with hx
    rw [if_neg (show ¬ 2 ^ 11 ≤ x + 1 by omega)]
    have hlt : x < 2 ^ 11 := by omega
    split
    · rename_i hnormal
      have hbits : (BitVec.ofNat 11 x).toNat = x := by
        rw [BitVec.toNat_ofNat, Nat.mod_eq_of_lt hlt]
      have hlog : m.log2 + 1 = 53 := hnormal
      refine below_unpack ?_ ?_
      · rw [unpackExponent_packComponents, hbits]
        omega
      · rw [unpackExponent_packComponents, hbits]
        omega
    · refine below_unpack ?_ ?_
      · rw [unpackExponent_packComponents]
        decide
      · rw [unpackExponent_packComponents]
        exact hlow

/-! ## Arithmetic -/

/-- A double that is not infinite, and below `2^k` in magnitude if it is a number. -/
def Bounded (k : ℤ) (x : Float) : Prop := Below k x.toModel.unpack

theorem Bounded.mono {j k : ℤ} {x : Float} (h : Bounded j x) (hjk : j ≤ k) : Bounded k x :=
  Below.mono h hjk

/-- The double that an exact computation is rounded to. -/
theorem bounded_pack {u : UnpackedFloat} {k : ℤ} (h : Below k u) (hlow : -1022 ≤ k)
    (hhigh : k ≤ 900) : Bounded k (.ofModel (Float.Model.pack u)) :=
  below_unpack_pack h hlow hhigh

theorem log2_mul_le (m n : ℕ) : (m * n).log2 ≤ m.log2 + n.log2 + 1 := by
  by_cases h : m * n = 0
  · rw [h, Nat.log2_zero]
    exact Nat.zero_le _
  · refine Nat.lt_succ_iff.mp ((Nat.log2_lt h).mpr ?_)
    calc m * n < 2 ^ (m.log2 + 1) * 2 ^ (n.log2 + 1) :=
          Nat.mul_lt_mul'' Nat.lt_log2_self Nat.lt_log2_self
      _ = 2 ^ (m.log2 + n.log2 + 1 + 1) := by rw [← pow_add]; congr 1; omega

theorem bounded_mul {x y : Float} {j k : ℤ} (hx : Bounded j x) (hy : Bounded k y)
    (hlow : -1023 ≤ j + k) (hhigh : j + k ≤ 899) : Bounded (j + k + 1) (x * y) := by
  refine bounded_pack ?_ (by omega) (by omega)
  show Below (j + k + 1) (UnpackedFloat.mul Format.binary64 x.toModel.unpack y.toModel.unpack)
  unfold Bounded at hx hy
  cases hu : x.toModel.unpack <;> cases hv : y.toModel.unpack <;> rw [hu] at hx <;> rw [hv] at hy
  case finite.finite s m e hm t n f hn =>
    refine below_roundWithAccuracy _ _ ?_ (by omega)
    have hlog := log2_mul_le m n
    have hxe : (m.log2 : ℤ) + 1 + e ≤ j := hx
    have hye : (n.log2 : ℤ) + 1 + f ≤ k := hy
    unfold totalExponent
    omega
  all_goals first | exact hx.elim | exact hy.elim | trivial

/-- A number written with more zeros. -/
theorem decreaseExponent_lt {m : ℕ} {e t k : ℤ} (h : totalExponent m e ≤ k) (ht : t ≤ e) :
    (decreaseExponent m e t).1 < 2 ^ (k - t).toNat := by
  show m <<< (e - t).toNat < _
  have htotal : (m.log2 : ℤ) + 1 + e ≤ k := h
  rw [Nat.shiftLeft_eq]
  calc m * 2 ^ (e - t).toNat < 2 ^ (m.log2 + 1) * 2 ^ (e - t).toNat :=
        Nat.mul_lt_mul_of_pos_right Nat.lt_log2_self (by positivity)
    _ ≤ 2 ^ (k - t).toNat := by
        rw [← pow_add]
        exact Nat.pow_le_pow_right (by decide) (by omega)

theorem natAbs_apply (s : Sign) (n : ℤ) : (s.apply n).natAbs = n.natAbs := by
  cases s
  · exact Int.natAbs_neg n
  · rfl

theorem bounded_add {x y : Float} {k : ℤ} (hx : Bounded k x) (hy : Bounded k y)
    (hlow : -1024 ≤ k) (hhigh : k ≤ 898) : Bounded (k + 2) (x + y) := by
  refine bounded_pack ?_ (by omega) (by omega)
  show Below (k + 2) (UnpackedFloat.add Format.binary64 x.toModel.unpack y.toModel.unpack)
  unfold Bounded at hx hy
  cases hu : x.toModel.unpack <;> cases hv : y.toModel.unpack <;> rw [hu] at hx <;> rw [hv] at hy
  case finite.finite s m e hm t n f hn =>
    have hm' := decreaseExponent_lt hx (min_le_left e f)
    have hn' := decreaseExponent_lt hy (min_le_right e f)
    have htotal : (m.log2 : ℤ) + 1 + e ≤ k := hx
    rw [show k + 2 = k + 1 + 1 by ring]
    show Below (k + 1 + 1) (normalize Format.binary64
      (s.apply (decreaseExponent m e (min e f)).1 + t.apply (decreaseExponent n f (min e f)).1)
      (min e f) .positive)
    refine below_normalize _ ?_ (by omega)
    set a := (decreaseExponent m e (min e f)).1
    set b := (decreaseExponent n f (min e f)).1
    set l := min e f with hl
    -- both are below `2^(k - l)`, so their sum is below twice that
    have hsum : (s.apply a + t.apply b).natAbs < 2 ^ ((k - l).toNat + 1) := by
      have htriangle := Int.natAbs_add_le (s.apply a) (t.apply b)
      rw [natAbs_apply, natAbs_apply, Int.natAbs_natCast, Int.natAbs_natCast] at htriangle
      rw [pow_succ]
      omega
    have hlog : (s.apply a + t.apply b).natAbs.log2 ≤ (k - l).toNat := by
      by_cases h0 : (s.apply a + t.apply b).natAbs = 0
      · rw [h0, Nat.log2_zero]
        exact Nat.zero_le _
      · exact Nat.lt_succ_iff.mp ((Nat.log2_lt h0).mpr hsum)
    unfold totalExponent
    omega
  case zero.zero s t => cases s <;> cases t <;> trivial
  case zero.finite => exact Below.mono hy (by omega)
  case finite.zero => exact Below.mono hx (by omega)
  all_goals first | exact hx.elim | exact hy.elim | trivial

/-- Division by a number of known size. -/
theorem bounded_div {x y : Float} {k f : ℤ} {t : Sign} {n : ℕ} {hn : 0 < n} (hx : Bounded k x)
    (hy : y.toModel.unpack = .finite t n f hn) (hlow : -1024 ≤ k - totalExponent n f)
    (hhigh : k - totalExponent n f ≤ 898) : Bounded (k - totalExponent n f + 2) (x / y) := by
  refine bounded_pack ?_ (by omega) (by omega)
  show Below _ (UnpackedFloat.div Format.binary64 x.toModel.unpack y.toModel.unpack)
  unfold Bounded at hx
  rw [hy]
  cases hu : x.toModel.unpack <;> rw [hu] at hx
  case finite s m e hm =>
    rw [show k - totalExponent n f + 2 = k - totalExponent n f + 1 + 1 by ring]
    show Below (k - totalExponent n f + 1 + 1) (roundWithAccuracy Format.binary64 (s / t)
      (divCore Format.binary64 m e n f).1 (divCore Format.binary64 m e n f).2.1
      (divCore Format.binary64 m e n f).2.2)
    refine below_roundWithAccuracy _ _ ?_ (by omega)
    unfold divCore
    dsimp only
    rw [targetExponent_binary64]
    have htotal : totalExponent m e ≤ k := hx
    set l := min (e - f) (max (totalExponent m e - totalExponent n f - 53) (-1074)) with hl
    set q := m <<< (e - f - l).toNat / n with hq
    have hlt : q * 2 ^ n.log2 < 2 ^ (m.log2 + 1 + (e - f - l).toNat) := by
      calc q * 2 ^ n.log2 ≤ q * n := Nat.mul_le_mul_left q (Nat.log2_self_le hn.ne')
        _ ≤ m <<< (e - f - l).toNat := Nat.div_mul_le_self _ _
        _ < 2 ^ (m.log2 + 1 + (e - f - l).toNat) := by
          rw [Nat.shiftLeft_eq, pow_add]
          exact Nat.mul_lt_mul_of_pos_right Nat.lt_log2_self (by positivity)
    unfold totalExponent at htotal hl hlow ⊢
    by_cases hq0 : q = 0
    · rw [hq0, Nat.log2_zero]
      omega
    · have hlog : q.log2 + n.log2 < m.log2 + 1 + (e - f - l).toNat := by
        rw [← log2_mul_two_pow hq0]
        exact (Nat.log2_lt (by positivity)).mpr hlt
      omega
  all_goals first | exact hx.elim | trivial

/-! ## Comparisons -/

/-- The mantissa of a double has 53 places. -/
theorem log2_mantissa_le {b : BitVec 64} {s : Sign} {m : ℕ} {e : ℤ} {hm : 0 < m}
    (h : UnpackedFloat.unpack Format.binary64 b = .finite s m e hm) : m.log2 ≤ 52 := by
  unfold UnpackedFloat.unpack at h
  dsimp only at h
  have hy : (@unpackMantissa Format.binary64 b).toNat < 2 ^ 52 :=
    (@unpackMantissa Format.binary64 b).isLt
  rcases ite_eq_iff.mp h with ⟨-, h⟩ | ⟨-, h⟩
  · rcases ite_eq_iff.mp h with ⟨-, h⟩ | ⟨-, h⟩ <;> cases h
  · rcases ite_eq_iff.mp h with ⟨-, h⟩ | ⟨-, h⟩
    · rcases dite_eq_iff.mp h with ⟨_, h⟩ | ⟨_, h⟩
      · cases h
      · obtain ⟨-, rfl, -⟩ := UnpackedFloat.finite.inj h
        exact ((Nat.log2_lt hm.ne').mpr hy).le
    · obtain ⟨-, rfl, -⟩ := UnpackedFloat.finite.inj h
      rw [toNat_leadingOne]
      exact Nat.lt_succ_iff.mp ((Nat.log2_lt (by omega)).mpr (by omega))

theorem lt_iff {x y : Float} :
    x < y ↔ UnpackedFloat.lt x.toModel.unpack y.toModel.unpack = true := decide_eq_true_iff

theorem unpack_one :
    (Quantity.one : Float).toModel.unpack = .finite .positive (2 ^ 52) (-52) (by decide) := rfl

theorem unpack_minusOne :
    (Quantity.zero - Quantity.one : Float).toModel.unpack =
      .finite .negative (2 ^ 52) (-52) (by decide) := rfl

/-- A double that is neither above one nor below minus one. -/
theorem bounded_of_between {x : Float} (hhigh : ¬ (Quantity.one : Float) < x)
    (hlow : ¬ x < (Quantity.zero - Quantity.one : Float)) : Bounded 1 x := by
  replace hhigh := lt_iff.not.mp hhigh
  replace hlow := lt_iff.not.mp hlow
  rw [unpack_one] at hhigh
  rw [unpack_minusOne] at hlow
  unfold Bounded
  cases hu : x.toModel.unpack with
  | notANumber => trivial
  | zero s => trivial
  | infinity s =>
    rw [hu] at hhigh hlow
    cases s
    · exact absurd rfl hlow
    · exact absurd rfl hhigh
  | finite s m e hm =>
    have hm52 := log2_mantissa_le hu
    -- the exponent of one is the largest that either comparison leaves
    have he : e ≤ -52 := by
      by_contra hlt
      rw [hu] at hhigh hlow
      cases s
      · refine hlow ?_
        show (some ((compare e (-52)).then (compare m (2 ^ 52))).swap == some .lt) = true
        rw [Int.compare_eq_gt.mpr (not_le.mp hlt)]
        rfl
      · refine hhigh ?_
        show (some ((compare (-52) e).then (compare (2 ^ 52) m)) == some .lt) = true
        rw [Int.compare_eq_lt.mpr (not_le.mp hlt)]
        rfl
    show (m.log2 : ℤ) + 1 + e ≤ 1
    omega

theorem le_iff {x y : Float} :
    x ≤ y ↔ UnpackedFloat.le x.toModel.unpack y.toModel.unpack = true := decide_eq_true_iff

theorem unpack_zero : (Quantity.zero : Float).toModel.unpack = .zero .positive := rfl

/-- A double from zero to one. -/
theorem bounded_of_fraction {x : Float} (hlow : (Quantity.zero : Float) ≤ x)
    (hhigh : x ≤ (Quantity.one : Float)) : Bounded 1 x := by
  replace hlow := le_iff.mp hlow
  replace hhigh := le_iff.mp hhigh
  rw [unpack_zero] at hlow
  rw [unpack_one] at hhigh
  unfold Bounded
  cases hu : x.toModel.unpack with
  | notANumber => trivial
  | zero s => trivial
  | infinity s =>
    rw [hu] at hlow hhigh
    cases s
    · exact Bool.noConfusion hlow
    · exact Bool.noConfusion hhigh
  | finite s m e hm =>
    have hm52 := log2_mantissa_le hu
    rw [hu] at hlow hhigh
    cases s
    · exact Bool.noConfusion hlow
    · have he : e ≤ -52 := by
        by_contra hlt
        change (some ((compare e (-52)).then (compare m (2 ^ 52)))).any (·.isLE) = true at hhigh
        rw [Int.compare_eq_gt.mpr (not_le.mp hlt)] at hhigh
        exact Bool.noConfusion hhigh
      show (m.log2 : ℤ) + 1 + e ≤ 1
      omega

theorem bounded_one : Bounded 1 (Quantity.one : Float) := by
  show Below 1 (Quantity.one : Float).toModel.unpack
  rw [unpack_one]
  show totalExponent (2 ^ 52) (-52) ≤ 1
  decide

theorem bounded_minusOne : Bounded 1 (Quantity.zero - Quantity.one : Float) := by
  show Below 1 (Quantity.zero - Quantity.one : Float).toModel.unpack
  rw [unpack_minusOne]
  show totalExponent (2 ^ 52) (-52) ≤ 1
  decide

/-- Whatever is clamped to between minus one and one. -/
theorem bounded_clamp (x : Float) :
    Bounded 1 (Quantity.clamp (Quantity.zero - Quantity.one) Quantity.one x) := by
  unfold Quantity.clamp
  dsimp only
  by_cases hlow : x < (Quantity.zero - Quantity.one : Float)
  · rw [if_pos hlow]
    split
    · exact bounded_one
    · exact bounded_minusOne
  · rw [if_neg hlow]
    split
    · exact bounded_one
    · rename_i hhigh
      exact bounded_of_between hhigh hlow

/-! ## Whole numbers -/

theorem roundHalfEven_le (num den : ℕ) : roundHalfEven num den ≤ num / den + 1 := by
  unfold roundHalfEven
  dsimp only
  split
  · exact Nat.le_succ _
  · split
    · exact le_rfl
    · split
      · exact Nat.le_succ _
      · exact le_rfl

/-- The scale at which a whole number has no more than 53 places. -/
theorem scaled_lt {n : ℕ} {e : ℤ} (h : (n.log2 : ℤ) - e ≤ 52) :
    n * Nat.pow 2 (-e).toNat / (1 * Nat.pow 2 e.toNat) < 2 * fractionSize := by
  show n * 2 ^ (-e).toNat / (1 * 2 ^ e.toNat) < 2 ^ 53
  rw [one_mul]
  refine Nat.div_lt_of_lt_mul ?_
  calc n * 2 ^ (-e).toNat < 2 ^ (n.log2 + 1) * 2 ^ (-e).toNat :=
        Nat.mul_lt_mul_of_pos_right Nat.lt_log2_self (by positivity)
    _ ≤ 2 ^ e.toNat * 2 ^ 53 := by
        rw [← pow_add, ← pow_add]
        exact Nat.pow_le_pow_right (by decide) (by omega)

theorem magnitudeBits_le {n : ℕ} (hn : n ≠ 0) :
    magnitudeBits n 1 ≤ (n.log2 + 1024) * fractionSize := by
  unfold magnitudeBits
  rw [if_neg hn]
  dsimp only
  rw [show ((Nat.log2 1 : ℕ) : ℤ) = 0 from rfl]
  set e := max ((n.log2 : ℤ) - 0 - 53) (-1074) with he
  set f := if n * Nat.pow 2 (-e).toNat / (1 * Nat.pow 2 e.toNat) < 2 * fractionSize then e
    else e + 1 with hf
  have hbound : n * Nat.pow 2 (-f).toNat / (1 * Nat.pow 2 f.toNat) < 2 * fractionSize ∧
      f ≤ n.log2 - 52 := by
    rw [hf]
    split
    · exact ⟨by assumption, by omega⟩
    · exact ⟨scaled_lt (by omega), by omega⟩
  obtain ⟨hquotient, hle⟩ := hbound
  have hround := roundHalfEven_le (n * Nat.pow 2 (-f).toNat) (1 * Nat.pow 2 f.toNat)
  refine (min_le_right _ _).trans ?_
  calc (f + 1074).toNat * fractionSize
        + roundHalfEven (n * Nat.pow 2 (-f).toNat) (1 * Nat.pow 2 f.toNat)
      ≤ (f + 1074).toNat * fractionSize + 2 * fractionSize := by omega
    _ = ((f + 1074).toNat + 2) * fractionSize := (Nat.add_mul _ _ _).symm
    _ ≤ (n.log2 + 1024) * fractionSize := Nat.mul_le_mul_right _ (by omega)

theorem toNat_unpackExponent (b : BitVec 64) :
    (@unpackExponent Format.binary64 b).toNat = b.toNat / fractionSize % 2048 := by
  show (b.extractLsb 62 52).toNat = _
  rw [BitVec.extractLsb_toNat, Nat.shiftRight_eq_div_pow]
  rfl

/-- A whole number is rounded to at most twice the power of two that it starts with. -/
theorem bounded_ofNat {n k : ℕ} (hn : n < 2 ^ k) (hk : k ≤ 600) :
    Bounded (k + 1) (Quantity.ofNat n) := by
  by_cases h0 : n = 0
  · rw [h0]
    trivial
  have hplaces : (Nat.repr n).length ≤ 310 := by
    rw [← String.length_toList, Nat.toList_repr, Nat.length_toDigits_le_iff (by decide) (by decide)]
    exact hn.trans_le ((Nat.pow_le_pow_right (by decide) hk).trans (by decide +kernel))
  have hlog : n.log2 + 1 ≤ k := (Nat.log2_lt h0).mpr hn
  have hbits := magnitudeBits_le h0
  have hratio : (Quantity.ofNat n : Float) = ofRatio false n 1 := by
    show ofDecimal false n 0 = _
    unfold ofDecimal
    dsimp only
    rw [if_neg (by omega), if_neg (by omega)]
    show ofRatio false (n * 1) 1 = _
    rw [mul_one]
  have hexponent : (@unpackExponent Format.binary64
      (UInt64.ofNat (signBits false + magnitudeBits n 1)).toBitVec).toNat ≤ n.log2 + 1024 := by
    rw [toNat_unpackExponent]
    have hlt : magnitudeBits n 1 < 2 ^ 64 := by
      unfold fractionSize at hbits
      omega
    show (0 + magnitudeBits n 1) % 2 ^ 64 / fractionSize % 2048 ≤ _
    rw [zero_add, Nat.mod_eq_of_lt hlt]
    exact (Nat.mod_le _ _).trans (Nat.div_le_of_le_mul (by rwa [Nat.mul_comm]))
  rw [hratio]
  exact bounded_pack (below_unpack (by omega) (by omega)) (by omega) (by omega)

/-! ## Lengths of time -/

theorem toNat_unpackMantissa (b : BitVec 64) :
    (@unpackMantissa Format.binary64 b).toNat = b.toNat % fractionSize := by
  show (b.extractLsb 51 0).toNat = _
  rw [BitVec.extractLsb_toNat, Nat.shiftRight_zero]
  rfl

theorem lt_signBit_of_positive {b : BitVec 64}
    (h : Sign.ofBitVec (@unpackSign Format.binary64 b) = .positive) : b.toNat < signBit := by
  have hzero : @unpackSign Format.binary64 b = 0#1 := by
    unfold Sign.ofBitVec at h
    split at h
    · assumption
    · exact Sign.noConfusion h
  have hbit : b.toNat / 2 ^ 63 % 2 = 0 := by
    have := congrArg BitVec.toNat hzero
    rwa [show (@unpackSign Format.binary64 b).toNat = (b.extractLsb 63 63).toNat from rfl,
      BitVec.extractLsb_toNat, Nat.shiftRight_eq_div_pow] at this
  have hlt : b.toNat < 2 ^ 64 := b.isLt
  unfold signBit
  omega

/-- A positive number, exactly. -/
theorem decode_of_unpack {x : Float} {m : ℕ} {e : ℤ} {hm : 0 < m}
    (h : x.toModel.unpack = .finite .positive m e hm) : decode x = .finite false m e := by
  unfold Float.Model.unpack UnpackedFloat.unpack at h
  dsimp only at h
  have hexponent := toNat_unpackExponent x.toModel.toBits.toBitVec
  have hmantissa := toNat_unpackMantissa x.toModel.toBits.toBitVec
  unfold decode
  dsimp only
  set b := x.toModel.toBits.toBitVec with hb
  have hbits : x.toBits.toNat = b.toNat := rfl
  rw [hbits]
  rcases ite_eq_iff.mp h with ⟨-, h⟩ | ⟨hones, h⟩
  · rcases ite_eq_iff.mp h with ⟨-, h⟩ | ⟨-, h⟩ <;> cases h
  · have hfinite : b.toNat / fractionSize % 2048 ≠ 2047 := by
      rw [← hexponent]
      exact fun h => hones (BitVec.eq_of_toNat_eq h)
    rw [if_neg hfinite]
    rcases ite_eq_iff.mp h with ⟨hzero, h⟩ | ⟨hnonzero, h⟩
    · have hbiased : b.toNat / fractionSize % 2048 = 0 := by rw [← hexponent, hzero]; rfl
      rw [if_pos hbiased]
      rcases dite_eq_iff.mp h with ⟨_, h⟩ | ⟨_, h⟩
      · cases h
      · obtain ⟨hs, rfl, rfl⟩ := UnpackedFloat.finite.inj h
        have hpos := lt_signBit_of_positive hs
        rw [decide_eq_false (not_le.mpr hpos), hmantissa, hzero]
        rfl
    · have hbiased : b.toNat / fractionSize % 2048 ≠ 0 := by
        rw [← hexponent]
        exact fun h => hnonzero (BitVec.eq_of_toNat_eq h)
      rw [if_neg hbiased]
      obtain ⟨hs, rfl, rfl⟩ := UnpackedFloat.finite.inj h
      have hpos := lt_signBit_of_positive hs
      rw [decide_eq_false (not_le.mpr hpos), toNat_leadingOne, hmantissa, hexponent, Nat.add_comm]
      rfl

/-- A number of seconds below `2^64`, rounded to nanoseconds, can be held. -/
theorem roundHalfEven_lt_limit {m : ℕ} {e : ℤ} (hm : m.log2 ≤ 52) (h : totalExponent m e ≤ 64) :
    roundHalfEven (m * nanosPerSecond * Nat.pow 2 e.toNat) (Nat.pow 2 (-e).toNat) <
      Duration.limit := by
  show roundHalfEven (m * nanosPerSecond * 2 ^ e.toNat) (2 ^ (-e).toNat) < 2 ^ 64 * nanosPerSecond
  have hlog : (m.log2 : ℤ) + 1 + e ≤ 64 := h
  by_cases he : 0 ≤ e
  · -- a whole number of seconds is not rounded
    have hlt : m * 2 ^ e.toNat < 2 ^ 64 := by
      calc m * 2 ^ e.toNat < 2 ^ (m.log2 + 1) * 2 ^ e.toNat :=
            Nat.mul_lt_mul_of_pos_right Nat.lt_log2_self (by positivity)
        _ ≤ 2 ^ 64 := by
            rw [← pow_add]
            exact Nat.pow_le_pow_right (by decide) (by omega)
    rw [show (-e).toNat = 0 by omega, pow_zero]
    unfold roundHalfEven
    rw [Nat.mod_one, Nat.div_one, if_pos (by decide)]
    calc m * nanosPerSecond * 2 ^ e.toNat = m * 2 ^ e.toNat * nanosPerSecond := by ring
      _ < 2 ^ 64 * nanosPerSecond := Nat.mul_lt_mul_of_pos_right hlt (by decide)
  · have hlt : m < 2 ^ 53 := Nat.lt_log2_self.trans_le (Nat.pow_le_pow_right (by decide) (by omega))
    rw [show e.toNat = 0 by omega, pow_zero, mul_one]
    calc roundHalfEven (m * nanosPerSecond) (2 ^ (-e).toNat)
        ≤ m * nanosPerSecond / 2 ^ (-e).toNat + 1 := roundHalfEven_le _ _
      _ ≤ m * nanosPerSecond + 1 := Nat.succ_le_succ (Nat.div_le_self _ _)
      _ < 2 ^ 64 * nanosPerSecond := by unfold nanosPerSecond; omega

theorem floatToDuration?_isSome {x : Float} {m : ℕ} {e : ℤ} (hx : decode x = .finite false m e)
    (hm : m.log2 ≤ 52) (h : totalExponent m e ≤ 64) : (floatToDuration? x).isSome = true := by
  have hheld : (⟨roundHalfEven (m * nanosPerSecond * Nat.pow 2 e.toNat) (Nat.pow 2 (-e).toNat)⟩ :
      Duration).isHeld = true := decide_eq_true (roundHalfEven_lt_limit hm h)
  unfold floatToDuration?
  rw [hx]
  dsimp only
  rw [if_neg]
  · rfl
  · rintro (⟨hfalse, -⟩ | hlong)
    · exact Bool.false_ne_true hfalse
    · exact hlong hheld

/-- A double below `2^64`, or zero in the place of a negative one, can be held as a number of
seconds. -/
theorem toDuration?_isSome {x : Float} (hx : Bounded 64 x) :
    (Quantity.toDuration? (Quantity.maximum x Quantity.zero)).isSome = true := by
  unfold Quantity.maximum
  by_cases hpos : (Quantity.zero : Float) < x
  · rw [if_pos (Or.inl hpos)]
    have hlt := lt_iff.mp hpos
    rw [show (Quantity.zero : Float).toModel.unpack = .zero .positive from rfl] at hlt
    unfold Bounded at hx
    cases hu : x.toModel.unpack with
    | notANumber =>
      rw [hu] at hlt
      exact Bool.noConfusion hlt
    | zero s =>
      rw [hu] at hlt
      exact Bool.noConfusion hlt
    | infinity s =>
      rw [hu] at hx
      exact hx.elim
    | finite s m e hm =>
      rw [hu] at hx hlt
      cases s with
      | negative => exact Bool.noConfusion hlt
      | positive => exact floatToDuration?_isSome (decode_of_unpack hu) (log2_mantissa_le hu) hx
  · have hle : (Quantity.zero : Float) ≤ Quantity.zero := by decide
    rw [if_neg fun h => h.elim hpos fun hnot => hnot hle]
    exact floatToDuration?_isSome (m := 0) (e := -1074) rfl (by decide) (by decide)

end Bulwark.Binary64
