/-
Quotients of doubles against a threshold.

The panic test computes a percentage in double precision: the number of available hosts times a
hundred, divided by the number of hosts. Numbers of hosts are exact as doubles, and so is the
product; only the quotient is rounded. Rounding moves it to one of the two doubles next to it,
and never past a double. So if what comes out is less than a threshold, which is a double as
well, then the exact quotient is less too (`Double.lt_of_quotient_lt`).

The way there follows the computation. A natural number below `2 ^ 53` is a mantissa of 53 bits
with an exponent. The division cuts the quotient off after 53 or 54 bits, and rounding yields a
mantissa that is the cut one or the next. Of the result it is enough to know that the exact
quotient lies below the double after it.
-/
import LoadBalancing.Numerics
import Mathlib

set_option autoImplicit false

namespace LoadBalancing

namespace Double

open Float.Model Float.Model.UnpackedFloat

/-! ## Values -/

/-- The number that a double stands for, unless it is infinite or not a number. -/
def value? (x : Float) : Option ℚ :=
  match x.toModel.unpack with
  | .zero _ => some 0
  | .finite s m e _ => some ((s.apply m : ℤ) * 2 ^ e)
  | _ => none

/-! ## Shifting and rounding a mantissa -/

theorem mantissa_shiftRight (em : ExtendedMantissa) (k : Nat) :
    (em >>> k).mantissa = em.mantissa / 2 ^ k := by
  change (Nat.repeat ExtendedMantissa.shiftRightOne k em).mantissa = _
  induction k with
  | zero => simp [Nat.repeat]
  | succ k ih =>
    change (Nat.repeat ExtendedMantissa.shiftRightOne k em).mantissa / 2 = _
    rw [ih, Nat.div_div_eq_div_mul, Nat.pow_succ]

/-- Nothing is lost as long as only zeros are shifted out. -/
theorem shiftRight_exact (m k : Nat) :
    (⟨m * 2 ^ k, false, false⟩ : ExtendedMantissa) >>> k = ⟨m, false, false⟩ := by
  change Nat.repeat ExtendedMantissa.shiftRightOne k ⟨m * 2 ^ k, false, false⟩ = _
  induction k generalizing m with
  | zero => simp [Nat.repeat]
  | succ k ih =>
    have hsplit : m * 2 ^ (k + 1) = 2 * m * 2 ^ k := by
      rw [Nat.pow_succ]
      ring
    rw [Nat.repeat, hsplit, ih (2 * m)]
    simp [ExtendedMantissa.shiftRightOne]

theorem mantissa_ofMantissaAndAccuracy (m : Nat) (acc : Accuracy) :
    (ExtendedMantissa.ofMantissaAndAccuracy m acc).mantissa = m := by
  cases acc with
  | exact => rfl
  | inexact o => cases o <;> rfl

/-- A mantissa is rounded to itself or to the next one. -/
theorem le_roundedMantissa (em : ExtendedMantissa) :
    em.mantissa ≤ em.roundedMantissa ∧ em.roundedMantissa ≤ em.mantissa + 1 := by
  obtain ⟨m, r, s⟩ := em
  cases r <;> cases s <;>
    simp [ExtendedMantissa.roundedMantissa, ExtendedMantissa.accuracy, Accuracy.roundToNearestEven]
  omega

/-- Mantissas have 53 bits, as long as the exponent is not below the least one. -/
theorem targetExponent_eq {m k : Nat} {e : ℤ} (hlog : m.log2 = 52 + k) (he : -1074 ≤ e + k) :
    Format.binary64.targetExponent (totalExponent m e) = e + k := by
  simp only [Format.targetExponent, totalExponent, Format.mantissaBits, Format.minExponent, hlog]
  norm_num
  omega

theorem shiftToTargetExponent_eq {m k : Nat} {e : ℤ} (acc : Accuracy) (hlog : m.log2 = 52 + k)
    (he : -1074 ≤ e + k) :
    shiftToTargetExponent .binary64 m e acc =
      (ExtendedMantissa.ofMantissaAndAccuracy m acc >>> k, e + k) := by
  have hshift : (e + k - e).toNat = k := by omega
  simp only [shiftToTargetExponent, shiftToExponent, targetExponent_eq hlog he, hshift]

theorem log2_mul_two_pow {m : Nat} (hpos : 0 < m) (k : Nat) : (m * 2 ^ k).log2 = m.log2 + k := by
  have hne : m ≠ 0 := by omega
  obtain ⟨hlow, hhigh⟩ := (Nat.log2_eq_iff hne).1 rfl
  have hk := Nat.two_pow_pos k
  rw [Nat.log2_eq_iff (Nat.mul_ne_zero hne (by omega)), Nat.add_right_comm, Nat.pow_add,
    Nat.pow_add 2 (m.log2 + 1)]
  exact ⟨Nat.mul_le_mul_right _ hlow, Nat.mul_lt_mul_of_pos_right hhigh hk⟩

theorem log2_eq_of_bounds {m : Nat} (hlow : 2 ^ 52 ≤ m) (hhigh : m < 2 ^ 53) : m.log2 = 52 :=
  (Nat.log2_eq_iff (by omega)).2 ⟨hlow, hhigh⟩

theorem bounds_of_log2_eq {m k : Nat} (hlog : m.log2 = 52 + k) :
    2 ^ 52 ≤ m / 2 ^ k ∧ m / 2 ^ k < 2 ^ 53 := by
  have hm : m ≠ 0 := by
    rintro rfl
    rw [Nat.log2_zero] at hlog
    omega
  obtain ⟨hlow, hhigh⟩ := (Nat.log2_eq_iff hm).1 hlog
  constructor
  · rw [Nat.le_div_iff_mul_le (Nat.two_pow_pos k), ← Nat.pow_add]
    exact hlow
  · rw [Nat.div_lt_iff_lt_mul (Nat.two_pow_pos k), ← Nat.pow_add]
    refine Nat.lt_of_lt_of_le hhigh (Nat.pow_le_pow_right (by decide) (by omega))

/-- A mantissa that is rounded up to 54 bits loses its last bit, which is zero. -/
theorem roundWithAccuracy_eq {m k r : Nat} {e : ℤ} {acc : Accuracy} (hlog : m.log2 = 52 + k)
    (he : -1074 ≤ e + k)
    (hr : (ExtendedMantissa.ofMantissaAndAccuracy m acc >>> k).roundedMantissa = r) :
    (∃ hpos, r < 2 ^ 53 ∧
      roundWithAccuracy .binary64 .positive m e acc = .finite .positive r (e + k) hpos) ∨
    (r = 2 ^ 53 ∧
      roundWithAccuracy .binary64 .positive m e acc =
        .finite .positive (2 ^ 52) (e + k + 1) (by decide)) := by
  obtain ⟨hlow, hhigh⟩ := bounds_of_log2_eq hlog
  have hround := le_roundedMantissa (ExtendedMantissa.ofMantissaAndAccuracy m acc >>> k)
  rw [mantissa_shiftRight, mantissa_ofMantissaAndAccuracy, hr] at hround
  rw [roundWithAccuracy, shiftToTargetExponent_eq acc hlog he]
  dsimp only
  rw [hr]
  -- rounding may carry into a new bit, and then it made a power of two
  by_cases hfits : r < 2 ^ 53
  · left
    have hexact : shiftToTargetExponent .binary64 r (e + k) .exact =
        (⟨r, false, false⟩, e + k) := by
      have hshift := shiftToTargetExponent_eq (k := 0) (e := e + k) .exact
        (log2_eq_of_bounds (by omega) hfits) (by omega)
      rw [hshift]
      simp [ExtendedMantissa.ofMantissaAndAccuracy, HShiftRight.hShiftRight, Nat.repeat]
    refine ⟨by omega, hfits, ?_⟩
    rw [hexact]
    dsimp only
    rw [dif_neg (by omega)]
  · right
    -- the carry leaves zeros behind it, so to shift once more is exact
    have hcarry : r = 2 ^ 52 * 2 ^ 1 := by omega
    have hexact : shiftToTargetExponent .binary64 r (e + k) .exact =
        (⟨2 ^ 52, false, false⟩, e + k + 1) := by
      have hlog' : r.log2 = 52 + 1 := by
        rw [hcarry, ← Nat.pow_add, Nat.log2_two_pow]
      have hshift := shiftToTargetExponent_eq (k := 1) (e := e + k) .exact hlog' (by omega)
      rw [hshift, hcarry]
      exact congrArg (·, _) (shiftRight_exact (2 ^ 52) 1)
    refine ⟨by omega, ?_⟩
    rw [hexact]
    rfl

/-- A number of 53 bits needs no rounding. -/
theorem roundWithAccuracy_exact {m k : Nat} {e : ℤ} (hpos : 0 < m) (hlog : m.log2 = 52)
    (he : -1074 ≤ e + k) :
    roundWithAccuracy .binary64 .positive (m * 2 ^ k) e .exact =
      .finite .positive m (e + k) hpos := by
  have hlog' : (m * 2 ^ k).log2 = 52 + k := by rw [log2_mul_two_pow hpos, hlog]
  have hm : m < 2 ^ 53 := by
    rw [← Nat.log2_lt (by omega), hlog]
    decide
  have hr : (ExtendedMantissa.ofMantissaAndAccuracy (m * 2 ^ k) .exact >>> k).roundedMantissa = m :=
    congrArg ExtendedMantissa.roundedMantissa (shiftRight_exact m k)
  rcases roundWithAccuracy_eq hlog' he hr with ⟨_, -, hround⟩ | ⟨hcarry, -⟩
  · exact hround
  · omega

/-! ## Packing -/

theorem toNat_one_append (m : Nat) (hlog : m.log2 = 52) :
    (1#1 ++ BitVec.ofNat 52 m).toNat = m := by
  obtain ⟨hlow, hhigh⟩ := bounds_of_log2_eq (k := 0) hlog
  rw [BitVec.toNat_append, ← Nat.shiftLeft_add_eq_or_of_lt (BitVec.isLt _), BitVec.toNat_ofNat]
  simp only [BitVec.toNat_ofNat, Nat.shiftLeft_eq]
  omega

theorem unpackSign_packComponents (s : Sign) (e : BitVec 11) (m : BitVec 52) :
    Sign.ofBitVec (unpackSign (packComponents .binary64 s e m)) = s := by
  simp only [unpackSign, packComponents, BitVec.extractLsb]
  rw [BitVec.extractLsb'_append_eq_of_le (by omega), BitVec.extractLsb'_append_eq_of_le (by omega)]
  cases s <;> rfl

/-- A number of 53 bits is kept as it is. -/
theorem unpack_pack {s : Sign} {m : Nat} {e : ℤ} (hpos : 0 < m) (hlog : m.log2 = 52)
    (hlow : -1074 ≤ e) (hhigh : e ≤ 971) :
    (Float.Model.pack (.finite s m e hpos)).unpack = .finite s m e hpos := by
  obtain ⟨b, hb⟩ := Int.eq_ofNat_of_zero_le (show 0 ≤ e + 1075 by omega)
  have hbias : (Format.binary64.exponentBias : ℤ) = 1023 := rfl
  have hpacked : UnpackedFloat.pack .binary64 (.finite s m e hpos) =
      packComponents .binary64 s (BitVec.ofNat 11 b) (BitVec.ofNat 52 m) := by
    have hb' : (e + Format.binary64.exponentBias
        + Format.binary64.mantissaBitsWithoutImplicit).toNat = b := by
      change (e + 1023 + 52).toNat = b
      omega
    simp only [UnpackedFloat.pack, hb', hlog]
    rw [if_neg (by omega), if_pos (by simp [Format.mantissaBits])]
  -- the exponent is neither that of zero nor that of infinity
  have hinfinite : BitVec.ofNat 11 b ≠ -1#11 := by
    intro heq
    have := congrArg BitVec.toNat heq
    simp at this
    omega
  have hzero : BitVec.ofNat 11 b ≠ 0#11 := by
    intro heq
    have := congrArg BitVec.toNat heq
    simp at this
    omega
  change UnpackedFloat.unpack .binary64 (UnpackedFloat.pack .binary64 (.finite s m e hpos)) = _
  rw [hpacked, UnpackedFloat.unpack]
  simp only [unpackMantissa_packComponents, unpackExponent_packComponents,
    unpackSign_packComponents]
  rw [if_neg hinfinite, if_neg hzero]
  simp [toNat_one_append m hlog, hbias]
  omega

/-! ## Natural numbers -/

/-- The double that is a natural number below `2 ^ 53`. -/
def natural (n : Nat) : UnpackedFloat :=
  if h : n = 0 then .zero .positive
  else .finite .positive (n * 2 ^ (52 - n.log2)) (n.log2 - 52)
    (Nat.mul_pos (Nat.pos_of_ne_zero h) (Nat.two_pow_pos _))

theorem log2_le {n : Nat} (h : n < 2 ^ 53) : n.log2 ≤ 52 := by
  rcases Nat.eq_zero_or_pos n with rfl | hpos
  · simp
  · have := (Nat.log2_lt (by omega)).2 h
    omega

theorem log2_mantissa {n : Nat} (hpos : 0 < n) (h : n < 2 ^ 53) :
    (n * 2 ^ (52 - n.log2)).log2 = 52 := by
  have hle := log2_le h
  rw [log2_mul_two_pow hpos]
  omega

theorem unpack_pack_natural {n : Nat} (h : n < 2 ^ 53) :
    (Float.Model.pack (natural n)).unpack = natural n := by
  have hle := log2_le h
  by_cases hn : n = 0
  · rw [natural, dif_pos hn]
    rfl
  · rw [natural, dif_neg hn]
    exact unpack_pack _ (log2_mantissa (by omega) h) (by omega) (by omega)

/-- Rounding leaves a natural number as it is, whatever its exponent is. -/
theorem roundWithAccuracy_natural {n k : Nat} {e : ℤ} (hpos : 0 < n) (h : n < 2 ^ 53)
    (hk : 52 ≤ n.log2 + k) (he : e + k = 0) :
    roundWithAccuracy .binary64 .positive (n * 2 ^ k) e .exact = natural n := by
  have hle := log2_le h
  have hround := roundWithAccuracy_exact (k := k + n.log2 - 52) (e := e)
    (Nat.mul_pos hpos (Nat.two_pow_pos _)) (log2_mantissa hpos h) (by omega)
  have hsplit : n * 2 ^ (52 - n.log2) * 2 ^ (k + n.log2 - 52) = n * 2 ^ k := by
    rw [Nat.mul_assoc, ← Nat.pow_add]
    congr 2
    omega
  rw [hsplit] at hround
  rw [hround, natural, dif_neg (by omega)]
  congr 1
  omega

theorem unpack_ofNat {n : Nat} (h : n < 2 ^ 53) : (Float.Model.ofNat n).unpack = natural n := by
  have hrounded : UnpackedFloat.ofNat .binary64 n = natural n := by
    rcases Nat.eq_zero_or_pos n with rfl | hpos
    · rfl
    · have hle := log2_le h
      have htarget : Format.binary64.targetExponent (totalExponent n 0) = n.log2 - 52 := by
        simp only [Format.targetExponent, totalExponent, Format.mantissaBits, Format.minExponent]
        norm_num
        omega
      have hshift : (0 - ((n.log2 : ℤ) - 52)).toNat = 52 - n.log2 := by omega
      rw [UnpackedFloat.ofNat, UnpackedFloat.ofInt, UnpackedFloat.normalize,
        Int.compare_eq_gt.2 (by omega)]
      simp only [Int.toNat_natCast, UnpackedFloat.round, htarget, decreaseExponent, hshift,
        Nat.shiftLeft_eq]
      exact roundWithAccuracy_natural hpos h (by omega) (by omega)
  rw [Float.Model.ofNat, hrounded, unpack_pack_natural h]

/-- **Products of natural numbers are exact** as long as they are below `2 ^ 53`. -/
theorem unpack_mul {x y : Float} {j k : Nat} (hx : x.toModel.unpack = natural j)
    (hy : y.toModel.unpack = natural k) (h : j * k < 2 ^ 53) :
    (x * y).toModel.unpack = natural (j * k) := by
  change (Float.Model.pack
    (UnpackedFloat.mul .binary64 x.toModel.unpack y.toModel.unpack)).unpack = _
  have hmul : UnpackedFloat.mul .binary64 (natural j) (natural k) = natural (j * k) := by
    -- zero has no highest bit, so it is a case for itself on either side
    rcases Nat.eq_zero_or_pos j with rfl | hj
    · rw [Nat.zero_mul]
      by_cases hk : k = 0 <;> simp [natural, hk, UnpackedFloat.mul] <;> rfl
    rcases Nat.eq_zero_or_pos k with rfl | hk
    · rw [Nat.mul_zero, natural, natural, dif_neg (by omega), dif_pos rfl]
      rfl
    have hle := log2_le h
    have hpos : 0 < j * k := Nat.mul_pos hj hk
    -- no factor has more bits than the product, so shifts by the rest of 52 bits are no overflow
    have hj' : j.log2 ≤ (j * k).log2 :=
      (Nat.le_log2 (by omega)).2
        (Nat.le_trans (Nat.log2_self_le (by omega)) (Nat.le_mul_of_pos_right j hk))
    have hk' : k.log2 ≤ (j * k).log2 :=
      (Nat.le_log2 (by omega)).2
        (Nat.le_trans (Nat.log2_self_le (by omega)) (Nat.le_mul_of_pos_left k hj))
    -- the two mantissas are shifted to 53 bits each, and their product by both shifts together
    have hmantissa : j * 2 ^ (52 - j.log2) * (k * 2 ^ (52 - k.log2)) =
        j * k * 2 ^ (104 - j.log2 - k.log2) := by
      rw [Nat.mul_mul_mul_comm, ← Nat.pow_add]
      congr 2
      omega
    rw [natural, natural, dif_neg (by omega), dif_neg (by omega)]
    change roundWithAccuracy .binary64 .positive _ _ .exact = _
    rw [hmantissa]
    exact roundWithAccuracy_natural hpos h (by omega) (by omega)
  rw [hx, hy, hmul, unpack_pack_natural h]

theorem unpack_float {n : Nat} (h : n < 2 ^ 53) : (Float.ofNat n).toModel.unpack = natural n := by
  have hone : (Float.ofBits 4607182418800017408).toModel.unpack = natural 1 := rfl
  have hn : n.toUInt64.toFloat.toModel.unpack = natural n := by
    have hword : n.toUInt64.toNat = n := Nat.mod_eq_of_lt (Nat.lt_trans h (by decide))
    have hofNat : n.toUInt64.toFloat.toModel = Float.Model.ofNat n.toUInt64.toNat := rfl
    rw [hofNat, hword, unpack_ofNat h]
  have hproduct : Float.ofNat n = n.toUInt64.toFloat * Float.ofBits 4607182418800017408 := by
    rw [Float.ofNat]
    change Float.ofScientific n false 0 = _
    rw [Float.ofScientific, dif_pos ⟨h, by decide⟩]
    rfl
  rw [hproduct, unpack_mul hn hone (by omega), Nat.mul_one]

theorem value?_ofNat {n : Nat} (h : n < 2 ^ 53) : value? (Float.ofNat n) = some (n : ℚ) := by
  have hle := log2_le h
  rw [value?, unpack_float h, natural]
  by_cases hn : n = 0
  · rw [dif_pos hn, hn]
    rfl
  · have hexp : (n.log2 : ℤ) - 52 = -((52 - n.log2 : Nat) : ℤ) := by omega
    rw [dif_neg hn]
    dsimp only [Sign.apply]
    rw [hexp, zpow_neg, zpow_natCast]
    push_cast
    field_simp

/-! ## Quotients -/

/-- A quotient that is cut off lies below the next one. -/
theorem quotient_lt (a : Nat) {b : Nat} (hb : 0 < b) (i j : Nat) :
    (a / b : ℚ) < ((a * 2 ^ i / (b * 2 ^ j) : Nat) + 1) * 2 ^ ((j : ℤ) - i) := by
  have hcut : a * 2 ^ i < (a * 2 ^ i / (b * 2 ^ j) + 1) * (b * 2 ^ j) := by
    rw [Nat.mul_comm _ (b * 2 ^ j)]
    exact Nat.lt_mul_div_succ _ (Nat.mul_pos hb (Nat.two_pow_pos j))
  generalize a * 2 ^ i / (b * 2 ^ j) = p at hcut ⊢
  have hcut' : (a * 2 ^ i : ℚ) < (p + 1) * (b * 2 ^ j) := by exact_mod_cast hcut
  have hb' : (0 : ℚ) < b := by exact_mod_cast hb
  rw [zpow_sub₀ (by norm_num), zpow_natCast, zpow_natCast, div_lt_iff₀ hb', mul_div_assoc',
    div_mul_eq_mul_div, lt_div_iff₀ (by positivity)]
  linarith

/-- The quotient of two mantissas of 53 bits is cut off after 53 or 54 bits. -/
theorem log2_quotient {m m' : Nat} (hm : m.log2 = 52) (hm' : m'.log2 = 52) :
    ∃ k : Nat, k ≤ 1 ∧ (m * 2 ^ 53 / m').log2 = 52 + k := by
  obtain ⟨hlow, hhigh⟩ := bounds_of_log2_eq (k := 0) hm
  obtain ⟨hlow', hhigh'⟩ := bounds_of_log2_eq (k := 0) hm'
  rw [Nat.pow_zero, Nat.div_one] at hlow hhigh hlow' hhigh'
  have hplow : 2 ^ 52 ≤ m * 2 ^ 53 / m' := by
    rw [Nat.le_div_iff_mul_le (by omega)]
    omega
  have hphigh : m * 2 ^ 53 / m' < 2 ^ 54 := by
    rw [Nat.div_lt_iff_lt_mul (by omega)]
    omega
  by_cases hcarry : m * 2 ^ 53 / m' < 2 ^ 53
  · exact ⟨0, by omega, log2_eq_of_bounds hplow hcarry⟩
  · exact ⟨1, by omega, (Nat.log2_eq_iff (by omega)).2 ⟨by omega, hphigh⟩⟩

theorem divCore_eq {m m' : Nat} {e e' : ℤ} (hm : m.log2 = 52) (hm' : m'.log2 = 52)
    (he : -1021 ≤ e - e') :
    divCore .binary64 m e m' e' =
      (m * 2 ^ 53 / m', e - e' - 53, accuracyOfFraction (m * 2 ^ 53 % m') m') := by
  have htarget : min (e - e') (Format.binary64.targetExponent
      (totalExponent m e - totalExponent m' e')) = e - e' - 53 := by
    simp only [totalExponent, hm, hm', Format.targetExponent, Format.mantissaBits,
      Format.minExponent]
    norm_num
    omega
  have hshift : (e - e' - (e - e' - 53)).toNat = 53 := by omega
  rw [divCore, htarget]
  simp only [hshift, Nat.shiftLeft_eq]

/-- What was cut off lies below the double after the one that it is rounded to. -/
theorem roundWithAccuracy_above {p k : Nat} {e : ℤ} (acc : Accuracy) (hlog : p.log2 = 52 + k)
    (he : -1074 ≤ e + k) :
    ∃ r e' hpos, roundWithAccuracy .binary64 .positive p e acc = .finite .positive r e' hpos ∧
      r.log2 = 52 ∧ e + k ≤ e' ∧ e' ≤ e + k + 1 ∧ ((p + 1 : ℚ) * 2 ^ e ≤ (r + 1) * 2 ^ e') := by
  obtain ⟨r, hr⟩ : ∃ r, (ExtendedMantissa.ofMantissaAndAccuracy p acc >>> k).roundedMantissa = r :=
    ⟨_, rfl⟩
  obtain ⟨hlow, hhigh⟩ := bounds_of_log2_eq hlog
  have hround := le_roundedMantissa (ExtendedMantissa.ofMantissaAndAccuracy p acc >>> k)
  rw [mantissa_shiftRight, mantissa_ofMantissaAndAccuracy, hr] at hround
  -- the bits that are cut off are worth less than one unit of what remains
  have hcut : p + 1 ≤ (p / 2 ^ k + 1) * 2 ^ k := by
    rw [Nat.mul_comm]
    exact Nat.lt_mul_div_succ p (Nat.two_pow_pos k)
  have hscale : (2 : ℚ) ^ (e + k) = 2 ^ k * 2 ^ e := by
    rw [zpow_add₀ (by norm_num), zpow_natCast, mul_comm]
  have hpow : (0 : ℚ) < 2 ^ e := by positivity
  rcases roundWithAccuracy_eq hlog he hr with ⟨hpos, hfits, heq⟩ | ⟨hcarry, heq⟩
  · refine ⟨r, e + k, hpos, heq, log2_eq_of_bounds (by omega) hfits, by omega, by omega, ?_⟩
    have hle : p + 1 ≤ (r + 1) * 2 ^ k :=
      Nat.le_trans hcut (Nat.mul_le_mul_right _ (by omega))
    have hle' : (p + 1 : ℚ) ≤ (r + 1) * 2 ^ k := by exact_mod_cast hle
    rw [hscale, ← mul_assoc]
    exact mul_le_mul_of_nonneg_right hle' hpow.le
  · -- after a carry the unit is twice as large, and so is the room above
    refine ⟨2 ^ 52, e + k + 1, by decide, heq, Nat.log2_two_pow, by omega, by omega, ?_⟩
    have hle : p + 1 ≤ (2 ^ 52 + 1) * 2 * 2 ^ k :=
      Nat.le_trans hcut (Nat.mul_le_mul_right _ (by omega))
    have hle' : (p + 1 : ℚ) ≤ (2 ^ 52 + 1) * 2 * 2 ^ k := by exact_mod_cast hle
    rw [zpow_add₀ (by norm_num), hscale, zpow_one]
    push_cast
    calc (p + 1 : ℚ) * 2 ^ e ≤ (2 ^ 52 + 1) * 2 * 2 ^ k * 2 ^ e :=
          mul_le_mul_of_nonneg_right hle' hpow.le
      _ = (2 ^ 52 + 1) * (2 ^ k * 2 ^ e * 2) := by ring

/-- **A rounded quotient** is a double, and the exact quotient lies below the double after it. -/
theorem unpack_div {x y : Float} {a b : Nat} (hx : x.toModel.unpack = natural a)
    (hy : y.toModel.unpack = natural b) (ha : 0 < a) (hb : 0 < b) (ha' : a < 2 ^ 53)
    (hb' : b < 2 ^ 53) :
    ∃ r e hpos, (x / y).toModel.unpack = .finite .positive r e hpos ∧ r.log2 = 52 ∧ -1074 ≤ e ∧
      (a / b : ℚ) < (r + 1) * 2 ^ e := by
  have hla := log2_le ha'
  have hlb := log2_le hb'
  have hm := log2_mantissa ha ha'
  have hm' := log2_mantissa hb hb'
  -- 53 bits over 53 bits, shifted by 53 more, leave 53 or 54 before rounding
  obtain ⟨k, hk, hlog⟩ := log2_quotient hm hm'
  have hexact := quotient_lt a hb (52 - a.log2 + 53) (52 - b.log2)
  rw [Nat.pow_add, ← Nat.mul_assoc,
    show ((52 - b.log2 : Nat) : ℤ) - ((52 - a.log2 + 53 : Nat) : ℤ) =
      (a.log2 : ℤ) - 52 - (b.log2 - 52) - 53 by omega] at hexact
  obtain ⟨r, e, hpos, heq, hr, hlow, hhigh, habove⟩ := roundWithAccuracy_above
    (e := (a.log2 : ℤ) - 52 - (b.log2 - 52) - 53) (accuracyOfFraction
      (a * 2 ^ (52 - a.log2) * 2 ^ 53 % (b * 2 ^ (52 - b.log2))) (b * 2 ^ (52 - b.log2)))
    hlog (by omega)
  refine ⟨r, e, hpos, ?_, hr, by omega, lt_of_lt_of_le hexact habove⟩
  change (Float.Model.pack
    (UnpackedFloat.div .binary64 x.toModel.unpack y.toModel.unpack)).unpack = _
  -- the exponent is in range, so the quotient is neither denormal nor infinite
  have hdiv : UnpackedFloat.div .binary64 (natural a) (natural b) = .finite .positive r e hpos := by
    have hrange : -1021 ≤ (a.log2 : ℤ) - 52 - (b.log2 - 52) := by omega
    have hcore := divCore_eq hm hm' hrange
    rw [natural, natural, dif_neg (by omega), dif_neg (by omega), UnpackedFloat.div, hcore]
    exact heq
  rw [hx, hy, hdiv, unpack_pack hpos hr (by omega) (by omega)]

/-! ## Comparing -/

/-- Above the least exponent all mantissas have 53 bits. -/
theorem le_mantissa_of_unpack {x : Float} {s : Sign} {m : Nat} {e : ℤ} {hpos : 0 < m}
    (h : x.toModel.unpack = .finite s m e hpos) (he : -1074 < e) : 2 ^ 52 ≤ m := by
  rw [Float.Model.unpack, UnpackedFloat.unpack] at h
  dsimp only at h
  split at h
  · split at h <;> cases h
  · split at h
    next hzero =>
      -- the exponent field of zero stands for the least exponent
      split at h
      · cases h
      · injection h with hs hm hexp
        rw [hzero] at hexp
        simp [Format.exponentBias] at hexp
        omega
    next =>
      injection h with hs hm hexp
      rw [← hm, BitVec.toNat_append, ← Nat.shiftLeft_add_eq_or_of_lt (BitVec.isLt _)]
      simp [Nat.shiftLeft_eq]

/-- What is greater than zero or a positive double is a positive double. -/
theorem exists_of_lt {x t : Float} {τ : ℚ}
    (hx : x.toModel.unpack = .zero .positive ∨
      ∃ r e hpos, x.toModel.unpack = .finite .positive r e hpos)
    (ht : value? t = some τ) (hlt : x < t) :
    ∃ m e hpos, t.toModel.unpack = .finite .positive m e hpos ∧ τ = m * 2 ^ e := by
  have hless : x.toModel.unpack.lt t.toModel.unpack = true := of_decide_eq_true hlt
  rw [value?] at ht
  -- of all that a double can be, only a positive one is greater than zero and finite
  cases ht' : t.toModel.unpack with
  | zero s =>
    rw [ht'] at hless
    rcases hx with hx | ⟨r, e, hpos, hx⟩ <;>
    · rw [hx] at hless
      cases hless
  | infinity s =>
    rw [ht'] at ht
    cases ht
  | notANumber =>
    rw [ht'] at ht
    cases ht
  | finite s m e' hpos' =>
    rw [ht'] at ht hless
    cases s with
    | negative =>
      rcases hx with hx | ⟨r, e, hpos, hx⟩ <;>
      · rw [hx] at hless
        cases hless
    | positive => exact ⟨m, e', hpos', rfl, by simpa [Sign.apply] using ht.symm⟩

/-- A greater double is at least the next one. -/
theorem next_le_of_lt {x t : Float} {τ : ℚ} {r : Nat} {e : ℤ} {hpos : 0 < r}
    (hx : x.toModel.unpack = .finite .positive r e hpos) (hr : r.log2 = 52) (he : -1074 ≤ e)
    (ht : value? t = some τ) (hlt : x < t) : (r + 1) * 2 ^ e ≤ τ := by
  obtain ⟨m, e', hpos', ht', rfl⟩ := exists_of_lt (.inr ⟨r, e, hpos, hx⟩) ht hlt
  have hless : x.toModel.unpack.lt t.toModel.unpack = true := of_decide_eq_true hlt
  rw [hx, ht'] at hless
  have hcompare : e < e' ∨ e = e' ∧ r < m := by
    simpa [UnpackedFloat.lt, UnpackedFloat.compare, Ordering.then_eq_lt, Int.compare_eq_lt,
      Nat.compare_eq_lt] using hless
  rcases hcompare with hexp | ⟨rfl, hmantissa⟩
  · -- the next double has the next exponent at most, and there mantissas start at `2 ^ 52`
    obtain ⟨-, hhigh⟩ := bounds_of_log2_eq (k := 0) hr
    rw [Nat.pow_zero, Nat.div_one] at hhigh
    have hm : (2 ^ 52 : ℚ) ≤ m := by exact_mod_cast le_mantissa_of_unpack ht' (by omega)
    have hr' : (r + 1 : ℚ) ≤ 2 ^ 52 * 2 := by exact_mod_cast hhigh
    calc ((r : ℚ) + 1) * 2 ^ e ≤ 2 ^ 52 * 2 * 2 ^ e :=
          mul_le_mul_of_nonneg_right hr' (by positivity)
      _ = 2 ^ 52 * 2 ^ (e + 1) := by
          rw [zpow_add₀ (by norm_num), zpow_one]
          ring
      _ ≤ m * 2 ^ e' := by
          have hpow : (2 : ℚ) ^ (e + 1) ≤ 2 ^ e' := zpow_le_zpow_right₀ (by norm_num) (by omega)
          exact mul_le_mul hm hpow (by positivity) (by positivity)
  · have hm : (r + 1 : ℚ) ≤ m := by exact_mod_cast hmantissa
    exact mul_le_mul_of_nonneg_right hm (by positivity)

/-- **Rounding does not take a quotient below a threshold.** If the quotient that is computed is
less than the threshold, then so is the exact one. -/
theorem lt_of_quotient_lt {a b : Nat} (ha : 100 * a < 2 ^ 53) (hb : b < 2 ^ 53) (hpos : 0 < b)
    {t : Float} {τ : ℚ} (ht : value? t = some τ)
    (hlt : Float.ofNat 100 * Float.ofNat a / Float.ofNat b < t) : (100 * a / b : ℚ) < τ := by
  have hproduct := unpack_mul (unpack_float (n := 100) (by decide))
    (unpack_float (n := a) (by omega)) ha
  have hquotient := unpack_float hb
  rcases Nat.eq_zero_or_pos a with rfl | ha'
  · -- nothing over something is zero, also as doubles
    have hzero : (Float.ofNat 100 * Float.ofNat 0 / Float.ofNat b).toModel.unpack =
        .zero .positive := by
      change (Float.Model.pack (UnpackedFloat.div .binary64
        (Float.ofNat 100 * Float.ofNat 0).toModel.unpack (Float.ofNat b).toModel.unpack)).unpack = _
      rw [hproduct, hquotient, natural, natural, dif_pos rfl, dif_neg (by omega)]
      exact unpack_pack_natural (n := 0) (by decide)
    obtain ⟨m, e, hm, -, rfl⟩ := exists_of_lt (.inl hzero) ht hlt
    rw [Nat.cast_zero, mul_zero, zero_div]
    positivity
  · -- the exact quotient lies below the next double, and the threshold does not
    obtain ⟨r, e, hr, heq, hlog, he, hexact⟩ :=
      unpack_div hproduct hquotient (by omega) hpos ha hb
    push_cast at hexact
    exact lt_of_lt_of_le hexact (next_le_of_lt heq hlog he ht hlt)

/-- A percentage is a number. -/
theorem exists_value {t : Float} (hlow : 0 ≤ t) (hhigh : t ≤ 100) : ∃ τ, value? t = some τ := by
  have hlow' : (0 : Float).toModel.unpack.le t.toModel.unpack = true := of_decide_eq_true hlow
  have hhigh' : t.toModel.unpack.le (100 : Float).toModel.unpack = true := of_decide_eq_true hhigh
  rw [value?]
  cases ht : t.toModel.unpack with
  | zero s => exact ⟨0, rfl⟩
  | finite s m e hpos => exact ⟨_, rfl⟩
  | infinity s =>
    rw [ht] at hlow' hhigh'
    cases s with
    | positive => cases hhigh'
    | negative => cases hlow'
  | notANumber =>
    rw [ht] at hhigh'
    cases hhigh'

end Double

end LoadBalancing
