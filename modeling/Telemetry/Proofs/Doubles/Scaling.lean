import Telemetry.Document.Text
import Telemetry.Proofs.Doubles.Rounding

/-! Whole numbers times powers of ten. A double is the digits and the exponent in its bits, and one
that is divided by a power of ten, or a whole number that is multiplied by one, stays a real number
as long as the exact result is one.
-/

namespace Telemetry.Rounding

open Float.Model Float.Model.UnpackedFloat

-----------------------------------------------------------------------------------------
-- Bits
-----------------------------------------------------------------------------------------

/-- The double with the bits of an unpacked number. -/
def packed (unpacked : Float.Model.UnpackedFloat) : Double :=
  ⟨(Float.Model.pack unpacked).toBits⟩

theorem magnitude_packComponents (s : Sign) (exponent : BitVec 11) (mantissa : BitVec 52)
    : (Double.mk (UInt64.ofBitVec (packComponents Format.binary64 s exponent mantissa))).magnitude
      = exponent.toNat * 2 ^ 52 + mantissa.toNat := by
  have low := mantissa.isLt
  have mid := exponent.isLt
  have high := s.toBitVec.isLt
  simp only [Double.magnitude, packComponents, UInt64.toNat_ofBitVec, BitVec.toNat_append]
  rw [← Nat.shiftLeft_add_eq_or_of_lt low, ← Nat.shiftLeft_add_eq_or_of_lt mid]
  simp only [Nat.shiftLeft_eq]
  omega

/-- The bits of a number in range. Without a leading digit it has the exponent of the least numbers.
-/
theorem packed_finite (s : Sign) {r : Nat} {t : Int} (positive : 0 < r) (most : t ≤ 971)
    : packed (.finite s r t positive)
      = ⟨UInt64.ofBitVec (packComponents Format.binary64 s
          (if r.log2 = 52 then BitVec.ofNat 11 (t + 1023 + 52).toNat else 0#11)
          (BitVec.ofNat 52 r))⟩ := by
  have inside : ¬ 2 ^ 11 ≤ (t + 1023 + 52).toNat + 1 := by omega
  change Double.mk (UInt64.ofBitVec
    (if 2 ^ 11 ≤ (t + 1023 + 52).toNat + 1 then packedInfinity Format.binary64 s
    else if r.log2 + 1 = 52 + 1 then
      packComponents Format.binary64 s (BitVec.ofNat 11 (t + 1023 + 52).toNat) (BitVec.ofNat 52 r)
    else packComponents Format.binary64 s 0#11 (BitVec.ofNat 52 r))) = _
  rw [if_neg inside]
  split
  · next full => rw [if_pos (Nat.succ.inj full)]
  · next short => rw [if_neg fun full => short (congrArg (· + 1) full)]

/-- A number whose digits and exponent are in range, or zero. -/
def IsReal (unpacked : Float.Model.UnpackedFloat) : Prop :=
  (∃ s, unpacked = .zero s) ∨ ∃ s r t positive, Fits r t ∧ unpacked = .finite s r t positive

theorem isFinite_packed {unpacked : Float.Model.UnpackedFloat} (h : IsReal unpacked)
    : (packed unpacked).isFinite = true := by
  have bits (s : Sign) (exponent : BitVec 11) (mantissa : BitVec 52) (small : exponent.toNat < 2047)
      : (Double.mk (UInt64.ofBitVec (packComponents Format.binary64 s exponent mantissa))).isFinite
        = true := by
    have := mantissa.isLt
    simp only [Double.isFinite, magnitude_packComponents, Double.infiniteMagnitude,
      decide_eq_true_eq]
    omega
  rcases h with ⟨s, rfl⟩ | ⟨s, r, t, positive, fits, rfl⟩
  · exact bits s 0 0 (by decide)
  have range := fits.2
  rw [packed_finite s positive range]
  refine bits s _ _ ?_
  split
  · rw [BitVec.toNat_ofNat]
    omega
  · decide

theorem isReal_unpack {d : Double} (h : d.isFinite = true)
    : IsReal (UnpackedFloat.unpack Format.binary64 d.bits.toBitVec) := by
  have exponent : (@unpackExponent Format.binary64 d.bits.toBitVec).toNat < 2047 := by
    have inside : d.bits.toNat % 2 ^ 63 < 2047 * 2 ^ 52 := of_decide_eq_true h
    simp only [unpackExponent, BitVec.toNat_cast, BitVec.extractLsb_toNat, UInt64.toNat_toBitVec,
      Nat.shiftRight_eq_div_pow]
    omega
  unfold UnpackedFloat.unpack
  dsimp only
  generalize @unpackExponent Format.binary64 d.bits.toBitVec = x at exponent
  rw [if_neg (by rintro rfl; exact absurd exponent (by decide))]
  split
  · next zero =>
    subst zero
    split
    · exact .inl ⟨_, rfl⟩
    · exact .inr ⟨_, _, _, _, ⟨(BitVec.isLt _).trans (by decide), by decide⟩, rfl⟩
  · refine .inr ⟨_, _, _, _, ⟨BitVec.isLt _, ?_⟩, rfl⟩
    · simp only [Format.exponentBias]
      omega

theorem finite_congr {s : Sign} {m m' : Nat} {e e' : Int} {some : 0 < m'} (positive : 0 < m)
    (digits : m' = m) (exponent : e' = e)
    : UnpackedFloat.finite s m' e' some = .finite s m e positive := by
  subst digits exponent
  rfl

/-- Digits and an exponent that a double has room for are found in its bits again. -/
theorem unpack_packed (s : Sign) {r : Nat} {t : Int} (positive : 0 < r) (fits : Fits r t)
    (full : 2 ^ 52 ≤ r) (least : -1074 ≤ t)
    : ∃ s', UnpackedFloat.unpack Format.binary64 (packed (.finite s r t positive)).bits.toBitVec
      = .finite s' r t positive := by
  obtain ⟨short, most⟩ := fits
  have leading : r.log2 = 52 := (Nat.log2_eq_iff positive.ne').mpr ⟨full, short⟩
  have stored : (BitVec.ofNat 11 (t + 1023 + 52).toNat).toNat = (t + 1023 + 52).toNat := by
    rw [BitVec.toNat_ofNat]
    omega
  rw [packed_finite s positive most, if_pos leading, UInt64.toBitVec_ofBitVec]
  unfold UnpackedFloat.unpack
  simp only [unpackExponent_packComponents, unpackMantissa_packComponents]
  have notTop : BitVec.ofNat 11 (t + 1023 + 52).toNat ≠ -1#11 := by
    intro top
    have : (t + 1023 + 52).toNat = 2047 := stored.symm.trans (congrArg BitVec.toNat top)
    omega
  have notBottom : BitVec.ofNat 11 (t + 1023 + 52).toNat ≠ 0#11 := by
    intro bottom
    have : (t + 1023 + 52).toNat = 0 := stored.symm.trans (congrArg BitVec.toNat bottom)
    omega
  rw [if_neg notTop, if_neg notBottom]
  refine ⟨_, finite_congr positive ?_ ?_⟩
  · rw [BitVec.toNat_append, ← Nat.shiftLeft_add_eq_or_of_lt (BitVec.isLt _), BitVec.toNat_ofNat]
    change 2 ^ 52 + r % 2 ^ 52 = r
    omega
  · rw [stored]
    simp only [Format.exponentBias]
    omega

-----------------------------------------------------------------------------------------
-- Products and quotients
-----------------------------------------------------------------------------------------

theorem value_pos {m : Nat} (positive : 0 < m) (e : Int) : 0 < value m e :=
  mul_pos (by exact_mod_cast positive) (zpow_pos (by norm_num) e)

theorem value_mul (m r : Nat) (e t : Int) : value (m * r) (e + t) = value m e * value r t := by
  rw [value, zpow_add₀ (by norm_num), value, value, Nat.cast_mul]
  ring

theorem Fits.value_le {m : Nat} {e : Int} (h : Fits m e) : value m e ≤ greatest := by
  have digits : (m : ℚ) ≤ 2 ^ 53 - 1 := by
    have : (m : ℚ) + 1 ≤ 2 ^ 53 := by exact_mod_cast h.1
    linarith
  have exponent : (2 : ℚ) ^ e ≤ 2 ^ (971 : Int) := zpow_le_zpow_right₀ (by norm_num) h.2
  exact mul_le_mul digits (exponent.trans_eq (zpow_natCast 2 971)) (zpow_nonneg (by norm_num) e)
    (by norm_num)

theorem isReal_roundWithAccuracy (s : Sign) {m : Nat} {e : Int} (accuracy : Accuracy)
    (most : e ≤ 971) (small : value m e < greatest)
    : IsReal (roundWithAccuracy Format.binary64 s m e accuracy) := by
  rcases roundWithAccuracy_fits s accuracy most small with zero | ⟨r, t, positive, fits, same⟩
  · exact .inl ⟨s, zero⟩
  · exact .inr ⟨s, r, t, positive, fits, same⟩

theorem value_shiftLeft (m k : Nat) (e : Int) : value (m <<< k) (e - k) = value m e := by
  rw [value, Nat.shiftLeft_eq, Nat.cast_mul, Nat.cast_pow, Nat.cast_ofNat,
    zpow_sub₀ (by norm_num), zpow_natCast, value, mul_assoc, mul_div_cancel₀ _ (by positivity)]

/-- The digits of a quotient give no more than the quotient. -/
theorem value_div_mul_le (m k r : Nat) (e t : Int)
    : value ((m <<< k) / r) (e - t - k) * value r t ≤ value m e := by
  have floor : ((m <<< k) / r * r : Nat) ≤ ((m <<< k : Nat) : ℚ) := by
    exact_mod_cast Nat.div_mul_le_self (m <<< k) r
  rw [← value_mul, show e - t - k + t = e - k by ring, ← value_shiftLeft m k e]
  exact mul_le_mul_of_nonneg_right floor (zpow_nonneg (by norm_num) _)

/-- A quotient by two or more is in range. -/
theorem isReal_div {dividend : Float.Model.UnpackedFloat} (h : IsReal dividend) (s : Sign) {r : Nat}
    {t : Int} (positive : 0 < r) (full : 2 ^ 52 ≤ r) (least : -51 ≤ t)
    : IsReal (UnpackedFloat.div Format.binary64 dividend (.finite s r t positive)) := by
  rcases h with ⟨s', rfl⟩ | ⟨s', m, e, some, fits, rfl⟩
  · exact .inl ⟨_, rfl⟩
  have digits : 52 ≤ r.log2 := (Nat.le_log2 positive.ne').mpr full
  have short : m.log2 < 53 := (Nat.log2_lt some.ne').mpr fits.1
  have most := fits.2
  have target : Format.binary64.targetExponent (totalExponent m e - totalExponent r t) ≤ 971 := by
    simp only [targetExponent_eq, totalExponent]
    omega
  simp only [UnpackedFloat.div, divCore]
  generalize Format.binary64.targetExponent (totalExponent m e - totalExponent r t) = u at target
  refine isReal_roundWithAccuracy _ _ (by omega) ?_
  have quotient := value_div_mul_le m (e - t - min (e - t) u).toNat r e t
  rw [show e - t - ((e - t - min (e - t) u).toNat : Int) = min (e - t) u by omega] at quotient
  generalize value (m <<< (e - t - min (e - t) u).toNat / r) (min (e - t) u) = x at quotient ⊢
  have two : 2 ≤ value r t := by
    have size : ((2 ^ 52 : Nat) : ℚ) ≤ r := by exact_mod_cast full
    have scale : (2 : ℚ) ^ (-51 : Int) ≤ 2 ^ t := zpow_le_zpow_right₀ (by norm_num) least
    calc (2 : ℚ) = (2 ^ 52 : Nat) * 2 ^ (-51 : Int) := by norm_num
      _ ≤ value r t := mul_le_mul size scale (by positivity) (Nat.cast_nonneg r)
  have top := fits.value_le
  have range : 0 < greatest := by norm_num [greatest]
  by_contra above
  nlinarith

/-- A product below the greatest double is in range. -/
theorem isReal_mul (s s' : Sign) {m r : Nat} {e t : Int} (some : 0 < m) (positive : 0 < r)
    (full : 2 ^ 52 ≤ r) (small : value m e * value r t < greatest)
    : IsReal
        (UnpackedFloat.mul Format.binary64 (.finite s m e some) (.finite s' r t positive)) := by
  rw [← value_mul] at small
  have digits : 52 ≤ (m * r).log2 :=
    (Nat.le_log2 (Nat.mul_pos some positive).ne').mpr (full.trans (Nat.le_mul_of_pos_left r some))
  have := log2_add_lt (Nat.mul_pos some positive) small
  exact isReal_roundWithAccuracy _ _ (by omega) small

-----------------------------------------------------------------------------------------
-- Whole numbers
-----------------------------------------------------------------------------------------

/-- The number that the arithmetic takes a double for. -/
def operand (d : Double) : Float.Model.UnpackedFloat :=
  (Float.ofBits d.bits).toModel.unpack

theorem operand_eq (d : Double)
    : operand d = UnpackedFloat.unpack Format.binary64
        (packed (UnpackedFloat.unpack Format.binary64 d.bits.toBitVec)).bits.toBitVec := rfl

theorem isReal_operand {d : Double} (h : d.isFinite = true) : IsReal (operand d) :=
  isReal_unpack (isFinite_packed (isReal_unpack h))

/-- A rounded number is taken for itself. -/
theorem operand_packed (s : Sign) {exact : ℚ} {r : Nat} {t : Int} (positive : 0 < r)
    (h : Rounded exact r t)
    : ∃ s', operand (packed (.finite s r t positive)) = .finite s' r t positive := by
  obtain ⟨s', same⟩ := unpack_packed s positive h.fits h.full h.least
  rw [operand_eq, same]
  exact unpack_packed s' positive h.fits h.full h.least

/-- A whole number with a factor of one is rounded once more. -/
theorem ofInt_of_lt {n : Nat} (small : n < 2 ^ 53)
    : Double.ofInt n = packed (UnpackedFloat.mul Format.binary64
        (UnpackedFloat.unpack Format.binary64
          (packed (UnpackedFloat.ofUInt64 Format.binary64 n.toUInt64)).bits.toBitVec)
        (operand ⟨0x3FF0000000000000⟩)) := by
  have fast : Float.ofScientific n false 0
      = n.toUInt64.toFloat * Float.ofBits 0x3FF0000000000000 := by
    rw [Float.ofScientific, dif_pos ⟨small, by decide⟩]
    rfl
  change Double.mk (Float.ofScientific n false 0).toBits = _
  rw [fast]
  rfl

/-- Greater numbers are scaled by a power of ten in one step. -/
theorem ofScientific_eq {n k : Nat} (positive : 0 < n) (most : k ≤ 308)
    (large : ¬ (n < 2 ^ 53 ∧ k ≤ 22))
    : Float.ofScientific n false k = Float.ofModel (Float.Model.pack
        (roundWithAccuracy Format.binary64 .positive (n <<< 53 * 10 ^ k) (-53) .exact)) := by
  have slow : Float.ofScientific n false k = Float.ofModel (Float.Model.ofScientific n k) := by
    rw [Float.ofScientific, dif_neg large]
    rfl
  have range : (2 : Int) ^ Format.binary64.exponentBits = 2048 := rfl
  rw [slow, Float.Model.ofScientific, UnpackedFloat.ofScientific, dif_neg positive.ne',
    if_neg (by omega), if_neg (by omega), if_pos (Int.natCast_nonneg k)]
  simp only [UnpackedFloat.mul, Int.toNat_natCast, Int.add_zero]
  rfl

theorem ofUInt64_eq {n : Nat} (positive : 0 < n) (small : n < 2 ^ 53)
    : UnpackedFloat.ofUInt64 Format.binary64 n.toUInt64
      = roundWithAccuracy Format.binary64 .positive (n <<< (52 - n.log2)) (0 - (52 - n.log2 : Nat))
          .exact := by
  have word : n.toUInt64.toNat = n := by
    rw [Nat.toUInt64, UInt64.toNat_ofNat']
    omega
  have order : compare (n : Int) 0 = .gt := by
    rw [compare_gt_iff_gt]
    omega
  have short : n.log2 < 53 := (Nat.log2_lt positive.ne').mpr small
  have target : Format.binary64.targetExponent (totalExponent n 0) = n.log2 - 52 := by
    simp only [targetExponent_eq, totalExponent]
    omega
  simp only [UnpackedFloat.ofUInt64, UnpackedFloat.ofNat, UnpackedFloat.ofInt,
    UnpackedFloat.normalize, word, order, UnpackedFloat.round, decreaseExponent,
    Int.toNat_natCast, target]
  rw [show ((0 : Int) - (n.log2 - 52)).toNat = 52 - n.log2 by omega]

theorem log2_shiftLeft {n : Nat} (positive : 0 < n) (k : Nat) : (n <<< k).log2 = n.log2 + k := by
  have scale := Nat.two_pow_pos k
  rw [Nat.shiftLeft_eq, Nat.log2_eq_iff (by positivity)]
  constructor
  · rw [Nat.pow_add]
    exact Nat.mul_le_mul_right _ (Nat.log2_self_le positive.ne')
  · rw [Nat.add_right_comm, Nat.pow_add]
    exact Nat.mul_lt_mul_of_pos_right Nat.lt_log2_self scale

/-- A whole number with enough digits is rounded to itself or its neighbour. -/
theorem exists_rounded {n k : Nat} (positive : 0 < n) (small : n < 2 ^ 64) (full : 52 ≤ n.log2 + k)
    : ∃ r t some, Rounded n r t
        ∧ roundWithAccuracy Format.binary64 .positive (n <<< k) (0 - k) .exact
          = .finite .positive r t some := by
  have exact : value (n <<< k) (0 - k) = n := by
    rw [value_shiftLeft, value, zpow_zero, mul_one]
  have top : (n : ℚ) < greatest :=
    lt_trans (show (n : ℚ) < 2 ^ 64 by exact_mod_cast small) (pow_lt_greatest (by decide))
  have digits := log2_shiftLeft positive k
  obtain ⟨r, t, some, rounded, -, same⟩ := roundWithAccuracy_rounded .positive .exact
    (by rwa [digits]) (by rw [digits]; omega) (exact.trans_lt top)
  exact ⟨r, t, some, exact ▸ rounded, same⟩

/-- A whole number is rounded at most twice on its way to a double. -/
theorem exists_ofInt {n : Nat} (positive : 0 < n) (small : n < 2 ^ 64)
    : ∃ s r t some, Rounded (n * (1 + 2⁻¹ ^ 52)) r t
        ∧ Double.ofInt n = packed (.finite s r t some) := by
  rcases Nat.lt_or_ge n (2 ^ 53) with fast | slow
  · obtain ⟨r, t, some, rounded, same⟩ := @exists_rounded n (52 - n.log2) positive small (by omega)
    obtain ⟨s, unpacked⟩ := unpack_packed .positive some rounded.fits rounded.full rounded.least
    have one : operand ⟨0x3FF0000000000000⟩ = .finite .positive (2 ^ 52) (-52) (by decide) := by
      rfl
    have unchanged : value (r * 2 ^ 52) (t + -52) = value r t := by
      rw [value_mul]
      norm_num [value]
    have digits : (r * 2 ^ 52).log2 = r.log2 + 52 := by
      rw [← Nat.shiftLeft_eq, log2_shiftLeft some]
    have leading : 52 ≤ r.log2 := (Nat.le_log2 some.ne').mpr rounded.full
    have least := rounded.least
    have near := rounded.near
    have top : value r t < greatest := by
      have range : (n : ℚ) < 2 ^ 64 := by exact_mod_cast small
      refine lt_of_le_of_lt near (lt_trans ?_ (pow_lt_greatest (show 65 ≤ 971 by decide)))
      linarith
    obtain ⟨r', t', some', again, -, result⟩ := @roundWithAccuracy_rounded (s * .positive)
      (r * 2 ^ 52) (t + -52) .exact (by omega) (by omega)
      (unchanged.trans_lt top)
    rw [ofInt_of_lt fast, ofUInt64_eq positive fast, same, unpacked, one]
    refine ⟨_, r', t', some', ⟨again.fits, again.full, again.least, ?_⟩, congrArg packed result⟩
    refine again.near.trans ?_
    rw [unchanged]
    exact mul_le_mul_of_nonneg_right near (by norm_num)
  · obtain ⟨r, t, some, rounded, same⟩ := @exists_rounded n 53 positive small (by omega)
    have stored : Double.ofInt n = packed (.finite .positive r t some) := by
      change Double.mk (Float.ofScientific n false 0).toBits = _
      rw [ofScientific_eq positive (by decide) (by omega), Nat.pow_zero, Nat.mul_one]
      exact congrArg packed same
    refine ⟨_, r, t, some, ⟨rounded.fits, rounded.full, rounded.least, ?_⟩, stored⟩
    refine rounded.near.trans (mul_le_mul_of_nonneg_right ?_ (by norm_num))
    exact le_mul_of_one_le_right (Nat.cast_nonneg n) (by norm_num)

-----------------------------------------------------------------------------------------
-- Powers of ten
-----------------------------------------------------------------------------------------

/-- The double nearest to a power of ten. -/
def tenTo (k : Nat) : Float.Model.UnpackedFloat :=
  (Float.ofScientific 1 false k).toModel.unpack

/-- Whether a number is no further above a power of ten than it may be rounded, and at least eight
unless the power is one.
-/
def isTenTo (k : Nat) : Float.Model.UnpackedFloat → Bool
  | .finite _ m e _ => 2 ^ 52 ≤ m && m < 2 ^ 53 && e ≤ 971 && (if k = 0 then -52 else -49) ≤ e
      && m * 2 ^ (e + 52).toNat ≤ 10 ^ k * (2 ^ 52 + 1)
  | _ => false

theorem isTenTo_tenTo : ∀ k ≤ 22, isTenTo k (tenTo k) = true := by
  decide +kernel

theorem exists_of_isTenTo {k : Nat} {power : Float.Model.UnpackedFloat}
    (checked : isTenTo k power = true)
    : ∃ s r t positive, Rounded (10 ^ k) r t ∧ (0 < k → -49 ≤ t)
        ∧ power = .finite s r t positive := by
  cases power with
  | finite s m e positive =>
      simp only [isTenTo, Bool.and_eq_true, decide_eq_true_eq] at checked
      obtain ⟨⟨⟨⟨full, short⟩, most⟩, least⟩, near⟩ := checked
      have small : -52 ≤ e := by
        split at least <;> omega
      have whole : value m e * 2 ^ 52 = (m * 2 ^ (e + 52).toNat : Nat) := by
        rw [value, mul_assoc, ← zpow_natCast (2 : ℚ) 52, ← zpow_add₀ (by norm_num), Nat.cast_mul,
          Nat.cast_pow, ← zpow_natCast, Int.toNat_of_nonneg (by omega)]
        norm_num
      have bound : value m e * 2 ^ 52 ≤ 10 ^ k * (2 ^ 52 + 1) := by
        rw [whole]
        exact_mod_cast near
      refine ⟨s, m, e, positive, ⟨⟨short, most⟩, full, by omega, ?_⟩, fun some => ?_, rfl⟩
      · linarith
      · rwa [if_neg some.ne'] at least
  | infinity | notANumber | zero => cases checked

theorem tenTo_lt {k : Nat} (h : k ≤ 308) : (10 : ℚ) ^ k < greatest := by
  have top : ((10 ^ 308 : Nat) : ℚ) < ((2 ^ 53 - 1) * 2 ^ 971 : Nat) :=
    Nat.cast_lt.mpr (by decide +kernel)
  simp only [Nat.cast_mul, Nat.cast_pow, Nat.cast_ofNat] at top
  refine lt_of_le_of_lt (pow_le_pow_right₀ (by norm_num) h) (top.trans_eq ?_)
  norm_num [greatest]

/-- Powers of ten are known up to their rounding, and from ten on they are at least eight. -/
theorem exists_tenTo {k : Nat} (h : k ≤ 308)
    : ∃ s r t positive, Rounded (10 ^ k) r t ∧ (0 < k → -49 ≤ t)
        ∧ tenTo k = .finite s r t positive := by
  rcases Nat.lt_or_ge 22 k with large | small
  · have shifted : 1 <<< 53 * 10 ^ k = 10 ^ k <<< 53 := by
      rw [Nat.shiftLeft_eq, Nat.shiftLeft_eq, Nat.one_mul, Nat.mul_comm]
    have exact : value (10 ^ k <<< 53) (-53) = 10 ^ k := by
      rw [show (-53 : Int) = 0 - (53 : Nat) by rfl, value_shiftLeft, value, zpow_zero, mul_one,
        Nat.cast_pow, Nat.cast_ofNat]
    have positive : 0 < 10 ^ k := Nat.pow_pos (by decide)
    have digits := log2_shiftLeft positive 53
    have leading : 3 ≤ (10 ^ k).log2 :=
      (Nat.le_log2 positive.ne').mpr
        ((show 2 ^ 3 ≤ 10 ^ 1 by decide).trans (Nat.pow_le_pow_right (by decide) (by omega)))
    obtain ⟨r, t, some, rounded, least, same⟩ := @roundWithAccuracy_rounded .positive
      (10 ^ k <<< 53) (-53) .exact (by omega) (by omega) (exact.trans_lt (tenTo_lt h))
    obtain ⟨s, unpacked⟩ := unpack_packed .positive some rounded.fits rounded.full rounded.least
    have power : tenTo k = .finite s r t some := by
      rw [tenTo, ofScientific_eq Nat.one_pos h (by omega), shifted, same]
      exact unpacked
    exact ⟨s, r, t, some, exact ▸ rounded, fun _ => by omega, power⟩
  · exact exists_of_isTenTo (isTenTo_tenTo k small)

-----------------------------------------------------------------------------------------
-- Scaling
-----------------------------------------------------------------------------------------

/-- A double divided by a power of ten is a real number. -/
theorem isFinite_scaleByPowerOfTen_neg {d : Double} (h : d.isFinite = true) {e : Int}
    (least : -308 ≤ e) (negative : e < 0)
    : (d.scaleByPowerOfTen e).isFinite = true := by
  obtain ⟨s, r, t, positive, rounded, small, power⟩ := @exists_tenTo e.natAbs (by omega)
  have scaled : d.scaleByPowerOfTen e
      = packed (UnpackedFloat.div Format.binary64 (operand d) (tenTo e.natAbs)) := by
    simp only [Double.scaleByPowerOfTen, if_pos negative]
    rfl
  rw [scaled, power]
  have := small (by omega)
  exact isFinite_packed (isReal_div (isReal_operand h) s positive rounded.full (by omega))

/-- What a number may be that is read without leaving the range. -/
def readable : ℚ := (2 ^ 54 - 17) * 2 ^ 970

theorem le_readable : 10 ^ 18 ≤ readable := by
  have range : (2 : ℚ) ^ 10 ≤ 2 ^ 970 := pow_le_pow_right₀ (by norm_num) (by decide)
  exact le_trans (by norm_num) (mul_le_mul_of_nonneg_left range (by norm_num))

theorem readable_lt : readable < 10 ^ 309 := by
  have powers : ((2 ^ 54 * 2 ^ 970 : Nat) : ℚ) < (10 ^ 309 : Nat) :=
    Nat.cast_lt.mpr (by decide +kernel)
  simp only [Nat.cast_mul, Nat.cast_pow, Nat.cast_ofNat] at powers
  refine lt_trans ?_ powers
  exact mul_lt_mul_of_pos_right (by norm_num) (by positivity)

/-- A whole number times a power of ten is a real number if the product is well below the greatest
double.
-/
theorem isFinite_scaleByPowerOfTen_ofInt {n e : Nat} (positive : 0 < n) (small : n < 2 ^ 64)
    (most : e ≤ 308) (product : (n : ℚ) * 10 ^ e ≤ readable)
    : ((Double.ofInt n).scaleByPowerOfTen e).isFinite = true := by
  obtain ⟨s, m, u, some, whole, stored⟩ := exists_ofInt positive small
  obtain ⟨s', same⟩ := operand_packed s some whole
  obtain ⟨s'', r, t, some', rounded, -, power⟩ := exists_tenTo most
  have scaled : (Double.ofInt n).scaleByPowerOfTen e
      = packed (UnpackedFloat.mul Format.binary64 (operand (Double.ofInt n)) (tenTo e)) := by
    simp only [Double.scaleByPowerOfTen, if_neg (Int.natCast_nonneg e).not_gt]
    rfl
  rw [scaled, power, stored, same]
  refine isFinite_packed (isReal_mul s' s'' some some' rounded.full ?_)
  calc value m u * value r t
      ≤ n * (1 + 2⁻¹ ^ 52) * (1 + 2⁻¹ ^ 52) * (10 ^ e * (1 + 2⁻¹ ^ 52)) :=
        mul_le_mul whole.near rounded.near (value_pos some' t).le (by positivity)
    _ = n * 10 ^ e * (1 + 2⁻¹ ^ 52) ^ 3 := by ring
    _ ≤ readable * (1 + 2⁻¹ ^ 52) ^ 3 :=
        mul_le_mul_of_nonneg_right product (by positivity)
    _ < greatest := by
      have range : (0 : ℚ) < 2 ^ 970 := by positivity
      rw [readable, greatest, pow_succ (2 : ℚ) 970]
      generalize (2 : ℚ) ^ 970 = top at range
      linarith

-----------------------------------------------------------------------------------------
-- Scaling by steps
-----------------------------------------------------------------------------------------

open Document.Number (scale?)

theorem isSome_scale?_of_neg {d : Double} (h : d.isFinite = true) {e : Int} (negative : e < 0)
    : (scale? d e).isSome = true := by
  fun_induction scale? d e with
  | case1 => rfl
  | case2 d e _ beyond => omega
  | case3 d e _ _ far ih =>
      exact ih (isFinite_scaleByPowerOfTen_neg h le_rfl (by decide)) (by omega)
  | case4 d e _ _ near scaled finite => rfl
  | case5 d e _ _ near scaled infinite =>
      exact absurd (isFinite_scaleByPowerOfTen_neg h (by omega) negative) infinite

/-- Whole numbers times powers of ten have a double unless the product is near the end of the range.
-/
theorem isSome_scale?_ofInt {n : Nat} (small : n < 2 ^ 64) {e : Int}
    (product : (n : ℚ) * 10 ^ e ≤ readable)
    : (scale? (.ofInt n) e).isSome = true := by
  rcases Nat.eq_zero_or_pos n with rfl | positive
  · have zero : (Double.ofInt (0 : Nat)).magnitude = 0 := by decide +kernel
    rw [scale?, if_pos zero]
    rfl
  have finite : (Double.ofInt n).isFinite = true := by
    obtain ⟨s, r, t, some, rounded, same⟩ := exists_ofInt positive small
    exact same ▸ isFinite_packed (.inr ⟨s, r, t, some, rounded.fits, rfl⟩)
  rcases Int.lt_or_le e 0 with negative | natural
  · exact isSome_scale?_of_neg finite negative
  lift e to Nat using natural
  rw [zpow_natCast] at product
  have most : e ≤ 308 := by
    by_contra beyond
    have range : (10 : ℚ) ^ 309 ≤ 10 ^ e := pow_le_pow_right₀ (by norm_num) (by omega)
    have single : (1 : ℚ) ≤ n := by exact_mod_cast positive
    have whole : (10 : ℚ) ^ e ≤ n * 10 ^ e := le_mul_of_one_le_left (by positivity) single
    exact absurd readable_lt (not_lt_of_ge (range.trans (whole.trans product)))
  have scaled := isFinite_scaleByPowerOfTen_ofInt positive small most product
  rw [scale?]
  split
  · rfl
  rw [if_neg (by omega), if_neg (by omega)]
  simp only [scaled, if_true, Option.isSome_some]

end Telemetry.Rounding
