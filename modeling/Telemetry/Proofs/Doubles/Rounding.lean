import Mathlib
import Telemetry.Double

/-! Products and quotients of doubles that stay in range. The arithmetic of doubles cuts the exact
result to 53 binary digits and rounds the last of them, which may carry once. A result below the
greatest double is therefore finite, and off by less than one unit of its last digit.
-/

namespace Telemetry.Rounding

open Float.Model Float.Model.UnpackedFloat

-----------------------------------------------------------------------------------------
-- One rounding
-----------------------------------------------------------------------------------------

/-- The greatest double. -/
def greatest : ℚ := (2 ^ 53 - 1) * 2 ^ 971

theorem mantissa_shiftRight (em : ExtendedMantissa) (places : Nat)
    : (em >>> places).mantissa = em.mantissa / 2 ^ places := by
  induction places with
  | zero => simp [HShiftRight.hShiftRight, Nat.repeat]
  | succ places ih =>
      change (em >>> places).mantissa / 2 = _
      rw [ih, Nat.div_div_eq_div_mul, Nat.pow_succ]

theorem mantissa_ofMantissaAndAccuracy (m : Nat) (accuracy : Accuracy)
    : (ExtendedMantissa.ofMantissaAndAccuracy m accuracy).mantissa = m := by
  cases accuracy with
  | exact => rfl
  | inexact order => cases order <;> rfl

theorem roundedMantissa_bounds (em : ExtendedMantissa)
    : em.mantissa ≤ em.roundedMantissa ∧ em.roundedMantissa ≤ em.mantissa + 1 := by
  obtain ⟨m, round, sticky⟩ := em
  cases round <;> cases sticky <;>
    simp [ExtendedMantissa.roundedMantissa, ExtendedMantissa.accuracy,
      Accuracy.roundToNearestEven]
  omega

/-- The exponent that a number is rounded to. -/
def unit (m : Nat) (e : Int) : Int :=
  max (m.log2 + e - 52) (-1074)

/-- The number of binary digits that are cut off. -/
def cut (m : Nat) (e : Int) : Nat :=
  (unit m e - e).toNat

theorem targetExponent_eq (total : Int)
    : Format.binary64.targetExponent total = max (total - 53) (-1074) := rfl

theorem shiftToTargetExponent_eq (m : Nat) (e : Int) (accuracy : Accuracy)
    : shiftToTargetExponent Format.binary64 m e accuracy
      = (ExtendedMantissa.ofMantissaAndAccuracy m accuracy >>> cut m e, e + cut m e) := by
  have same : Format.binary64.targetExponent (totalExponent m e) = unit m e := by
    rw [targetExponent_eq, totalExponent, unit]
    omega
  simp only [shiftToTargetExponent, shiftToExponent, same, cut]

theorem cut_quotient_lt (m : Nat) (e : Int) : m / 2 ^ cut m e < 2 ^ 53 := by
  rw [Nat.div_lt_iff_lt_mul (Nat.two_pow_pos _), ← Nat.pow_add]
  have enough : m.log2 + 1 ≤ 53 + cut m e := by
    unfold cut unit
    omega
  exact Nat.lt_log2_self.trans_le (Nat.pow_le_pow_right (by decide) enough)

/-- Digits that fit are left alone. -/
theorem shiftToTargetExponent_of_lt {m : Nat} {e : Int} (fits : m < 2 ^ 53) (least : -1074 ≤ e)
    : shiftToTargetExponent Format.binary64 m e .exact = (⟨m, false, false⟩, e) := by
  have short : m.log2 ≤ 52 := by
    rcases Nat.eq_zero_or_pos m with rfl | positive
    · decide
    · have := (Nat.log2_lt positive.ne').mpr fits
      omega
  have none : cut m e = 0 := by
    unfold cut unit
    omega
  rw [shiftToTargetExponent_eq, none]
  simp [HShiftRight.hShiftRight, Nat.repeat, ExtendedMantissa.ofMantissaAndAccuracy]

/-- One digit too many is cut off again. -/
theorem shiftToTargetExponent_carry {e : Int} (least : -1074 ≤ e)
    : shiftToTargetExponent Format.binary64 (2 ^ 53) e .exact
      = (⟨2 ^ 52, false, false⟩, e + 1) := by
  have one : cut (2 ^ 53) e = 1 := by
    simp only [cut, unit, Nat.log2_two_pow]
    omega
  rw [shiftToTargetExponent_eq, one]
  rfl

/-- Rounding cuts digits off, may go up by one unit and may then carry once. -/
theorem roundWithAccuracy_eq (s : Sign) (m : Nat) (e : Int) (accuracy : Accuracy)
    : ∃ r, m / 2 ^ cut m e ≤ r ∧ r ≤ m / 2 ^ cut m e + 1
        ∧ roundWithAccuracy Format.binary64 s m e accuracy
          = if positive : 0 < r then
              if r < 2 ^ 53 then .finite s r (e + cut m e) positive
              else .finite s (2 ^ 52) (e + cut m e + 1) (by decide)
            else .zero s := by
  have least : -1074 ≤ e + cut m e := by
    unfold cut unit
    omega
  have below := cut_quotient_lt m e
  obtain ⟨low, high⟩ := roundedMantissa_bounds
    (ExtendedMantissa.ofMantissaAndAccuracy m accuracy >>> cut m e)
  rw [mantissa_shiftRight, mantissa_ofMantissaAndAccuracy] at low high
  refine ⟨_, low, high, ?_⟩
  rw [roundWithAccuracy, shiftToTargetExponent_eq]
  dsimp only
  generalize (ExtendedMantissa.ofMantissaAndAccuracy m accuracy >>> cut m e).roundedMantissa = r
    at low high ⊢
  by_cases positive : 0 < r
  case neg =>
    obtain rfl : r = 0 := by omega
    rw [shiftToTargetExponent_of_lt (by decide) least]
    rfl
  by_cases fits : r < 2 ^ 53
  · rw [shiftToTargetExponent_of_lt fits least]
    rw [dif_neg positive.ne', dif_pos positive, if_pos fits]
  · obtain rfl : r = 2 ^ 53 := by omega
    rw [shiftToTargetExponent_carry least]
    rfl

-----------------------------------------------------------------------------------------
-- Results below the greatest double
-----------------------------------------------------------------------------------------

/-- The real number that digits and an exponent stand for. -/
def value (m : Nat) (e : Int) : ℚ := m * 2 ^ e

theorem greatest_le : greatest ≤ 2 ^ (1024 : Int) := by
  calc greatest ≤ 2 ^ 53 * 2 ^ 971 := by
        unfold greatest
        gcongr
        norm_num
    _ = 2 ^ (1024 : Int) := by
        rw [← pow_add]
        exact (zpow_natCast 2 1024).symm

theorem pow_log2_le_value {m : Nat} (positive : 0 < m) (e : Int)
    : (2 : ℚ) ^ (m.log2 + e) ≤ value m e := by
  have low : ((2 ^ m.log2 : Nat) : ℚ) ≤ m := by exact_mod_cast Nat.log2_self_le positive.ne'
  rw [zpow_add₀ (by norm_num), zpow_natCast, value]
  exact mul_le_mul_of_nonneg_right (by exact_mod_cast low) (zpow_nonneg (by norm_num) e)

/-- Cutting digits off makes a number no greater. -/
theorem value_cut_le (m : Nat) (e : Int)
    : value (m / 2 ^ cut m e) (e + cut m e) ≤ value m e := by
  have floor : (((m / 2 ^ cut m e) * 2 ^ cut m e : Nat) : ℚ) ≤ m := by
    exact_mod_cast Nat.div_mul_le_self m (2 ^ cut m e)
  have grid : value (m / 2 ^ cut m e) (e + cut m e)
      = ((m / 2 ^ cut m e) * 2 ^ cut m e : Nat) * 2 ^ e := by
    rw [value, zpow_add₀ (by norm_num), zpow_natCast]
    push_cast
    ring
  rw [grid]
  exact mul_le_mul_of_nonneg_right floor (zpow_nonneg (by norm_num) e)

theorem pow_lt_greatest {k : Nat} (h : k ≤ 971) : (2 : ℚ) ^ k < greatest := by
  have range : (2 : ℚ) ^ k ≤ 2 ^ 971 := pow_le_pow_right₀ (by norm_num) h
  have positive : (0 : ℚ) < 2 ^ 971 := by positivity
  unfold greatest
  generalize (2 : ℚ) ^ 971 = top at range positive
  linarith

theorem log2_add_lt {m : Nat} {e : Int} (positive : 0 < m) (small : value m e < greatest)
    : m.log2 + e < 1024 := by
  have top : (2 : ℚ) ^ (m.log2 + e) < 2 ^ (1024 : Int) :=
    (pow_log2_le_value positive e).trans_lt (small.trans_le greatest_le)
  exact (zpow_lt_zpow_iff_right₀ (by norm_num)).mp top

theorem unit_le {m : Nat} {e : Int} (most : e ≤ 971) (small : value m e < greatest)
    : unit m e ≤ 971 := by
  unfold unit
  rcases Nat.eq_zero_or_pos m with rfl | positive
  · simp only [Nat.log2_zero]
    omega
  · have := log2_add_lt positive small
    omega

/-- The greatest digits and exponent are only reached from the greatest double on. -/
theorem cut_lt_of_carry {m : Nat} {e : Int} (top : e + cut m e ≤ 971) (small : value m e < greatest)
    (carry : 2 ^ 53 ≤ m / 2 ^ cut m e + 1)
    : e + cut m e < 971 := by
  refine lt_of_le_of_ne top fun most => ?_
  have digits : m / 2 ^ cut m e = 2 ^ 53 - 1 := by
    have := cut_quotient_lt m e
    omega
  have reached := value_cut_le m e
  rw [digits, most] at reached
  refine absurd (small.trans_le' reached) (not_lt_of_ge ?_)
  norm_num [greatest, value]

/-- The digits of a finite double, and its exponent, are not too great. -/
def Fits (r : Nat) (t : Int) : Prop :=
  r < 2 ^ 53 ∧ t ≤ 971

/-- A rounded result is in range if the exact one is. -/
theorem roundWithAccuracy_fits (s : Sign) {m : Nat} {e : Int} (accuracy : Accuracy)
    (most : e ≤ 971) (small : value m e < greatest)
    : roundWithAccuracy Format.binary64 s m e accuracy = .zero s
      ∨ ∃ r t positive, Fits r t
        ∧ roundWithAccuracy Format.binary64 s m e accuracy = .finite s r t positive := by
  obtain ⟨r, -, high, rounded⟩ := roundWithAccuracy_eq s m e accuracy
  have range := unit_le most small
  have shifted : e + cut m e = max e (unit m e) := by
    unfold cut
    omega
  rw [rounded]
  split
  · next positive =>
    right
    split
    · next fits => exact ⟨r, _, positive, ⟨fits, by omega⟩, rfl⟩
    · next beyond =>
      have := cut_lt_of_carry (by omega) small (by omega)
      exact ⟨2 ^ 52, _, by decide, ⟨by decide, by omega⟩, rfl⟩
  · exact .inl rfl

/-- What is known of a number that was rounded from a greater one: it has all 53 digits. -/
structure Rounded (exact : ℚ) (r : Nat) (t : Int) : Prop where
  fits : Fits r t
  full : 2 ^ 52 ≤ r
  least : -1074 ≤ t
  near : value r t ≤ exact * (1 + 2⁻¹ ^ 52)

/-- With 53 digits left, one more of the last digit is a small part of a number. -/
theorem value_cut_succ_le {m : Nat} {e : Int} (positive : 0 < m) (places : m.log2 = cut m e + 52)
    : value (m / 2 ^ cut m e + 1) (e + cut m e) ≤ value m e * (1 + 2⁻¹ ^ 52) := by
  have whole := value_cut_le m e
  have one : (2 : ℚ) ^ (e + cut m e) ≤ value m e * 2⁻¹ ^ 52 := by
    have := pow_log2_le_value positive e
    rw [show (m.log2 : Int) + e = (e + cut m e) + (52 : Nat) by omega,
      zpow_add₀ (by norm_num), zpow_natCast] at this
    rw [inv_pow, ← div_eq_mul_inv, le_div_iff₀ (by norm_num)]
    exact this
  have split : value (m / 2 ^ cut m e + 1) (e + cut m e)
      = value (m / 2 ^ cut m e) (e + cut m e) + 2 ^ (e + cut m e) := by
    simp only [value, Nat.cast_succ]
    ring
  rw [split]
  linarith

/-- A number that is not too small keeps all its leading digits. -/
theorem roundWithAccuracy_rounded (s : Sign) {m : Nat} {e : Int} (accuracy : Accuracy)
    (full : 52 ≤ m.log2) (large : -1022 ≤ m.log2 + e) (small : value m e < greatest)
    : ∃ r t positive, Rounded (value m e) r t ∧ m.log2 + e - 52 ≤ t
        ∧ roundWithAccuracy Format.binary64 s m e accuracy = .finite s r t positive := by
  obtain ⟨r, low, high, rounded⟩ := roundWithAccuracy_eq s m e accuracy
  have positive : 0 < m := by
    rcases Nat.eq_zero_or_pos m with rfl | positive
    · simp at full
    · exact positive
  have shifted : e + cut m e = m.log2 + e - 52 := by
    unfold cut unit
    omega
  have places : m.log2 = cut m e + 52 := by omega
  have top := log2_add_lt positive small
  have digits : 2 ^ 52 ≤ m / 2 ^ cut m e := by
    rw [Nat.le_div_iff_mul_le (Nat.two_pow_pos _), ← Nat.pow_add, Nat.add_comm, ← places]
    exact Nat.log2_self_le positive.ne'
  have above := value_cut_succ_le (e := e) positive places
  have near : value r (e + cut m e) ≤ value m e * (1 + 2⁻¹ ^ 52) := by
    refine le_trans ?_ above
    exact mul_le_mul_of_nonneg_right (by exact_mod_cast high) (zpow_nonneg (by norm_num) _)
  have some : 0 < r := by omega
  rw [rounded, dif_pos some]
  split
  · next fits => exact ⟨r, _, some, ⟨⟨fits, by omega⟩, by omega, by omega, near⟩, by omega, rfl⟩
  · next beyond =>
    have below := cut_quotient_lt m e
    obtain rfl : r = 2 ^ 53 := by omega
    have carried : value (2 ^ 52) (e + cut m e + 1) = value (2 ^ 53) (e + cut m e) := by
      rw [value, zpow_add₀ (by norm_num), value]
      push_cast
      ring
    have range := cut_lt_of_carry (by omega) small (by omega)
    exact ⟨2 ^ 52, _, by decide, ⟨⟨by decide, range⟩, le_rfl, by omega, carried ▸ near⟩, by omega,
      rfl⟩

end Telemetry.Rounding
