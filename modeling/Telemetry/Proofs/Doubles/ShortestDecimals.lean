import Mathlib.Data.Nat.Cast.Order.Field
import Mathlib.Tactic.IntervalCases
import Telemetry.Proofs.Doubles.Scaling
import Telemetry.Text.Decimal

/-! The decimal that is written for a double. The reals that round to a double reach further from it
than half a step of the grid with seventeen digits, so that one of the grids has a decimal among
them. What is written is therefore a number with at most seventeen digits and no further above the
double than the double is from the next.
-/

namespace Telemetry.Text.Decimal

open Rounding (value)

-----------------------------------------------------------------------------------------
-- Fractions
-----------------------------------------------------------------------------------------

theorem zpow_of_neg (base : ℚ) {e : Int} (negative : e < 0) : base ^ e = (base ^ e.natAbs)⁻¹ := by
  rw [← zpow_natCast, ← zpow_neg]
  congr 1
  omega

theorem zpow_of_nonneg (base : ℚ) {e : Int} (natural : 0 ≤ e) : base ^ e = base ^ e.natAbs := by
  rw [← zpow_natCast]
  congr 1
  omega

/-- Some digits times a power of a base, as a fraction. -/
theorem fraction_div (digits base : Nat) (e : Int) {fraction : Nat × Nat}
    (h : fraction = if e < 0 then (digits, base ^ e.natAbs) else (digits * base ^ e.natAbs, 1))
    : (fraction.1 / fraction.2 : ℚ) = digits * base ^ e := by
  subst h
  split
  · next negative => rw [zpow_of_neg _ negative, Nat.cast_pow, div_eq_mul_inv]
  · next natural =>
    rw [zpow_of_nonneg _ (not_lt.mp natural), Nat.cast_mul, Nat.cast_pow, Nat.cast_one, div_one]

-----------------------------------------------------------------------------------------
-- Leading digits
-----------------------------------------------------------------------------------------

theorem lt_pow_width (n : Nat) : n < 10 ^ width n :=
  (Nat.length_toDigits_le_iff (by decide) Nat.length_toDigits_pos).mp le_rfl

theorem pow_width_le {n : Nat} (positive : 0 < n) : 10 ^ (width n - 1) ≤ n := by
  rcases Nat.eq_zero_or_pos (width n - 1) with single | more
  · rw [single]
    exact positive
  · by_contra small
    have := (Nat.length_toDigits_le_iff (by decide) more).mpr (Nat.lt_of_not_ge small)
    have : width n ≤ width n - 1 := this
    omega

theorem width_pos (n : Nat) : 0 < width n := Nat.length_toDigits_pos

theorem inUnits_pos {numerator denominator : Nat} (positive : 0 < denominator) (e : Int)
    : 0 < (inUnits numerator denominator e).2 := by
  unfold inUnits
  split <;> positivity

theorem inUnits_div (numerator denominator : Nat) (e : Int)
    : ((inUnits numerator denominator e).1 / (inUnits numerator denominator e).2 : ℚ)
      = numerator / denominator / 10 ^ e := by
  unfold inUnits
  split
  · next negative =>
    rw [zpow_of_neg _ negative]
    push_cast
    rw [div_inv_eq_mul, mul_div_right_comm]
  · next natural =>
    rw [zpow_of_nonneg _ (not_lt.mp natural)]
    push_cast
    rw [div_div]

theorem one_le_inUnits_iff {numerator denominator : Nat} (positive : 0 < denominator) (e : Int)
    : (inUnits numerator denominator e).2 ≤ (inUnits numerator denominator e).1
      ↔ (10 : ℚ) ^ e ≤ numerator / denominator := by
  have bottom : (0 : ℚ) < (inUnits numerator denominator e).2 := by
    exact_mod_cast inUnits_pos positive e
  have unit : (0 : ℚ) < 10 ^ e := zpow_pos (by norm_num) e
  rw [← one_le_div unit, ← inUnits_div, one_le_div bottom, Nat.cast_le]

/-- The leading digit of a fraction stands at its leading exponent. -/
theorem leadingExponent_bounds {numerator denominator : Nat} (some : 0 < numerator)
    (positive : 0 < denominator)
    : (10 : ℚ) ^ leadingExponent numerator denominator ≤ numerator / denominator
      ∧ (numerator / denominator : ℚ) < 10 ^ (leadingExponent numerator denominator + 1) := by
  have bottom : (0 : ℚ) < denominator := by exact_mod_cast positive
  have widths := width_pos numerator
  have widths' := width_pos denominator
  have low : (10 : ℚ) ^ ((width numerator : Int) - width denominator - 1)
      ≤ numerator / denominator := by
    have top : ((10 ^ (width numerator - 1) : Nat) : ℚ) ≤ numerator := by
      exact_mod_cast pow_width_le some
    have below : (denominator : ℚ) ≤ (10 ^ width denominator : Nat) := by
      exact_mod_cast (lt_pow_width denominator).le
    rw [show (width numerator : Int) - width denominator - 1
      = (width numerator - 1 : Nat) - (width denominator : Nat) by omega, zpow_sub₀ (by norm_num),
      zpow_natCast, zpow_natCast]
    push_cast at top below
    exact div_le_div₀ (Nat.cast_nonneg _) top bottom below
  have high : (numerator / denominator : ℚ)
      < 10 ^ ((width numerator : Int) - width denominator + 1) := by
    have top : (numerator : ℚ) < (10 ^ width numerator : Nat) := by
      exact_mod_cast lt_pow_width numerator
    have below : ((10 ^ (width denominator - 1) : Nat) : ℚ) ≤ denominator := by
      exact_mod_cast pow_width_le positive
    rw [show (width numerator : Int) - width denominator + 1
      = (width numerator : Nat) - (width denominator - 1 : Nat) by omega, zpow_sub₀ (by norm_num),
      zpow_natCast, zpow_natCast]
    push_cast at top below
    exact div_lt_div₀ top below (by positivity) (by positivity)
  unfold leadingExponent
  dsimp only
  split
  · next reached => exact ⟨(one_le_inUnits_iff positive _).mp reached, high⟩
  · next short =>
    rw [one_le_inUnits_iff positive, not_le] at short
    exact ⟨low, by rwa [Int.sub_add_cancel]⟩

-----------------------------------------------------------------------------------------
-- One grid
-----------------------------------------------------------------------------------------

/-- The number that a decimal stands for. -/
def real (decimal : Decimal) : ℚ := decimal.digits * 10 ^ decimal.exponent

/-- Whether a decimal lies between two fractions is decided over a common denominator. -/
theorem liesBetween_iff {low high denominator : Nat} (positive : 0 < denominator)
    {withEnds : Bool} {decimal : Decimal}
    : liesBetween low high denominator withEnds decimal = true
      ↔ if withEnds then (low / denominator : ℚ) ≤ decimal.real ∧ decimal.real ≤ high / denominator
        else (low / denominator : ℚ) < decimal.real ∧ decimal.real < high / denominator := by
  have size : (0 : ℚ) < denominator := by exact_mod_cast positive
  unfold liesBetween
  generalize parts : (if decimal.exponent < 0 then
      (decimal.digits, 10 ^ decimal.exponent.natAbs)
    else (decimal.digits * 10 ^ decimal.exponent.natAbs, 1)) = fraction
  have some : (0 : ℚ) < fraction.2 := by
    rw [← parts]
    split <;> norm_num
  have split : decimal.real = fraction.1 / fraction.2 := by
    rw [fraction_div decimal.digits 10 decimal.exponent parts.symm]
    rfl
  rw [split]
  cases withEnds <;>
    simp only [Bool.false_eq_true, if_true, if_false, Bool.and_eq_true, decide_eq_true_eq,
      div_le_div_iff₀ size some, div_le_div_iff₀ some size, div_lt_div_iff₀ size some,
      div_lt_div_iff₀ some size] <;>
    norm_cast

variable {tie : Tie} {numerator denominator low high : Nat} {withEnds : Bool} {e : Int}

/-- A decimal of a grid is one of the two around the fraction, and no greater than the upper end. -/
theorem of_onGrid {decimal : Decimal} (positive : 0 < denominator)
    (h : onGrid tie numerator denominator low high withEnds e = some decimal)
    : decimal.exponent = e ∧ 0 < decimal.digits
      ∧ (decimal.digits : ℚ) ≤ numerator / denominator / 10 ^ e + 1
      ∧ decimal.real ≤ high / denominator := by
  unfold onGrid at h
  dsimp only at h
  have accepted := List.find?_some h
  have near := List.mem_of_find?_eq_some h
  rw [Bool.and_eq_true, bne_iff_ne, liesBetween_iff positive] at accepted
  obtain ⟨digits, between⟩ := accepted
  have upper : decimal.real ≤ high / denominator := by
    split at between
    · exact between.2
    · exact between.2.le
  have floor : ((inUnits numerator denominator e).1 / (inUnits numerator denominator e).2 : Nat)
      ≤ (numerator / denominator / 10 ^ e : ℚ) := by
    rw [← inUnits_div]
    exact Nat.cast_div_le
  obtain ⟨count, member, rfl⟩ := List.mem_map.mp near
  refine ⟨rfl, Nat.pos_of_ne_zero digits, ?_, upper⟩
  have next : count
      ≤ (inUnits numerator denominator e).1 / (inUnits numerator denominator e).2 + 1 := by
    split at member <;> simp only [List.mem_cons, List.not_mem_nil, or_false] at member <;> omega
  have : (count : ℚ) ≤ ((inUnits numerator denominator e).1 / (inUnits numerator denominator e).2
      : Nat) + 1 := by exact_mod_cast next
  linarith

/-- A decimal no further than half a step from the fraction reads back, if the reals that do reach
that far both ways.
-/
theorem isAccepted (withEnds : Bool) (positive : 0 < denominator) {count : Nat} (some : 0 < count)
    (far : (count - numerator / denominator / 10 ^ e : ℚ) ≤ 1 / 2)
    (near : (numerator / denominator / 10 ^ e - count : ℚ) ≤ 1 / 2)
    (above : (low / denominator : ℚ) < numerator / denominator - 10 ^ e / 2)
    (below : (numerator / denominator + 10 ^ e / 2 : ℚ) < high / denominator)
    : ((Decimal.mk count e).digits != 0
        && liesBetween low high denominator withEnds ⟨count, e⟩) = true := by
  have step : (0 : ℚ) < 10 ^ e := zpow_pos (by norm_num) e
  have point : real ⟨count, e⟩ = count * 10 ^ e := rfl
  have whole : (numerator / denominator : ℚ) = numerator / denominator / 10 ^ e * 10 ^ e :=
    (div_mul_cancel₀ _ step.ne').symm
  have floor : (low / denominator : ℚ) < real ⟨count, e⟩ := by
    rw [whole] at above
    nlinarith
  have ceiling : real ⟨count, e⟩ < high / denominator := by
    rw [whole] at below
    nlinarith
  rw [Bool.and_eq_true, bne_iff_ne, liesBetween_iff positive]
  refine ⟨some.ne', ?_⟩
  split
  · exact ⟨floor.le, ceiling.le⟩
  · exact ⟨floor, ceiling⟩

/-- A grid has a decimal if the reals that read back reach half a step of it both ways. -/
theorem exists_onGrid (tie : Tie) (withEnds : Bool) (positive : 0 < denominator)
    (large : (10 : ℚ) ^ e ≤ numerator / denominator)
    (above : (low / denominator : ℚ) < numerator / denominator - 10 ^ e / 2)
    (below : (numerator / denominator + 10 ^ e / 2 : ℚ) < high / denominator)
    : ∃ decimal, onGrid tie numerator denominator low high withEnds e = some decimal := by
  have bottom := @inUnits_pos numerator _ positive e
  have enough := (one_le_inUnits_iff positive e).mpr large
  have split := inUnits_div numerator denominator e
  unfold onGrid
  dsimp only
  generalize (inUnits numerator denominator e).1 = t at *
  generalize (inUnits numerator denominator e).2 = b at *
  have first : 0 < t / b := Nat.div_pos enough bottom
  have size : (0 : ℚ) < b := by exact_mod_cast bottom
  have parts : (numerator / denominator / 10 ^ e : ℚ) = (t / b : Nat) + (t % b : Nat) / b := by
    rw [← split, div_eq_iff size.ne', add_mul, div_mul_cancel₀ _ size.ne']
    exact_mod_cast (Nat.div_add_mod' t b).symm
  have rest : ((t % b : Nat) / b : ℚ) < 1 := by
    rw [div_lt_one size]
    exact_mod_cast Nat.mod_lt t bottom
  have least : (0 : ℚ) ≤ (t % b : Nat) / b := by positivity
  split
  · next prefers =>
    have half : (1 / 2 : ℚ) ≤ (t % b : Nat) / b := by
      have : b ≤ 2 * (t % b) := by
        simp only [Bool.or_eq_true, decide_eq_true_eq, Bool.and_eq_true, beq_iff_eq] at prefers
        omega
      rw [div_le_div_iff₀ (by norm_num) size]
      exact_mod_cast (by omega)
    refine ⟨⟨t / b + 1, e⟩, List.find?_cons_of_pos
      (isAccepted withEnds positive (by omega) ?_ ?_ above below)⟩ <;>
      · rw [parts, Nat.cast_succ]
        linarith
  · next stays =>
    have half : ((t % b : Nat) / b : ℚ) ≤ 1 / 2 := by
      have : 2 * (t % b) ≤ b := by
        simp only [Bool.or_eq_true, decide_eq_true_eq, Bool.and_eq_true, beq_iff_eq] at stays
        omega
      rw [div_le_div_iff₀ size (by norm_num)]
      exact_mod_cast (by omega)
    refine ⟨⟨t / b, e⟩, List.find?_cons_of_pos
      (isAccepted withEnds positive first ?_ ?_ above below)⟩ <;>
      · rw [parts]
        linarith

-----------------------------------------------------------------------------------------
-- The shortest decimal
-----------------------------------------------------------------------------------------

theorem binaryFraction_pos (factor : Nat) (e : Int) : 0 < (binaryFraction factor e).2 := by
  unfold binaryFraction
  split <;> positivity

theorem binaryFraction_snd (factor other : Nat) (e : Int)
    : (binaryFraction factor e).2 = (binaryFraction other e).2 := by
  unfold binaryFraction
  split <;> rfl

theorem binaryFraction_div (factor : Nat) (e : Int)
    : ((binaryFraction factor e).1 / (binaryFraction factor e).2 : ℚ) = value factor e :=
  fraction_div factor 2 e rfl

/-- What is known of the decimal of a double: it has at most seventeen digits, or is a power of ten,
and is not above the middle between the double and the next.
-/
structure Shortens (decimal : Decimal) (d : Double) : Prop where
  pos : 0 < decimal.digits
  short : decimal.digits ≤ 10 ^ 17
  near : decimal.real ≤ value (4 * d.significand + 2) (d.exponent - 2)

/-- Half a step of the grid with seventeen digits is less than the way to the reals that round to
another double, which is shorter below a power of two.
-/
theorem half_step_lt {m gap : Nat} {q lead : Int} (wide : 2 * m < gap * 10 ^ 16)
    (leading : (10 : ℚ) ^ lead ≤ value (4 * m) q)
    : (10 : ℚ) ^ (lead - (16 : Nat)) / 2 < gap * 2 ^ q := by
  have unit : (0 : ℚ) < 2 ^ q := zpow_pos (by norm_num) q
  have reach : (2 * m : ℚ) < gap * 10 ^ 16 := by exact_mod_cast wide
  rw [zpow_sub₀ (by norm_num), zpow_natCast, div_div, div_lt_iff₀ (by norm_num)]
  refine leading.trans_lt ?_
  rw [value]
  push_cast
  nlinarith

/-- The grid with seventeen digits has a decimal. -/
theorem exists_onLastGrid (tie : Tie) (withEnds : Bool) {m gap : Nat} {q lead : Int}
    (even : 2 * m < 2 * 10 ^ 16) (wide : 2 * m < gap * 10 ^ 16) (inside : gap ≤ 4 * m)
    (leading : (10 : ℚ) ^ lead ≤ value (4 * m) q)
    : ∃ decimal, onGrid tie (binaryFraction (4 * m) q).1 (binaryFraction (4 * m) q).2
        (binaryFraction (4 * m - gap) q).1 (binaryFraction (4 * m + 2) q).1 withEnds
        (lead - (16 : Nat)) = some decimal := by
  have lower := binaryFraction_div (4 * m - gap) q
  have upper := binaryFraction_div (4 * m + 2) q
  rw [binaryFraction_snd _ (4 * m)] at lower upper
  refine exists_onGrid tie withEnds (binaryFraction_pos _ q) ?_ ?_ ?_
  · rw [binaryFraction_div]
    exact le_trans (zpow_le_zpow_right₀ (by norm_num) (by omega)) leading
  · rw [lower, binaryFraction_div, value, Nat.cast_sub inside, sub_mul]
    exact sub_lt_sub_left (half_step_lt wide leading) _
  · rw [upper, binaryFraction_div, value, value, Nat.cast_add, add_mul]
    exact add_lt_add_right (half_step_lt even leading) _

theorem shortens_shortest (tie : Tie) {d : Double} (some : 0 < d.significand)
    (short : d.significand < 2 ^ 53)
    : Shortens (shortest tie d) d := by
  have positive := binaryFraction_pos (4 * d.significand) (d.exponent - 2)
  have centre := binaryFraction_div (4 * d.significand) (d.exponent - 2)
  have upper := binaryFraction_div (4 * d.significand + 2) (d.exponent - 2)
  rw [binaryFraction_snd _ (4 * d.significand)] at upper
  have numerator : 0 < (binaryFraction (4 * d.significand) (d.exponent - 2)).1 := by
    refine Nat.pos_of_ne_zero fun zero => ?_
    have size := Rounding.value_pos (show 0 < 4 * d.significand by omega) (d.exponent - 2)
    rw [zero, Nat.cast_zero, zero_div] at centre
    exact size.ne centre
  obtain ⟨least, most⟩ := leadingExponent_bounds numerator positive
  have even : 2 * d.significand < 2 * 10 ^ 16 := by omega
  unfold shortest
  dsimp only
  generalize leadingExponent _ _ = lead at *
  generalize quarter : d.exponent - 2 = q at *
  generalize reach : (if (d.significand == 2 ^ 52 && decide (-1074 < d.exponent)) = true
    then 1 else 2) = gap
  have wide : 2 * d.significand < gap * 10 ^ 16 ∧ gap ≤ 4 * d.significand := by
    split at reach
    · next power =>
      simp only [Bool.and_eq_true, beq_iff_eq] at power
      omega
    · omega
  have found := exists_onLastGrid tie (d.significand % 2 == 0) even wide.1 wide.2
    (centre ▸ least)
  generalize search : List.findSome? _ (List.range 17) = result
  cases result with
  | none =>
      obtain ⟨decimal, last⟩ := found
      have none := List.findSome?_eq_none_iff.mp search 16 (List.mem_range.mpr (by decide))
      exact absurd (none.symm.trans last) (by simp)
  | some decimal =>
      obtain ⟨places, member, grid⟩ := List.exists_of_findSome?_eq_some search
      obtain ⟨exponent, pos, digits, near⟩ := of_onGrid positive grid
      refine ⟨pos, ?_, quarter ▸ near.trans_eq upper⟩
      have step : (0 : ℚ) < 10 ^ (lead - places) := zpow_pos (by norm_num) _
      have range : ((binaryFraction (4 * d.significand) q).1
          / (binaryFraction (4 * d.significand) q).2 / 10 ^ (lead - places) : ℚ) < 10 ^ 17 := by
        have inRange := List.mem_range.mp member
        rw [div_lt_iff₀ step, ← zpow_natCast, ← zpow_add₀ (by norm_num)]
        exact most.trans_le (zpow_le_zpow_right₀ (by norm_num) (by omega))
      have : (decimal.digits : ℚ) < (10 ^ 17 + 1 : Nat) := by
        push_cast
        linarith
      exact Nat.lt_succ_iff.mp (by exact_mod_cast this)

-----------------------------------------------------------------------------------------
-- Trailing zeros
-----------------------------------------------------------------------------------------

theorem pow_trailing_dvd (n : Nat)
    : 10 ^ ((Nat.toDigits 10 n).reverse.takeWhile (· == '0')).length ∣ n := by
  induction n using Nat.strongRecOn with
  | ind n ih =>
      rw [Nat.toDigits_eq_if (by decide)]
      split
      · next single => interval_cases n <;> decide
      · next more =>
        rw [List.reverse_append, List.reverse_singleton, List.singleton_append,
          List.takeWhile_cons]
        split
        · next zero =>
          obtain ⟨rest, divides⟩ := ih (n / 10) (by omega)
          have ends : n % 10 = 0 := by
            have digit := Nat.mod_lt n (show 10 > 0 by decide)
            generalize n % 10 = last at zero digit
            interval_cases last
            · rfl
            all_goals cases zero
          rw [List.length_cons, Nat.pow_succ]
          exact ⟨rest, by rw [Nat.mul_right_comm, ← divides]; omega⟩
        · exact Nat.one_dvd n

/-- Trailing zeros are kept in the exponent. -/
theorem real_trim (decimal : Decimal) : decimal.trim.real = decimal.real := by
  obtain ⟨digits, exponent⟩ := decimal
  have divides := pow_trailing_dvd digits
  unfold trim real
  dsimp only
  generalize ((Nat.toDigits 10 digits).reverse.takeWhile (· == '0')).length = zeros at divides ⊢
  obtain ⟨rest, rfl⟩ := divides
  rw [Nat.mul_div_cancel_left _ (by positivity), zpow_add₀ (by norm_num), zpow_natCast]
  push_cast
  ring

theorem Shortens.trim {decimal : Decimal} {d : Double} (h : decimal.Shortens d)
    : decimal.trim.Shortens d := by
  refine ⟨?_, (Nat.div_le_self _ _).trans h.short, (real_trim decimal).trans_le h.near⟩
  exact Nat.div_pos (Nat.le_of_dvd h.pos (pow_trailing_dvd _)) (by positivity)

-----------------------------------------------------------------------------------------
-- Reading a decimal back
-----------------------------------------------------------------------------------------

open Document.Number (scale?)

theorem value_mono {m m' : Nat} {e e' : Int} (digits : m ≤ m') (exponent : e ≤ e')
    : value m e ≤ value m' e' :=
  mul_le_mul (by exact_mod_cast digits) (zpow_le_zpow_right₀ (by norm_num) exponent)
    (zpow_nonneg (by norm_num) e) (Nat.cast_nonneg m')

/-- The last doubles are so close to the end of the range that their decimals are read one by one.
-/
theorem isFinite_last : ∀ place < 8,
    let decimal := (shortest .toEven ⟨UInt64.ofNat (Double.infiniteMagnitude - 8 + place)⟩).trim
    (0 ≤ decimal.exponent ∧ decimal.exponent ≤ 308)
      ∧ ((Double.ofInt decimal.digits).scaleByPowerOfTen decimal.exponent).isFinite = true := by
  decide +kernel

theorem significand_lt (d : Double) : d.significand < 2 ^ 53 := by
  unfold Double.significand
  split <;> omega

theorem significand_pos {d : Double} (some : d.magnitude ≠ 0) : 0 < d.significand := by
  unfold Double.significand
  split <;> omega

/-- Below the last doubles, what is written is well inside the range. -/
theorem real_le_readable {d : Double} (below : d.magnitude < Double.infiniteMagnitude - 8)
    {decimal : Decimal} (h : decimal.Shortens d)
    : decimal.real ≤ Rounding.readable := by
  have exact : value (2 ^ 54 - 17) 970 = Rounding.readable := by
    norm_num [value, Rounding.readable]
  have whole : value (2 * (2 ^ 54 - 17)) 969 = Rounding.readable :=
    (Rounding.value_shiftLeft (2 ^ 54 - 17) 1 970).trans exact
  have half : value (4 * (2 ^ 54 - 17)) 968 = Rounding.readable :=
    (Rounding.value_shiftLeft (2 ^ 54 - 17) 2 970).trans exact
  have short := significand_lt d
  have exponent : d.exponent = (Max.max (d.magnitude / 2 ^ 52) 1 : Nat) - 1075 := rfl
  have inside : d.magnitude < 2047 * 2 ^ 52 - 8 := below
  refine h.near.trans ?_
  rcases Nat.lt_or_ge (d.magnitude / 2 ^ 52) 2046 with lower | last
  · exact (value_mono (by omega) (by omega)).trans_eq half
  · have digits : d.significand ≤ 2 ^ 53 - 9 := by
      unfold Double.significand
      split <;> omega
    exact (value_mono (by omega) (by omega)).trans_eq whole

/-- The sign of a double has no part in its decimal. -/
theorem shortest_congr (tie : Tie) {d d' : Double} (same : d.magnitude = d'.magnitude)
    : shortest tie d = shortest tie d' := by
  have digits : d.significand = d'.significand := by
    unfold Double.significand
    rw [same]
  have exponent : d.exponent = d'.exponent := by
    unfold Double.exponent
    rw [same]
  unfold shortest
  rw [digits, exponent]

/-- The decimal that is written for a double is read as a double. -/
theorem isSome_scale?_shortest {d : Double} (finite : d.isFinite = true) (some : d.magnitude ≠ 0)
    : (scale? (.ofInt (shortest .toEven d).trim.digits) (shortest .toEven d).trim.exponent).isSome
      = true := by
  have shortens := (shortens_shortest .toEven (significand_pos some) (significand_lt d)).trim
  rcases Nat.lt_or_ge d.magnitude (Double.infiniteMagnitude - 8) with below | last
  · exact Rounding.isSome_scale?_ofInt (shortens.short.trans_lt (by decide))
      (real_le_readable below shortens)
  have inside : d.magnitude < Double.infiniteMagnitude := of_decide_eq_true finite
  obtain ⟨place, few, same⟩ : ∃ place < 8, d.magnitude = Double.infiniteMagnitude - 8 + place :=
    ⟨d.magnitude - (Double.infiniteMagnitude - 8), by omega, by omega⟩
  obtain ⟨⟨natural, most⟩, scaled⟩ := isFinite_last place few
  have unsigned : shortest .toEven d
      = shortest .toEven ⟨UInt64.ofNat (Double.infiniteMagnitude - 8 + place)⟩ := by
    refine shortest_congr .toEven ?_
    rw [same, Double.magnitude, UInt64.toNat_ofNat']
    unfold Double.infiniteMagnitude at *
    omega
  rw [unsigned, scale?]
  split
  · rfl
  rw [if_neg (by omega), if_neg (by omega)]
  simp only [scaled, if_true, Option.isSome_some]

end Telemetry.Text.Decimal
