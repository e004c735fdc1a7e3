import Mathlib.Algebra.Order.Field.Basic
import Mathlib.Algebra.Order.Field.Power
import Mathlib.Algebra.Order.Ring.Rat
import Mathlib.Tactic.Ring
import Packrat.Proofs.DoubleDecimals

/-!
# The range of doubles

The greatest finite double is `2 ^ 971` times the greatest whole number of 53 bits.  What lies
halfway between it and the next power of two, or beyond, is nearest to infinity.  A decimal
therefore denotes a finite double exactly if its value lies below this limit.
-/

namespace Packrat.Double

/-- The least magnitude that is rounded to infinity. -/
def overflowLimit : Nat := (2 ^ 54 - 1) * 2 ^ 970

section NearestWhole

variable {numerator denominator whole : Nat}

/-- A quotient is rounded down, rounded up, or rounded from halfway to an even number. -/
theorem nearestWhole_cases (numerator denominator : Nat) :
    (2 * (numerator % denominator) < denominator ∧
      nearestWhole numerator denominator = numerator / denominator) ∨
    (denominator < 2 * (numerator % denominator) ∧
      nearestWhole numerator denominator = numerator / denominator + 1) ∨
    (2 * (numerator % denominator) = denominator ∧
      nearestWhole numerator denominator =
        numerator / denominator + numerator / denominator % 2) := by
  simp only [nearestWhole]
  split
  · next down => exact .inl ⟨down, rfl⟩
  · split
    · next up => exact .inr (.inl ⟨up, rfl⟩)
    · exact .inr (.inr ⟨by omega, rfl⟩)

theorem div_le_nearestWhole (numerator denominator : Nat) :
    numerator / denominator ≤ nearestWhole numerator denominator := by
  rcases nearestWhole_cases numerator denominator with ⟨-, same⟩ | ⟨-, same⟩ | ⟨-, same⟩ <;> omega

theorem nearestWhole_le (positive : 0 < denominator) (below : numerator < whole * denominator) :
    nearestWhole numerator denominator ≤ whole := by
  have less : numerator / denominator < whole := (Nat.div_lt_iff_lt_mul positive).mpr below
  rcases nearestWhole_cases numerator denominator with ⟨-, same⟩ | ⟨-, same⟩ | ⟨-, same⟩ <;> omega

/-- Halfway to an even number the even number is the nearest. -/
theorem nearestWhole_lt_iff (positive : 0 < denominator) (even : whole % 2 = 0) :
    nearestWhole numerator denominator < whole ↔
      2 * numerator + denominator < 2 * (denominator * whole) := by
  have cases := nearestWhole_cases numerator denominator
  have split := Nat.div_add_mod numerator denominator
  have rest := Nat.mod_lt numerator positive
  generalize numerator / denominator = quotient at cases split
  generalize numerator % denominator = left at cases split rest
  -- The quotient is compared with the number before the even one.
  rcases Nat.lt_trichotomy (quotient + 1) whole with before | rfl | beyond
  · have room := Nat.mul_le_mul_left denominator (show quotient + 2 ≤ whole from before)
    rw [Nat.mul_add] at room
    omega
  · rw [Nat.mul_add]
    omega
  · have full := Nat.mul_le_mul_left denominator (show whole ≤ quotient by omega)
    omega

end NearestWhole

/-- The whole number of units and the power of two by which it is counted in its binade. -/
theorem log2_bounds (units : Nat) :
    units < 2 ^ (Nat.log2 units - 52) * 2 ^ 53 ∧
      (0 < Nat.log2 units - 52 → 2 ^ (Nat.log2 units - 52) * 2 ^ 52 ≤ units) := by
  have below : units < 2 ^ (Nat.log2 units + 1) := Nat.lt_log2_self
  rw [← Nat.pow_add, ← Nat.pow_add]
  refine ⟨Nat.lt_of_lt_of_le below (Nat.pow_le_pow_right (by decide) (by omega)), fun shifted => ?_⟩
  have nonzero : units ≠ 0 := by
    rintro rfl
    exact absurd shifted (by decide)
  rw [Nat.sub_add_cancel (by omega)]
  exact Nat.log2_self_le nonzero

/--
A quotient of units is rounded to a code below that of a binade exactly if it lies below the
middle between the last whole number of the binade before and the first one of the binade.
-/
theorem shifted_lt_iff {denominator : Nat} (positive : 0 < denominator) (scaled top : Nat) :
    (Nat.log2 (scaled / denominator) - 52) * 2 ^ 52 +
        nearestWhole scaled (denominator * 2 ^ (Nat.log2 (scaled / denominator) - 52)) <
          (top + 2) * 2 ^ 52 ↔
      2 * scaled + denominator * 2 ^ top < 2 * (denominator * 2 ^ top * 2 ^ 53) := by
  obtain ⟨below, above⟩ := log2_bounds (scaled / denominator)
  generalize Nat.log2 (scaled / denominator) - 52 = shift at below above ⊢
  have unit : 0 < denominator * 2 ^ shift := Nat.mul_pos positive (Nat.two_pow_pos shift)
  rw [Nat.div_lt_iff_lt_mul positive, Nat.mul_right_comm, Nat.mul_comm _ denominator] at below
  rcases Nat.lt_trichotomy shift top with low | rfl | high
  · have rounded : nearestWhole scaled (denominator * 2 ^ shift) ≤ 2 ^ 53 :=
      nearestWhole_le unit (by rwa [Nat.mul_comm])
    have room : denominator * 2 ^ shift * 2 ≤ denominator * 2 ^ top := by
      rw [Nat.mul_assoc, ← Nat.pow_succ]
      exact Nat.mul_le_mul_left _ (Nat.pow_le_pow_right (by decide) low)
    constructor <;> intro _ <;> omega
  · rw [← nearestWhole_lt_iff unit (by decide)]
    omega
  · have long := above (by omega)
    have rounded : 2 ^ 52 ≤ nearestWhole scaled (denominator * 2 ^ shift) := by
      refine Nat.le_trans ?_ (div_le_nearestWhole _ _)
      rw [← Nat.div_div_eq_div_mul, Nat.le_div_iff_mul_le (Nat.two_pow_pos shift), Nat.mul_comm]
      exact long
    have room : denominator * 2 ^ top * 2 ≤ denominator * 2 ^ shift := by
      rw [Nat.mul_assoc, ← Nat.pow_succ]
      exact Nat.mul_le_mul_left _ (Nat.pow_le_pow_right (by decide) high)
    rw [Nat.le_div_iff_mul_le positive, Nat.mul_right_comm, Nat.mul_comm _ denominator] at long
    constructor <;> intro _ <;> omega

theorem nearest_lt_infinityCode_iff {numerator denominator : Nat} (positive : 0 < denominator) :
    nearest numerator denominator < infinityCode ↔ numerator < denominator * overflowLimit := by
  have shifted := shifted_lt_iff positive (numerator * 2 ^ unitExponent) 2045
  have power : 2 ^ 2045 = 2 ^ 970 * (2 * 2 ^ unitExponent) := by
    rw [← Nat.pow_succ', ← Nat.pow_add, unitExponent]
  have unit : 0 < 2 * 2 ^ unitExponent := Nat.mul_pos Nat.two_pos (Nat.two_pow_pos unitExponent)
  simp only [nearest, infinityCode, binade_eq, Nat.pow_eq, min_lt_iff, Nat.lt_irrefl, false_or]
  rw [shifted, power, overflowLimit]
  generalize 2 ^ unitExponent = units at unit
  generalize 2 ^ 970 = gap
  have left : 2 * (numerator * units) + denominator * (gap * (2 * units)) =
      (numerator + denominator * gap) * (2 * units) := by ring
  have right : 2 * (denominator * (gap * (2 * units)) * 2 ^ 53) =
      denominator * gap * 2 ^ 54 * (2 * units) := by ring
  have limit : denominator * ((2 ^ 54 - 1) * gap) = (2 ^ 54 - 1) * (denominator * gap) :=
    Nat.mul_left_comm _ _ _
  rw [left, right, Nat.mul_lt_mul_right unit, limit]
  omega

def decimalValue (digits : Nat) (exponent : Int) : ℚ := digits * 10 ^ exponent

section Decimals

variable {digits : Nat} {exponent : Int}

/-- The length of its digits tells the powers of ten between which a number lies. -/
theorem digits_bounds (positive : 0 < digits) :
    10 ^ (decimalLength digits - 1) ≤ digits ∧ digits < 10 ^ decimalLength digits := by
  have long : 0 < decimalLength digits := Nat.length_toDigits_pos
  refine ⟨Nat.le_of_not_lt fun less => ?_, (decimalLength_le_iff long).mp (Nat.le_refl _)⟩
  rcases Nat.eq_zero_or_pos (decimalLength digits - 1) with single | more
  · rw [single] at less
    omega
  · have short := (decimalLength_le_iff more).mpr less
    omega

/-- The rank of a decimal tells the powers of ten between which its value lies. -/
theorem decimalValue_bounds (positive : 0 < digits) (exponent : Int) :
    (10 : ℚ) ^ (decimalLength digits + exponent - 1) ≤ decimalValue digits exponent ∧
      decimalValue digits exponent < 10 ^ (decimalLength digits + exponent) := by
  have ten : (10 : ℚ) ≠ 0 := by decide
  have power : (0 : ℚ) < 10 ^ exponent := zpow_pos (by decide) exponent
  have long : 0 < decimalLength digits := Nat.length_toDigits_pos
  obtain ⟨above, below⟩ := digits_bounds positive
  have aboveToo : ((10 ^ (decimalLength digits - 1) : Nat) : ℚ) ≤ digits := Nat.cast_le.mpr above
  have belowToo : (digits : ℚ) < ((10 ^ decimalLength digits : Nat) : ℚ) := Nat.cast_lt.mpr below
  have rank : (decimalLength digits : Int) + exponent - 1 =
      (decimalLength digits - 1 : Nat) + exponent := by omega
  rw [Nat.cast_pow, Nat.cast_ofNat] at aboveToo belowToo
  rw [decimalValue, rank, zpow_add₀ ten, zpow_add₀ ten, zpow_natCast, zpow_natCast]
  exact ⟨mul_le_mul_of_nonneg_right aboveToo power.le, mul_lt_mul_of_pos_right belowToo power⟩

theorem overflowLimit_bounds : 1 ≤ overflowLimit ∧ overflowLimit ≤ 10 ^ 310 := by
  unfold overflowLimit
  decide +kernel

theorem decimalValue_of_nonneg (whole : 0 ≤ exponent) :
    decimalValue digits exponent = (digits * 10 ^ exponent.toNat : Nat) := by
  obtain ⟨power, rfl⟩ := Int.eq_ofNat_of_zero_le whole
  rw [decimalValue, Int.toNat_natCast, zpow_natCast, Nat.cast_mul, Nat.cast_pow, Nat.cast_ofNat]

theorem decimalValue_of_neg (fraction : exponent < 0) :
    decimalValue digits exponent = digits / (10 ^ (-exponent).toNat : Nat) := by
  obtain ⟨power, same⟩ := Int.eq_ofNat_of_zero_le (show 0 ≤ -exponent by omega)
  obtain rfl : exponent = -(power : Int) := by omega
  rw [decimalValue, Int.neg_neg, Int.toNat_natCast, zpow_neg, zpow_natCast, Nat.cast_pow,
    Nat.cast_ofNat, div_eq_mul_inv]

end Decimals

/-- A decimal is nearest to a finite double exactly if its value lies below the limit. -/
theorem ofDecimal_lt_infinityCode_iff (digits : Nat) (exponent : Int) :
    ofDecimal digits exponent < infinityCode ↔ decimalValue digits exponent < overflowLimit := by
  obtain ⟨least, greatest⟩ := overflowLimit_bounds
  have leastToo : (1 : ℚ) ≤ overflowLimit := Nat.one_le_cast.mpr least
  have finite : 0 < infinityCode := by
    rw [infinityCode, binade_eq]
    decide
  rcases Nat.eq_zero_or_pos digits with rfl | positive
  · rw [ofDecimal_zero, decimalValue, Nat.cast_zero, zero_mul]
    exact iff_of_true finite (zero_lt_one.trans_le leastToo)
  obtain ⟨above, below⟩ := decimalValue_bounds positive exponent
  simp only [ofDecimal, if_neg (Nat.ne_of_gt positive), Nat.pow_eq]
  split
  · next long =>
      have reached : (10 : ℚ) ^ (310 : Int) ≤ decimalValue digits exponent :=
        (zpow_le_zpow_right₀ (by decide) (by omega)).trans above
      have beyond : (overflowLimit : ℚ) ≤ 10 ^ (310 : Int) := by
        have cast : (overflowLimit : ℚ) ≤ ((10 ^ 310 : Nat) : ℚ) := Nat.cast_le.mpr greatest
        rwa [Nat.cast_pow, Nat.cast_ofNat] at cast
      exact iff_of_false (Nat.lt_irrefl _) (not_lt.mpr (beyond.trans reached))
  · split
    · next short =>
        have small : (10 : ℚ) ^ (decimalLength digits + exponent) ≤ 10 ^ (0 : Int) :=
          zpow_le_zpow_right₀ (by decide) (by omega)
        rw [zpow_zero] at small
        exact iff_of_true finite ((below.trans_le small).trans_le leastToo)
    · split
      · next whole =>
          rw [nearest_lt_infinityCode_iff Nat.one_pos, Nat.one_mul, decimalValue_of_nonneg whole,
            Nat.cast_lt]
      · next fraction =>
          have scale : 0 < 10 ^ (-exponent).toNat := Nat.pow_pos (by decide)
          rw [nearest_lt_infinityCode_iff scale, decimalValue_of_neg (by omega),
            div_lt_iff₀ (Nat.cast_pos.mpr scale), ← Nat.cast_mul, Nat.cast_lt, Nat.mul_comm]

end Packrat.Double
