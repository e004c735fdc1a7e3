import Mathlib.Algebra.Ring.Nat
import Packrat.Double.Shortest

/-!
# Decimals that read back

The double nearest to a quotient depends on the value of the quotient only, so zeros at the end
of the digits of a decimal may be dropped and added as long as its exponent makes up for them.
The exact value of a finite magnitude is nearest to that magnitude, and the grids of decimals are
left only for a decimal that reads back.  The shortest decimal of a finite magnitude therefore
denotes it.
-/

namespace Packrat.Double

theorem nearestWhole_mul {factor : Nat} (positive : 0 < factor) (numerator denominator : Nat) :
    nearestWhole (factor * numerator) (factor * denominator) =
      nearestWhole numerator denominator := by
  simp only [nearestWhole, Nat.mul_div_mul_left _ _ positive, Nat.mul_mod_mul_left,
    Nat.mul_left_comm 2, Nat.mul_lt_mul_left positive]

theorem nearestWhole_of_mul {denominator : Nat} (positive : 0 < denominator) (whole : Nat) :
    nearestWhole (whole * denominator) denominator = whole := by
  simp only [nearestWhole, Nat.mul_div_cancel _ positive, Nat.mul_mod_left, Nat.mul_zero,
    if_pos positive]

theorem nearest_mul {factor : Nat} (positive : 0 < factor) (numerator denominator : Nat) :
    nearest (factor * numerator) (factor * denominator) = nearest numerator denominator := by
  simp only [nearest, Nat.mul_assoc, Nat.mul_div_mul_left _ _ positive,
    nearestWhole_mul positive]

theorem decimalLength_mul_ten {digits : Nat} (positive : 0 < digits) :
    decimalLength (digits * 10) = decimalLength digits + 1 := by
  have longer : 10 ≤ digits * 10 := Nat.le_mul_of_pos_left 10 positive
  rw [decimalLength, Nat.toDigits_of_base_le (by decide) longer, List.length_append,
    Nat.mul_div_cancel digits (by decide)]
  rfl

theorem ofDecimal_zero (exponent : Int) : ofDecimal 0 exponent = 0 := by
  simp only [ofDecimal, if_pos]

def nearestDecimal (digits : Nat) (exponent : Int) : Nat :=
  if 0 ≤ exponent then nearest (digits * Nat.pow 10 exponent.toNat) 1
  else nearest digits (Nat.pow 10 (-exponent).toNat)

theorem nearestDecimal_mul_ten (digits : Nat) (exponent : Int) :
    nearestDecimal (digits * 10) exponent = nearestDecimal digits (exponent + 1) := by
  simp only [nearestDecimal, Nat.pow_eq]
  rcases Int.lt_trichotomy exponent (-1) with below | rfl | above
  · have power : (-exponent).toNat = (-(exponent + 1)).toNat + 1 := by omega
    rw [if_neg (by omega), if_neg (by omega), power, Nat.pow_succ', Nat.mul_comm digits,
      nearest_mul (by decide)]
  · have whole := nearest_mul (show 0 < 10 by decide) digits 1
    rw [Nat.mul_comm, Nat.mul_one] at whole
    simpa using whole
  · have power : (exponent + 1).toNat = exponent.toNat + 1 := by omega
    rw [if_pos (by omega), if_pos (by omega), power, Nat.pow_succ', Nat.mul_assoc]

theorem ofDecimal_mul_ten (digits : Nat) (exponent : Int) :
    ofDecimal (digits * 10) exponent = ofDecimal digits (exponent + 1) := by
  rcases Nat.eq_zero_or_pos digits with rfl | positive
  · rw [Nat.zero_mul, ofDecimal_zero, ofDecimal_zero]
  have rank : (decimalLength (digits * 10) : Int) + exponent =
      decimalLength digits + (exponent + 1) := by
    rw [decimalLength_mul_ten positive]
    omega
  have same := nearestDecimal_mul_ten digits exponent
  unfold nearestDecimal at same
  unfold ofDecimal
  simp only [rank, same, Nat.mul_eq_zero, or_false, Nat.reduceEqDiff]

theorem ofDecimal_mul_pow (digits count : Nat) (exponent : Int) :
    ofDecimal (digits * 10 ^ count) exponent = ofDecimal digits (exponent + count) := by
  induction count generalizing exponent with
  | zero => rw [Nat.pow_zero, Nat.mul_one, Int.natCast_zero, Int.add_zero]
  | succ count ih =>
      rw [Nat.pow_succ, ← Nat.mul_assoc, ofDecimal_mul_ten, ih]
      congr 1
      omega

theorem Decimal.code_trimmed (decimal : Decimal) (count : Nat) :
    (decimal.trimmed count).code = decimal.code := by
  induction count generalizing decimal with
  | zero => rfl
  | succ count ih =>
      rw [trimmed]
      split
      · next ends =>
          have ends : decimal.digits % 10 = 0 := by
            simp only [Bool.and_eq_true, decide_eq_true_eq] at ends
            exact ends.1
          rw [ih, code, ← ofDecimal_mul_ten, Nat.div_mul_cancel (Nat.dvd_of_mod_eq_zero ends)]
          rfl
      · rfl

theorem binade_eq : binade = 2 ^ 52 := by rw [binade, Nat.pow_eq]

/-- The units of a code are a whole number below `2 ^ 53` times the power of two of its binade. -/
theorem exists_units (code : Nat) : ∃ whole shift, unitsOf code = whole * 2 ^ shift ∧
    Nat.log2 (unitsOf code) - 52 = shift ∧ shift * binade + whole = code ∧ whole < 2 ^ 53 := by
  rw [binade_eq]
  unfold unitsOf
  rw [binade_eq]
  split
  · next small =>
      refine ⟨code, 0, by rw [Nat.pow_zero, Nat.mul_one], ?_, by omega, by omega⟩
      rcases Nat.eq_zero_or_pos code with rfl | positive
      · rfl
      · have short := (Nat.log2_lt (Nat.ne_of_gt positive)).mpr small
        omega
  · next large =>
      have shifted : 1 ≤ code / 2 ^ 52 := (Nat.one_le_div_iff (by decide)).mpr (by omega)
      have rest := Nat.mod_lt code (show 0 < 2 ^ 52 by decide)
      have split := Nat.div_add_mod' code (2 ^ 52)
      refine ⟨2 ^ 52 + code % 2 ^ 52, code / 2 ^ 52 - 1, by rw [Nat.pow_eq], ?_, ?_, by omega⟩
      · rw [Nat.pow_eq]
        have long : Nat.log2 ((2 ^ 52 + code % 2 ^ 52) * 2 ^ (code / 2 ^ 52 - 1)) =
            52 + (code / 2 ^ 52 - 1) := by
          have power := Nat.two_pow_pos (code / 2 ^ 52 - 1)
          refine (Nat.log2_eq_iff (Nat.mul_ne_zero (by omega) (by omega))).mpr ⟨?_, ?_⟩
          · rw [Nat.pow_add]
            exact Nat.mul_le_mul_right _ (Nat.le_add_right _ _)
          · rw [Nat.add_right_comm, Nat.pow_add 2 (52 + 1)]
            exact Nat.mul_lt_mul_of_pos_right (by omega) power
        omega
      · have back : (code / 2 ^ 52 - 1) * 2 ^ 52 + 2 ^ 52 = code / 2 ^ 52 * 2 ^ 52 := by
          rw [← Nat.succ_mul]
          congr 1
          omega
        rw [← Nat.add_assoc, back, split]

/-- The exact value of a finite magnitude is nearest to that magnitude. -/
theorem nearest_units {code : Nat} (finite : code < infinityCode) :
    nearest (unitsOf code) (Nat.pow 2 unitExponent) = code := by
  obtain ⟨whole, shift, units, shifted, composed, -⟩ := exists_units code
  have positive : 0 < Nat.pow 2 unitExponent := by
    generalize unitExponent = exponent
    exact Nat.two_pow_pos exponent
  unfold nearest
  generalize Nat.pow 2 unitExponent = scale at positive ⊢
  simp only [Nat.mul_div_cancel _ positive, shifted]
  rw [Nat.mul_comm _ scale, nearestWhole_mul positive, units, Nat.pow_eq,
    nearestWhole_of_mul (Nat.two_pow_pos shift), composed, Nat.min_eq_right (Nat.le_of_lt finite)]

theorem unitsOf_pos {code : Nat} (positive : 0 < code) : 0 < unitsOf code := by
  unfold unitsOf
  split
  · exact positive
  · exact Nat.mul_pos (Nat.add_pos_left (by decide) _) (Nat.two_pow_pos _)

theorem unitsOf_lt {code : Nat} (finite : code < infinityCode) {greatest : Nat}
    (covers : 2046 ≤ greatest) : unitsOf code < 2 ^ 53 * 2 ^ greatest := by
  obtain ⟨whole, shift, units, -, composed, small⟩ := exists_units code
  have bound : shift ≤ 2046 := by
    rw [infinityCode] at finite
    have below : shift * binade < 2047 * binade := by omega
    exact Nat.le_of_lt_succ (Nat.lt_of_mul_lt_mul_right below)
  rw [units]
  exact Nat.lt_of_lt_of_le (Nat.mul_lt_mul_of_pos_right small (Nat.two_pow_pos shift))
    (Nat.mul_le_mul_left _ (Nat.pow_le_pow_right (by decide) (Nat.le_trans bound covers)))

theorem decimalLength_le_iff {digits length : Nat} (positive : 0 < length) :
    decimalLength digits ≤ length ↔ digits < 10 ^ length :=
  Nat.length_toDigits_le_iff (by decide) positive

/-- The digits of an exact value are neither too many nor too few to be rounded. -/
theorem exactDecimal_rank {code power : Nat} (exponent : power = unitExponent)
    (positive : 0 < code) (finite : code < infinityCode) :
    decimalLength (unitsOf code * 5 ^ power) ≤ 310 + power ∧
      power < decimalLength (unitsOf code * 5 ^ power) + 330 := by
  have fives : 0 < 5 ^ power := Nat.pow_pos (by decide)
  have above : 2 ^ 53 * 2 ^ 2046 * 5 ^ power ≤ 10 ^ (310 + power) := by
    rw [exponent]
    decide +kernel
  have below : 10 ^ (power - 330) ≤ 5 ^ power := by
    rw [exponent]
    decide +kernel
  constructor
  · refine (decimalLength_le_iff (Nat.add_pos_left (by decide) _)).mpr ?_
    exact Nat.lt_of_lt_of_le
      (Nat.mul_lt_mul_of_pos_right (unitsOf_lt finite (Nat.le_refl _)) fives) above
  · refine Nat.lt_of_not_le fun short => ?_
    have few : decimalLength (unitsOf code * 5 ^ power) ≤ power - 330 := by omega
    have positiveToo : 0 < power - 330 := by
      rw [exponent]
      decide
    have less := (decimalLength_le_iff positiveToo).mp few
    exact Nat.not_lt_of_le (Nat.le_trans below (Nat.le_mul_of_pos_left _ (unitsOf_pos positive)))
      less

/-- All digits of the exact value read back. -/
theorem code_exactDecimal {code : Nat} (positive : 0 < code) (finite : code < infinityCode) :
    (exactDecimal code).code = code := by
  have nearby := nearest_units finite
  simp only [Decimal.code, exactDecimal, Nat.pow_eq] at nearby ⊢
  obtain ⟨longest, shortest⟩ := exactDecimal_rank rfl positive finite
  have ahead : 0 < unitExponent := by decide
  generalize unitExponent = power at nearby longest shortest ahead ⊢
  have fives : 0 < 5 ^ power := Nat.pow_pos (by decide)
  have nonzero : unitsOf code * 5 ^ power ≠ 0 :=
    Nat.mul_ne_zero (Nat.ne_of_gt (unitsOf_pos positive)) (Nat.ne_of_gt fives)
  have tens : 10 ^ power = 5 ^ power * 2 ^ power := by rw [← Nat.mul_pow]
  rw [ofDecimal, if_neg nonzero, if_neg (by omega), if_neg (by omega), if_neg (by omega),
    Int.neg_neg, Int.toNat_natCast, Nat.pow_eq, tens, Nat.mul_comm, nearest_mul fives, nearby]

theorem code_of_either {code : Nat} {one other decimal : Decimal}
    (found : (if one.code = code then some one
      else if other.code = code then some other else none) = some decimal) :
    decimal.code = code := by
  split at found
  · next same =>
      cases found
      exact same
  · obtain ⟨same, taken⟩ := Option.ite_none_right_eq_some.mp found
    cases taken
    exact same

theorem code_of_onGrid {code : Nat} {exponent : Int} {decimal : Decimal}
    (found : onGrid code exponent = some decimal) : decimal.code = code :=
  code_of_either found

theorem code_shortestFrom {code : Nat} (positive : 0 < code) (finite : code < infinityCode)
    (rank : Int) (fuel digits : Nat) : (shortestFrom code rank fuel digits).code = code := by
  induction fuel generalizing digits with
  | zero => exact code_exactDecimal positive finite
  | succ fuel ih =>
      rw [shortestFrom]
      split
      · next found => exact code_of_onGrid found
      · exact ih (digits + 1)

/-- The shortest decimal of a finite magnitude denotes it. -/
theorem code_shortest {code : Nat} (positive : 0 < code) (finite : code < infinityCode) :
    (shortest code).code = code := by
  rw [shortest, Decimal.code_trimmed, code_shortestFrom positive finite]

theorem shortest_digits_pos {code : Nat} (positive : 0 < code) (finite : code < infinityCode) :
    0 < (shortest code).digits := by
  refine Nat.pos_of_ne_zero fun zero => ?_
  have denotes := code_shortest positive finite
  rw [Decimal.code, zero, ofDecimal_zero] at denotes
  exact Nat.ne_of_gt positive denotes.symm

end Packrat.Double
