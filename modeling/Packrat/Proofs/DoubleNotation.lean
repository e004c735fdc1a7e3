import Packrat.Double.Notation
import Packrat.Proofs.DoubleDecimals
import Packrat.Proofs.JsonSyntax

/-!
# Written doubles read back

The digits of the shortest decimal are written with a point among them, behind zeros or in front
of zeros, or with an exponent.  Every such notation is a number literal of JSON, and the digits
that it shows count the same power of ten as before.  A finite double is therefore read back from
its own text.
-/

namespace Packrat.Double

open Json

theorem digitsValue_eq (digits : List Char) : Signed.digitsValue digits =
    Nat.ofDigitChars 10 digits 0 := by
  simp only [Signed.digitsValue, Nat.ofDigitChars, Nat.mul_comm]

theorem digitsValue_append_zeros (digits : List Char) (count : Nat) :
    Signed.digitsValue (digits ++ List.replicate count '0') =
      Signed.digitsValue digits * 10 ^ count := by
  simp only [digitsValue_eq, Nat.ofDigitChars_append, Nat.ofDigitChars_replicate_zero,
    Nat.mul_comm]

theorem digitsValue_zeros_append (count : Nat) (digits : List Char) :
    Signed.digitsValue (List.replicate count '0' ++ digits) = Signed.digitsValue digits := by
  simp only [digitsValue_eq, Nat.ofDigitChars_append, Nat.ofDigitChars_replicate_zero,
    Nat.mul_zero]

theorem digitsValue_digitsOf (n : Nat) : Signed.digitsValue (digitsOf n) = n := by
  rw [digitsValue_eq, digitsOf, Nat.ofDigitChars_ten_toDigits]

theorem isDigit_of_mem_digitsOf {n : Nat} {c : Char} (member : c ∈ digitsOf n) : IsDigit c :=
  (isDigit_iff c).mp (Nat.isDigit_of_mem_toDigits (by decide) (by decide) member)

theorem digits_digitsOf (n : Nat) : Digits (digitsOf n) :=
  ⟨Nat.toDigits_ne_nil, fun _ => isDigit_of_mem_digitsOf⟩

/-- The first digit of a positive number is not zero. -/
theorem exists_digitsOf {n : Nat} (positive : 0 < n) :
    ∃ first rest, digitsOf n = first :: rest ∧ first ≠ '0' := by
  induction n using Nat.strongRecOn with
  | ind n ih =>
      rw [digitsOf]
      by_cases short : n < 10
      · rw [Nat.toDigits_of_lt_base short]
        refine ⟨_, [], rfl, fun zero => ?_⟩
        have value := digitsValue_digitsOf n
        rw [digitsOf, Nat.toDigits_of_lt_base short, zero] at value
        exact Nat.ne_of_gt positive value.symm
      · obtain ⟨first, rest, same, different⟩ := ih (n / 10) (by omega) (by omega)
        rw [digitsOf] at same
        rw [Nat.toDigits_of_base_le (by decide) (Nat.not_lt.mp short), same]
        exact ⟨first, _, rfl, different⟩

/-- Characters are an unsigned number literal that is read as a magnitude. -/
inductive IsMagnitude : List Char → Nat → Prop where
  | parts {whole fraction exponent : List Char} {power : Int} : IsWhole whole →
      IsFraction fraction → IsExponent exponent → readExponent exponent = some power →
      IsMagnitude (whole ++ (fraction ++ exponent))
        (ofDecimal (Signed.digitsValue (whole ++ fraction.tail)) (power - fraction.tail.length))

theorem IsMagnitude.readMagnitude {chars : List Char} {code : Nat}
    (magnitude : IsMagnitude chars code) : readMagnitude chars = some code := by
  cases magnitude with
  | parts isWhole isFraction isExponent read =>
      exact isWhole.readMagnitude isFraction isExponent read

theorem IsMagnitude.starts {chars : List Char} {code : Nat} (magnitude : IsMagnitude chars code)
    (c : Char) (first : chars.head? = some c) : IsDigit c := by
  cases magnitude with
  | parts isWhole _ _ _ => exact isWhole.digits.first first

theorem IsMagnitude.isNumber {chars : List Char} {code : Nat} (magnitude : IsMagnitude chars code)
    (negative : Bool) : IsNumber ((if negative then ['-'] else []) ++ chars) := by
  cases magnitude with
  | parts isWhole isFraction isExponent _ =>
      refine .parts ?_ isWhole isFraction isExponent
      cases negative with
      | false => exact List.mem_cons_self
      | true => exact List.mem_cons_of_mem _ List.mem_cons_self

theorem isMagnitude_plain {whole fraction : List Char} {code : Nat} (isWhole : IsWhole whole)
    (digits : Digits fraction)
    (denotes : ofDecimal (Signed.digitsValue (whole ++ fraction)) (-fraction.length) = code) :
    IsMagnitude (whole ++ '.' :: fraction) code := by
  have magnitude : IsMagnitude _ _ := .parts isWhole (.present digits) .absent rfl
  rwa [List.append_nil, List.tail_cons, Int.zero_sub, denotes] at magnitude

section Written

variable {first : Char} {rest : List Char}

theorem digits_of_mem {chars digits : List Char} (all : Digits digits) (nonempty : chars ≠ [])
    (each : ∀ c ∈ chars, c = '0' ∨ c ∈ digits) : Digits chars := by
  refine ⟨nonempty, fun c member => ?_⟩
  rcases each c member with rfl | member
  · decide
  · exact all.2 c member

theorem isWhole_cons (all : Digits (first :: rest)) (nonzero : first ≠ '0') :
    IsWhole (first :: rest) :=
  .positive (all.2 _ List.mem_cons_self) nonzero fun d member =>
    all.2 d (List.mem_cons_of_mem _ member)

theorem isMagnitude_below_one {digits : List Char} (all : Digits digits) (count : Nat) :
    IsMagnitude ('0' :: '.' :: (List.replicate count '0' ++ digits))
      (ofDecimal (Signed.digitsValue digits) (-(count + digits.length : Nat))) := by
  have behind : Digits (List.replicate count '0' ++ digits) :=
    digits_of_mem all (List.append_ne_nil_of_right_ne_nil _ all.1) fun c member =>
      (List.mem_append.mp member).imp_left List.eq_of_mem_replicate
  refine isMagnitude_plain .zero behind ?_
  have value := digitsValue_zeros_append (count + 1) digits
  rw [List.replicate_succ] at value
  rw [List.singleton_append, ← List.cons_append, value, List.length_append,
    List.length_replicate]

/-- Digits in front of zeros, a point and one more zero. -/
theorem isMagnitude_whole (all : Digits (first :: rest)) (nonzero : first ≠ '0') (count : Nat) :
    IsMagnitude (first :: rest ++ List.replicate count '0' ++ '.' :: ['0'])
      (ofDecimal (Signed.digitsValue (first :: rest)) count) := by
  have whole : Digits (first :: rest ++ List.replicate count '0') :=
    digits_of_mem all (List.cons_ne_nil _ _) fun c member =>
      (List.mem_append.mp member).symm.imp_left List.eq_of_mem_replicate
  refine isMagnitude_plain (isWhole_cons whole nonzero)
    ⟨List.cons_ne_nil _ _, forall_mem_of_all (by decide)⟩ ?_
  have value := digitsValue_append_zeros (first :: rest) (count + 1)
  rw [List.replicate_succ', ← List.append_assoc] at value
  rw [value, ofDecimal_mul_pow]
  congr 1
  simp only [List.length_singleton]
  omega

/-- Digits in plain notation keep their value. -/
theorem plainText_isMagnitude (all : Digits (first :: rest)) (nonzero : first ≠ '0')
    (power : Int) : IsMagnitude (plainText (first :: rest) power).toList
      (ofDecimal (Signed.digitsValue (first :: rest)) (power - rest.length)) := by
  unfold plainText
  split
  · next negative =>
      have magnitude := isMagnitude_below_one all (-power - 1).toNat
      have exponent : (-((-power - 1).toNat + (first :: rest).length : Nat) : Int) =
          power - rest.length := by
        rw [List.length_cons]
        omega
      rw [exponent] at magnitude
      rw [String.toList_append, String.toList_ofList, String.toList_ofList]
      exact magnitude
  · next positive =>
      obtain ⟨place, rfl⟩ := Int.eq_ofNat_of_zero_le (Int.not_lt.mp positive)
      simp only [Int.toNat_natCast, List.take_succ_cons, List.drop_succ_cons, List.length_cons,
        Nat.add_sub_add_right, List.length_take]
      rcases Nat.lt_or_ge place rest.length with inside | outside
      · have nonempty : rest.drop place ≠ [] := by simpa using inside
        have whole : Digits (first :: rest.take place) :=
          digits_of_mem all (List.cons_ne_nil _ _) fun c member =>
            .inr (List.cons_subset_cons first (List.take_subset place rest) member)
        have fraction : Digits (rest.drop place) :=
          digits_of_mem all nonempty fun c member =>
            .inr (List.mem_cons_of_mem first (List.mem_of_mem_drop member))
        have magnitude := isMagnitude_plain (isWhole_cons whole nonzero) fraction rfl
        have exponent : (-(rest.length - place : Nat) : Int) = place - rest.length := by omega
        rw [List.cons_append, List.cons_append, List.take_append_drop, List.length_drop,
          exponent] at magnitude
        rw [Nat.min_eq_left (Nat.le_of_lt inside), Nat.sub_self, List.replicate_zero,
          List.append_nil, if_neg (by simpa using nonempty)]
        simpa [String.toList_append] using magnitude
      · have magnitude := isMagnitude_whole all nonzero (place - rest.length)
        rw [Int.ofNat_sub outside] at magnitude
        rw [List.take_of_length_le outside, List.drop_of_length_le outside,
          Nat.min_eq_right outside, if_pos List.isEmpty_nil]
        simpa [String.toList_append] using magnitude

/-- A signed exponent reads back. -/
theorem isExponent_written (power : Int) :
    IsExponent ('e' :: ((if power < 0 then ['-'] else ['+']) ++ digitsOf power.natAbs)) ∧
      readExponent ('e' :: ((if power < 0 then ['-'] else ['+']) ++ digitsOf power.natAbs)) =
        some power := by
  have all := digits_digitsOf power.natAbs
  have read := all.readDigits?
  rw [digitsValue_digitsOf] at read
  by_cases negative : power < 0
  · rw [if_pos negative]
    refine ⟨.present (by decide) (by decide) all, ?_⟩
    rw [List.singleton_append, readExponent, read, if_pos (by decide)]
    refine congrArg some ?_
    change -(power.natAbs : Int) = power
    omega
  · rw [if_neg negative]
    refine ⟨.present (by decide) (by decide) all, ?_⟩
    rw [List.singleton_append, readExponent, read, if_pos (by decide)]
    exact congrArg some (Int.natAbs_of_nonneg (Int.not_lt.mp negative))

theorem exponentText_isMagnitude (all : Digits (first :: rest)) (nonzero : first ≠ '0')
    (power : Int) : IsMagnitude (exponentText (first :: rest) power).toList
      (ofDecimal (Signed.digitsValue (first :: rest)) (power - rest.length)) := by
  obtain ⟨isExponent, read⟩ := isExponent_written power
  have isWhole : IsWhole [first] :=
    .positive (all.2 _ List.mem_cons_self) nonzero fun _ none => absurd none List.not_mem_nil
  unfold exponentText
  simp only [List.take_succ_cons, List.take_zero, List.drop_succ_cons, List.drop_zero]
  cases rest with
  | nil =>
      have magnitude : IsMagnitude _ _ := .parts isWhole .absent isExponent read
      simpa [String.toList_append, apply_ite String.toList, Nat.toString_eq_ofList_toDigits,
        digitsOf] using magnitude
  | cons second rest =>
      have fraction : Digits (second :: rest) :=
        digits_of_mem all (List.cons_ne_nil _ _) fun _ member =>
          .inr (List.mem_cons_of_mem first member)
      have magnitude : IsMagnitude _ _ := .parts isWhole (.present fraction) isExponent read
      simpa [String.toList_append, apply_ite String.toList, Nat.toString_eq_ofList_toDigits,
        digitsOf] using magnitude

end Written

/-- A finite magnitude is written as a literal that is read as the magnitude. -/
theorem magnitudeText_isMagnitude {code : Nat} (finite : code < infinityCode) :
    IsMagnitude (magnitudeText code).toList code := by
  unfold magnitudeText
  split
  · next zero =>
      have magnitude : IsMagnitude (['0'] ++ '.' :: ['0']) 0 :=
        isMagnitude_plain .zero ⟨List.cons_ne_nil _ _, forall_mem_of_all (by decide)⟩ rfl
      rw [zero]
      exact magnitude
  · next other =>
      have positive := Nat.pos_of_ne_zero other
      obtain ⟨first, rest, same, nonzero⟩ :=
        exists_digitsOf (shortest_digits_pos positive finite)
      have all := digits_digitsOf (shortest code).digits
      have value := digitsValue_digitsOf (shortest code).digits
      have denotes := code_shortest positive finite
      rw [same] at all value
      have exponent : (shortest code).exponent + (first :: rest).length - 1 - rest.length =
          (shortest code).exponent := by
        rw [List.length_cons]
        omega
      have plain := plainText_isMagnitude all nonzero
        ((shortest code).exponent + (first :: rest).length - 1)
      have exponential := exponentText_isMagnitude all nonzero
        ((shortest code).exponent + (first :: rest).length - 1)
      rw [value, exponent] at plain exponential
      rw [Decimal.code] at denotes
      rw [denotes] at plain exponential
      simp only [same]
      split
      · exact plain
      · exact exponential

/-- A finite double is written as a number literal and read back from it. -/
theorem text_reads_back {double : Double} (finite : double.isFinite = true) :
    IsNumber double.text.toList ∧ ofLiteral? double.text = some double := by
  have magnitude := magnitudeText_isMagnitude (of_decide_eq_true finite)
  have spelled : double.text.toList =
      (if double.negative then ['-'] else []) ++ (magnitudeText double.code).toList := by
    rw [text, String.toList_append, apply_ite String.toList]
    rfl
  refine ⟨spelled ▸ magnitude.isNumber double.negative, ?_⟩
  have read := ofLiteral?_signed double.negative magnitude.starts magnitude.readMagnitude
  rwa [← spelled, String.ofList_toList] at read

end Packrat.Double
