import Packrat.Proofs.JsonStrings

/-!
# Spellings of characters

A string literal spells its characters one after the other.  A character may have many
spellings, but a spelling tells where it ends, so the characters of a literal can be told apart.
An escape by number that has a surrogate where none can stand belongs to no spelling.
-/

namespace Packrat.Json

def hexDigits : List (Char × Nat) :=
  "0123456789abcdef".toList.zipIdx ++ "ABCDEF".toList.zipIdx 10

inductive IsCodeUnit : List Char → Nat → Prop where
  | digits {first second third fourth : Char} {a b c d : Nat} : (first, a) ∈ hexDigits →
      (second, b) ∈ hexDigits → (third, c) ∈ hexDigits → (fourth, d) ∈ hexDigits →
      IsCodeUnit [first, second, third, fourth] (((a * 16 + b) * 16 + c) * 16 + d)

theorem mem_hexDigits_iff {c : Char} {value : Nat} : (c, value) ∈ hexDigits ↔
    isHexDigit c = true ∧ Grammar.hexValue.hexDigit c = value := by
  constructor
  · have all : ∀ digit ∈ hexDigits, isHexDigit digit.1 = true ∧
        Grammar.hexValue.hexDigit digit.1 = digit.2 := by decide
    exact all (c, value)
  · rintro ⟨isDigit, rfl⟩
    have small : c.toNat < 128 := by
      have last : ('9' : Char).val.toNat = 57 ∧ ('F' : Char).val.toNat = 70 ∧
          ('f' : Char).val.toNat = 102 := by decide
      simp only [isHexDigit, Char.isDigit, Char.le_def, UInt32.le_iff_toNat_le,
        Bool.or_eq_true, Bool.and_eq_true, decide_eq_true_eq, Char.toNat] at isDigit ⊢
      omega
    have known : isHexDigit c = true →
        (c, Grammar.hexValue.hexDigit c) ∈ hexDigits := by
      apply forall_ascii c small
      decide +kernel
    exact known isDigit

theorem isCodeUnit_iff {digits : List Char} {unit : Nat} :
    IsCodeUnit digits unit ↔ FourDigits digits ∧ codeUnit digits = unit := by
  constructor
  · rintro ⟨first, second, third, fourth⟩
    obtain ⟨isFirst, rfl⟩ := mem_hexDigits_iff.mp first
    obtain ⟨isSecond, rfl⟩ := mem_hexDigits_iff.mp second
    obtain ⟨isThird, rfl⟩ := mem_hexDigits_iff.mp third
    obtain ⟨isFourth, rfl⟩ := mem_hexDigits_iff.mp fourth
    refine ⟨⟨rfl, ?_⟩, Grammar.codeUnit_four _ _ _ _⟩
    simp only [List.mem_cons, List.not_mem_nil, or_false, forall_eq_or_imp, forall_eq]
    exact ⟨isFirst, isSecond, isThird, isFourth⟩
  · rintro ⟨⟨length, hex⟩, rfl⟩
    match digits, length with
    | [first, second, third, fourth], _ =>
        have known {c : Char} (member : c ∈ [first, second, third, fourth]) :
            (c, Grammar.hexValue.hexDigit c) ∈ hexDigits :=
          mem_hexDigits_iff.mpr ⟨hex c member, rfl⟩
        rw [Grammar.codeUnit_four]
        exact .digits (known (by simp)) (known (by simp)) (known (by simp)) (known (by simp))

theorem IsCodeUnit.length_eq {digits : List Char} {unit : Nat} (isUnit : IsCodeUnit digits unit) :
    digits.length = 4 :=
  (isCodeUnit_iff.mp isUnit).1.1

/-- The code unit of a surrogate, which denotes no character of its own. -/
def IsSurrogate (unit : Nat) : Prop := 0xD800 ≤ unit ∧ unit < 0xE000

instance : DecidablePred IsSurrogate := fun _ => inferInstanceAs (Decidable (_ ∧ _))

theorem not_isSurrogate (c : Char) : ¬ IsSurrogate c.toNat := by
  rintro ⟨above, below⟩
  have valid : c.toNat < 0xD800 ∨ 0xDFFF < c.toNat ∧ c.toNat < 0x110000 := c.valid
  omega

structure IsPair (high low : Nat) (c : Char) : Prop where
  high_ge : 0xD800 ≤ high
  high_lt : high < 0xDC00
  low_ge : 0xDC00 ≤ low
  low_lt : low < 0xE000
  toNat_eq : c.toNat = 0x10000 + (high - 0xD800) * 0x400 + (low - 0xDC00)

theorem toNat_ofNat {point : Nat} (valid : point.isValidChar) :
    (Char.ofNat point).toNat = point := by
  rw [Char.ofNat, dif_pos valid]
  rfl

/-- The code point of two surrogates is that of a character. -/
theorem isPair_ofNat {high low : Nat} (above : 0xD800 ≤ high) (below : high < 0xDC00)
    (aboveToo : 0xDC00 ≤ low) (belowToo : low < 0xE000) :
    IsPair high low (Char.ofNat (0x10000 + (high - 0xD800) * 0x400 + (low - 0xDC00))) := by
  refine ⟨above, below, aboveToo, belowToo, toNat_ofNat (.inr ⟨?_, ?_⟩)⟩ <;> omega

inductive Spells : Char → List Char → Prop where
  | raw {c : Char} : Unescaped c → Spells c [c]
  | short {symbol c : Char} : (symbol, c) ∈ shortEscapes → Spells c ['\\', symbol]
  | unit {c : Char} {digits : List Char} : IsCodeUnit digits c.toNat →
      Spells c ('\\' :: 'u' :: digits)
  | pair {c : Char} {high low : Nat} {digits digitsToo : List Char} : IsCodeUnit digits high →
      IsCodeUnit digitsToo low → IsPair high low c →
      Spells c ('\\' :: 'u' :: (digits ++ '\\' :: 'u' :: digitsToo))

def SpellsAll (text content : List Char) : Prop :=
  ∃ spellings, List.Forall₂ Spells text spellings ∧ content = spellings.flatten

def Quotes (literal : List Char) (text : String) : Prop :=
  ∃ content, SpellsAll text.toList content ∧ literal = '"' :: (content ++ ['"'])

variable {c d : Char} {one other rest more : List Char}

theorem spells_iff : Spells c one ↔ Unescaped c ∧ one = [c] ∨ IsEscape one c := by
  constructor
  · intro spells
    cases spells with
    | raw plain => exact .inl ⟨plain, rfl⟩
    | short known => exact .inr (.short known)
    | unit isUnit =>
        obtain ⟨four, value⟩ := isCodeUnit_iff.mp isUnit
        have escape := IsEscape.point four (by rw [value]; exact c.valid)
        rw [value, Char.ofNat_toNat] at escape
        exact .inr escape
    | pair isUnit isUnitToo isPair =>
        obtain ⟨four, rfl⟩ := isCodeUnit_iff.mp isUnit
        obtain ⟨fourToo, rfl⟩ := isCodeUnit_iff.mp isUnitToo
        have escape := IsEscape.surrogates four fourToo isPair.high_ge isPair.high_lt
          isPair.low_ge isPair.low_lt
        rw [← isPair.toNat_eq, Char.ofNat_toNat] at escape
        exact .inr escape
  · rintro (⟨plain, rfl⟩ | isEscape)
    · exact .raw plain
    · cases isEscape with
      | short known => exact .short known
      | point four valid =>
          exact .unit (isCodeUnit_iff.mpr ⟨four, (toNat_ofNat valid).symm⟩)
      | surrogates four fourToo above below aboveToo belowToo =>
          exact .pair (isCodeUnit_iff.mpr ⟨four, rfl⟩) (isCodeUnit_iff.mpr ⟨fourToo, rfl⟩)
            (isPair_ofNat above below aboveToo belowToo)

theorem spellsAll_iff {text content : List Char} :
    SpellsAll text content ↔ IsContent content text := by
  constructor
  · rintro ⟨spellings, all, rfl⟩
    induction all with
    | nil => exact .nil
    | cons spells _ ih =>
        rw [List.flatten_cons]
        rcases spells_iff.mp spells with ⟨plain, rfl⟩ | isEscape
        · exact .unescaped plain ih
        · exact .escape isEscape ih
  · intro isContent
    induction isContent with
    | nil => exact ⟨[], .nil, rfl⟩
    | unescaped plain _ ih =>
        obtain ⟨spellings, all, rfl⟩ := ih
        exact ⟨[_] :: spellings, .cons (.raw plain) all, rfl⟩
    | escape isEscape _ ih =>
        obtain ⟨spellings, all, rfl⟩ := ih
        exact ⟨_ :: spellings, .cons (spells_iff.mpr (.inr isEscape)) all, rfl⟩

theorem quotes_iff {literal : List Char} {text : String} :
    Quotes literal text ↔ IsString literal text := by
  constructor
  · rintro ⟨content, all, rfl⟩
    have quoted := IsString.quoted (spellsAll_iff.mp all)
    rwa [String.ofList_toList] at quoted
  · rintro ⟨isContent⟩
    exact ⟨_, spellsAll_iff.mpr (by rwa [String.toList_ofList]), rfl⟩

/-- The number of characters of the spelling at the front, as its first six characters tell. -/
def spellingLength : List Char → Nat
  | '\\' :: 'u' :: rest => if IsSurrogate (codeUnit (rest.take 4)) then 12 else 6
  | '\\' :: _ => 2
  | _ => 1

theorem IsCodeUnit.codeUnit_take {digits : List Char} {unit : Nat}
    (isUnit : IsCodeUnit digits unit) (rest : List Char) :
    codeUnit ((digits ++ rest).take 4) = unit := by
  rw [List.take_left' isUnit.length_eq]
  exact (isCodeUnit_iff.mp isUnit).2

theorem Spells.spellingLength_append (spells : Spells c one) (rest : List Char) :
    spellingLength (one ++ rest) = one.length := by
  cases spells with
  | raw plain =>
      unfold spellingLength
      split
      · next same => exact absurd (List.cons.inj same).1 plain.2.2
      · next same => exact absurd (List.cons.inj same).1 plain.2.2
      · rfl
  | @short symbol _ known =>
      have other : symbol ≠ 'u' := by
        rintro rfl
        simp [shortEscapes] at known
      unfold spellingLength
      split
      · next same => exact absurd (List.cons.inj (List.cons.inj same).2).1 other
      · rfl
      · next differs => exact absurd rfl (differs _)
  | unit isUnit =>
      rw [List.cons_append, List.cons_append, spellingLength, isUnit.codeUnit_take,
        if_neg (not_isSurrogate c), List.length_cons, List.length_cons, isUnit.length_eq]
  | pair isUnit isUnitToo isPair =>
      have surrogate : IsSurrogate _ := ⟨isPair.high_ge, isPair.high_lt.trans (by decide)⟩
      rw [List.cons_append, List.cons_append, List.append_assoc, spellingLength,
        isUnit.codeUnit_take, if_pos surrogate]
      simp only [List.length_cons, List.length_append, isUnit.length_eq, isUnitToo.length_eq]

/-- No spelling is the beginning of another one. -/
theorem Spells.eq_of_append_eq (spells : Spells c one) (spellsToo : Spells d other)
    (same : one ++ rest = other ++ more) : one = other := by
  refine List.append_inj_left same ?_
  rw [← spells.spellingLength_append rest, same, spellsToo.spellingLength_append]

theorem Spells.head_ne (spells : Spells c one) : one ++ rest ≠ '"' :: more := by
  intro same
  cases spells with
  | raw plain => exact plain.2.1 (List.cons.inj same).1
  | _ => exact absurd (List.cons.inj same).1 (by decide)

/-- The code unit is a surrogate, and if it is a high one no escape of a low one follows it. -/
def Misplaced (unit : Nat) (rest : List Char) : Prop :=
  IsSurrogate unit ∧ (unit < 0xDC00 → ∀ digits low, IsCodeUnit digits low → 0xDC00 ≤ low →
    low < 0xE000 → ¬ '\\' :: 'u' :: digits <+: rest)

variable {digits : List Char} {unit : Nat}

theorem Misplaced.not_spelled (misplaced : Misplaced unit rest) (isUnit : IsCodeUnit digits unit)
    (spells : Spells c one) : one ++ more ≠ '\\' :: 'u' :: (digits ++ rest) := by
  intro same
  have digits_eq {digitsToo after : List Char} {unitToo : Nat}
      (isUnitToo : IsCodeUnit digitsToo unitToo) (sameToo : digitsToo ++ after = digits ++ rest) :
      unitToo = unit ∧ after = rest := by
    obtain ⟨rfl, rfl⟩ :=
      List.append_inj sameToo (isUnitToo.length_eq.trans isUnit.length_eq.symm)
    exact ⟨(isCodeUnit_iff.mp isUnitToo).2.symm.trans (isCodeUnit_iff.mp isUnit).2, rfl⟩
  cases spells with
  | raw plain => exact plain.2.2 (List.cons.inj same).1
  | short known =>
      rw [(List.cons.inj (List.cons.inj same).2).1] at known
      simp [shortEscapes] at known
  | unit isUnitToo =>
      obtain ⟨rfl, -⟩ := digits_eq isUnitToo (List.cons.inj (List.cons.inj same).2).2
      exact not_isSurrogate c misplaced.1
  | @pair _ _ _ _ digitsToo isUnitToo isLow isPair =>
      have after := (List.cons.inj (List.cons.inj same).2).2
      rw [List.append_eq, List.append_assoc] at after
      obtain ⟨rfl, follows⟩ := digits_eq isUnitToo after
      exact misplaced.2 isPair.high_lt _ _ isLow isPair.low_ge isPair.low_lt ⟨more, follows⟩

/-- No literal goes on with the escape of a misplaced surrogate after what it spells. -/
theorem Misplaced.not_quoted {text textToo content contentToo : List Char}
    (misplaced : Misplaced unit rest) (isUnit : IsCodeUnit digits unit)
    (spelled : SpellsAll text content) (quoted : SpellsAll textToo contentToo) :
    contentToo ++ '"' :: more ≠ content ++ '\\' :: 'u' :: (digits ++ rest) := by
  obtain ⟨spellings, all, rfl⟩ := spelled
  obtain ⟨spellingsToo, allToo, rfl⟩ := quoted
  -- Both begin with the same spellings, so one after the other is taken away from both.
  induction all generalizing textToo spellingsToo with
  | nil =>
      intro same
      cases allToo with
      | nil => exact absurd (List.cons.inj same).1 (by decide)
      | cons spells _ =>
          rw [List.flatten_cons, List.append_assoc] at same
          exact misplaced.not_spelled isUnit spells same
  | cons spells _ ih =>
      intro same
      rw [List.flatten_cons, List.append_assoc] at same
      cases allToo with
      | nil => exact spells.head_ne same.symm
      | cons spellsToo allToo =>
          rw [List.flatten_cons, List.append_assoc] at same
          rw [spellsToo.eq_of_append_eq spells same] at same
          exact ih _ allToo (List.append_cancel_left same)

end Packrat.Json
