import Mathlib
import Packrat.Proofs.CharacterSets
import Packrat.Proofs.JsonSyntax

/-!
# Escapes by number

The pattern of escapes by number is a row of sets and marks, and a second row that may follow.
Instructions of a row are written from the last to the first one, so a row is followed down to
its end without meeting an instruction that was tried before.  The second row is then either
passed as a whole or left out.
-/

namespace Packrat.Regex

inductive Item where
  | read (set : CharSet)
  | mark (slot : Nat)

namespace Item

def instruction : Item → Nat → Instruction
  | read set, next => .read set next
  | mark slot, next => .mark slot next

def pass : Item → Place → Marks → Option (Place × Marks)
  | read set, ⟨_, index, c :: rest⟩, marks =>
      if set.contains c then some (⟨some c, index + 1, rest⟩, marks) else none
  | read _, ⟨_, _, []⟩, _ => none
  | mark slot, place, marks => some (place, marks.put slot place.index)

def passAll : List Item → Place → Marks → Option (Place × Marks)
  | [], place, marks => some (place, marks)
  | item :: items, place, marks =>
      (item.pass place marks).bind fun (place, marks) => passAll items place marks

theorem passAll_nil {place : Place} {marks : Marks} {reached : Place × Marks} :
    passAll [] place marks = some reached ↔ reached = (place, marks) := by
  rw [passAll, Option.some.injEq, eq_comm]

theorem passAll_mark {slot : Nat} {items : List Item} {place : Place} {marks : Marks}
    {reached : Place × Marks} : passAll (.mark slot :: items) place marks = some reached ↔
      passAll items place (marks.put slot place.index) = some reached := Iff.rfl

theorem passAll_read {set : CharSet} {items : List Item} {before : Option Char} {index : Nat}
    {chars : List Char} {marks : Marks} {reached : Place × Marks} :
    passAll (.read set :: items) ⟨before, index, chars⟩ marks = some reached ↔
      ∃ c rest, chars = c :: rest ∧ set.contains c = true ∧
        passAll items ⟨some c, index + 1, rest⟩ marks = some reached := by
  cases chars with
  | nil => simp [passAll, pass]
  | cons c rest =>
      simp only [passAll, pass, List.cons.injEq]
      split <;> simp_all

/-- The items stand in a program one above the other, the last one above the instruction `last`. -/
def Row (instructions : Array Instruction) (last : Nat) : List Item → Prop
  | [] => True
  | item :: items =>
      instructions[last + items.length + 1]? = some (item.instruction (last + items.length)) ∧
        Row instructions last items

instance Row.decidable (instructions : Array Instruction) (last : Nat) :
    (items : List Item) → Decidable (Row instructions last items)
  | [] => inferInstanceAs (Decidable True)
  | _ :: items =>
      have := Row.decidable instructions last items
      inferInstanceAs (Decidable (_ ∧ _))

end Item

open Item

/-- No instruction up to the given one was tried at any place. -/
def Untried (size number : Nat) (tried : Std.HashSet Nat) : Prop :=
  ∀ key ∈ tried, number < key % size

variable {instructions : Array Instruction} {tried : Std.HashSet Nat}

theorem Untried.insert {size number lower : Nat} (untried : Untried size number tried)
    (below : lower < number) (inside : number < size) (index : Nat) :
    Untried size lower (tried.insert (index * size + number)) := by
  intro key member
  rw [Std.HashSet.mem_insert, beq_iff_eq] at member
  rcases member with rfl | member
  · rwa [Nat.mul_add_mod_self_right, Nat.mod_eq_of_lt inside]
  · exact below.trans (untried key member)

theorem Untried.fresh {size number : Nat} (untried : Untried size number tried)
    (inside : number < size) (index : Nat) : ¬ tried.contains (index * size + number) = true := by
  intro member
  have beyond := untried _ (Std.HashSet.mem_iff_contains.mpr member)
  rw [Nat.mul_add_mod_self_right, Nat.mod_eq_of_lt inside] at beyond
  exact Nat.lt_irrefl _ beyond

theorem follow_goOn {number : Nat} {place : Place} {marks : Marks} {instruction : Instruction}
    {threads : List Thread} (fuel : Nat) (rest : List Thread)
    (untried : Untried instructions.size number tried)
    (found : instructions[number]? = some instruction)
    (turn : Thread.turn ⟨number, place, marks⟩ instruction = .goOn threads) :
    follow instructions (fuel + 1) tried (⟨number, place, marks⟩ :: rest) =
      follow instructions fuel (tried.insert (place.index * instructions.size + number))
        (threads ++ rest) := by
  have fresh := untried.fresh (Array.getElem?_eq_some_iff.mp found).choose place.index
  simp only [follow, if_neg fresh, found, turn]

theorem follow_accept {number : Nat} {place : Place} {marks : Marks} (fuel : Nat)
    (rest : List Thread) (untried : Untried instructions.size number tried)
    (found : instructions[number]? = some .accept) :
    follow instructions (fuel + 1) tried (⟨number, place, marks⟩ :: rest) =
      some ⟨number, place, marks⟩ := by
  have fresh := untried.fresh (Array.getElem?_eq_some_iff.mp found).choose place.index
  simp only [follow, if_neg fresh, found, Thread.turn]

theorem Item.turn (item : Item) (number next : Nat) (place : Place) (marks : Marks) :
    Thread.turn ⟨number, place, marks⟩ (item.instruction next) =
      .goOn ((item.pass place marks).map fun (place, marks) => ⟨next, place, marks⟩).toList := by
  obtain ⟨before, index, ahead⟩ := place
  cases item with
  | mark slot => rfl
  | read set =>
      cases ahead with
      | nil => rfl
      | cons c rest =>
          simp only [instruction, Thread.turn, pass]
          split <;> rfl

/-- A row is passed as a whole, or it is given up with everything below it still untried. -/
theorem follow_row {items : List Item} {last : Nat} (row : Row instructions last items)
    (untried : Untried instructions.size (last + items.length) tried) (fuel : Nat) (place : Place)
    (marks : Marks) (rest : List Thread) :
    ∃ spare tried', Untried instructions.size last tried' ∧
      follow instructions (fuel + items.length) tried
          (⟨last + items.length, place, marks⟩ :: rest) =
        follow instructions (fuel + spare) tried'
          (((passAll items place marks).map fun (place, marks) => ⟨last, place, marks⟩).toList ++
            rest) := by
  induction items generalizing tried place marks with
  | nil => exact ⟨0, tried, untried, rfl⟩
  | cons item items ih =>
      obtain ⟨found, row⟩ := row
      have inside := (Array.getElem?_eq_some_iff.mp found).choose
      have later := untried.insert (Nat.lt_succ_self _) inside place.index
      have step := follow_goOn (fuel + items.length) rest untried found (item.turn _ _ place marks)
      cases passed : item.pass place marks with
      | none =>
          refine ⟨items.length, _, fun key member =>
            (Nat.le_add_right last items.length).trans_lt (later key member), step.trans ?_⟩
          simp only [passAll, passed, Option.bind_none, Option.map_none, Option.toList_none]
      | some reached =>
          obtain ⟨spare, tried', untried', same⟩ := ih row later reached.1 reached.2
          refine ⟨spare, tried', untried', step.trans ?_⟩
          simpa only [passAll, passed, Option.bind_some, Option.map_some, Option.toList_some,
            List.singleton_append] using same

/-- A row that another one may follow: the longer way is preferred. -/
theorem match?_of_rows {code : Code} {head tail : List Item} {place : Place}
    (entry : code.entry = tail.length + 1 + head.length)
    (headRow : Row code.instructions (tail.length + 1) head)
    (fork : code.instructions[tail.length + 1]? = some (.fork [tail.length, 0]))
    (tailRow : Row code.instructions 0 tail) (accept : code.instructions[0]? = some .accept)
    (enough : head.length + tail.length ≤ wayCount code.instructions) :
    code.match? place = (passAll head place []).map fun (place, marks) =>
      match passAll tail place marks with
      | some (place, marks) => ⟨0, place, marks⟩
      | none => ⟨0, place, marks⟩ := by
  obtain ⟨fuel, fuel_eq⟩ : ∃ fuel, (place.ahead.length + 1) * wayCount code.instructions + 2 =
      fuel + tail.length + 2 + head.length := by
    have once : wayCount code.instructions ≤
        (place.ahead.length + 1) * wayCount code.instructions :=
      Nat.le_mul_of_pos_left _ (Nat.succ_pos _)
    exact ⟨(place.ahead.length + 1) * wayCount code.instructions - tail.length - head.length,
      by omega⟩
  obtain ⟨spare, tried, untried, passed⟩ := follow_row headRow
    (fun _ none => absurd none Std.HashSet.not_mem_emptyWithCapacity) (fuel + tail.length + 2) place
    [] []
  have regrouped : fuel + tail.length + 2 + spare = fuel + spare + 1 + tail.length + 1 := by omega
  rw [Code.match?, fuel_eq, entry, passed, List.append_nil, regrouped]
  cases passAll head place [] with
  | none => simp only [Option.map_none, Option.toList_none, follow]
  | some reached =>
      obtain ⟨middle, marks⟩ := reached
      have later := untried.insert (Nat.lt_succ_self _)
        (Array.getElem?_eq_some_iff.mp fork).choose middle.index
      rw [← Nat.zero_add tail.length] at later
      obtain ⟨more, triedToo, untriedToo, passedToo⟩ := follow_row tailRow later
        (fuel + spare + 1) middle marks [⟨0, middle, marks⟩]
      rw [Nat.zero_add] at passedToo
      simp only [Option.map_some, Option.toList_some]
      rw [follow_goOn _ _ untried fork rfl]
      refine passedToo.trans ?_
      have regroupedToo : fuel + spare + 1 + more = fuel + spare + more + 1 := by omega
      rw [regroupedToo]
      cases passAll tail middle marks with
      | none => exact follow_accept _ _ untriedToo accept
      | some => exact follow_accept _ _ untriedToo accept

end Packrat.Regex

namespace Packrat.Json.Grammar

open Regex Regex.Item

def hexSet : CharSet := ⟨#[⟨0x30, 0x39⟩, ⟨0x41, 0x46⟩, ⟨0x61, 0x66⟩]⟩

def escapeRegex : Regex :=
  .concat (.group 1 (.repetition 4 (some 4) true (.one hexSet)))
    (.repetition 0 (some 1) true
      (.concat (.one ⟨#[.single '\\']⟩) (.concat (.one ⟨#[.single 'u']⟩)
        (.group 2 (.concat (.one ⟨#[.single 'D', .single 'd']⟩)
          (.concat (.one ⟨#[⟨0x43, 0x46⟩, ⟨0x63, 0x66⟩]⟩)
            (.repetition 2 (some 2) true (.one hexSet))))))))

theorem compiledEscape_eq : compiledEscape = .ok ⟨escapeRegex.program, 2⟩ := by cbv

def numberItems : List Item :=
  [.mark 2, .read hexSet, .read hexSet, .read hexSet, .read hexSet, .mark 3]

def lowItems : List Item :=
  [.read ⟨#[.single '\\']⟩, .read ⟨#[.single 'u']⟩, .mark 4,
    .read ⟨#[.single 'D', .single 'd']⟩, .read ⟨#[⟨0x43, 0x46⟩, ⟨0x63, 0x66⟩]⟩,
    .read hexSet, .read hexSet, .mark 5]

theorem match?_escape (place : Place) : escapeRegex.program.match? place =
    (passAll numberItems place []).map fun (place, marks) =>
      match passAll lowItems place marks with
      | some (place, marks) => ⟨0, place, marks⟩
      | none => ⟨0, place, marks⟩ :=
  match?_of_rows rfl (by decide) rfl (by decide) rfl (by decide)

def fourDigits? (chars : List Char) : Option (List Char) :=
  let digits := chars.take 4
  if digits.length = 4 && digits.all isHexDigit then some digits else none

def isLowSurrogate : List Char → Bool
  | 'd' :: second :: _ => isLowSecond second
  | 'D' :: second :: _ => isLowSecond second
  | _ => false
where
  isLowSecond (c : Char) : Bool := ('c' ≤ c && c ≤ 'f') || ('C' ≤ c && c ≤ 'F')

/--
The digits of an escape by number at the front of characters, if it is that of a low surrogate.
-/
def lowSurrogateEscape? : List Char → Option (List Char)
  | '\\' :: 'u' :: rest => (fourDigits? rest).filter isLowSurrogate
  | _ => none

theorem fourDigits?_eq_some_iff {chars digits : List Char} : fourDigits? chars = some digits ↔
    FourDigits digits ∧ ∃ rest, chars = digits ++ rest := by
  unfold fourDigits?
  simp only [Bool.and_eq_true, decide_eq_true_eq, List.all_eq_true, Option.ite_none_right_eq_some,
    Option.some.injEq]
  constructor
  · rintro ⟨four, rfl⟩
    exact ⟨four, chars.drop 4, (List.take_append_drop 4 chars).symm⟩
  · rintro ⟨four, rest, rfl⟩
    rw [List.take_left' four.1]
    exact ⟨four, rfl⟩

theorem lowSurrogateEscape?_eq_some_iff {chars low : List Char} :
    lowSurrogateEscape? chars = some low ↔
    FourDigits low ∧ isLowSurrogate low = true ∧ ∃ rest, chars = '\\' :: 'u' :: (low ++ rest) := by
  constructor
  · intro found
    unfold lowSurrogateEscape? at found
    split at found
    · obtain ⟨digits, isLow⟩ := Option.filter_eq_some_iff.mp found
      obtain ⟨four, rest, rfl⟩ := fourDigits?_eq_some_iff.mp digits
      exact ⟨four, isLow, rest, rfl⟩
    · cases found
  · rintro ⟨four, isLow, rest, rfl⟩
    exact Option.filter_eq_some_iff.mpr ⟨fourDigits?_eq_some_iff.mpr ⟨four, rest, rfl⟩, isLow⟩

theorem contains_listed {ranges : List CodeRange} (ascending : CharSet.Ascending ranges)
    (c : Char) : CharSet.contains ⟨ranges.toArray⟩ c = true ↔ CharSet.Cover ranges c.toNat :=
  CharSet.contains_iff ascending c

@[simp]
theorem contains_hexSet (c : Char) : hexSet.contains c = isHexDigit c := by
  rw [Bool.eq_iff_iff, hexSet, contains_listed ⟨by decide, by decide⟩]
  simp only [CharSet.cover_cons, CharSet.cover_nil, CodeRange.Covers, isHexDigit, Bool.or_eq_true,
    Bool.and_eq_true, decide_eq_true_eq, Char.isDigit, Char.le_def, UInt32.le_iff_toNat_le,
    or_false, or_assoc]
  exact Iff.rfl

@[simp]
theorem contains_single (c symbol : Char) :
    CharSet.contains ⟨#[.single symbol]⟩ c = true ↔ c = symbol := by
  rw [contains_listed ⟨by simp [CodeRange.single], by simp⟩]
  simp only [CharSet.cover_cons, CharSet.cover_nil, CodeRange.Covers, CodeRange.single, or_false]
  rw [← Nat.le_antisymm_iff, Char.toNat_inj]
  exact eq_comm

@[simp]
theorem contains_cases (c : Char) :
    CharSet.contains ⟨#[.single 'D', .single 'd']⟩ c = true ↔ c = 'D' ∨ c = 'd' := by
  rw [contains_listed ⟨by decide, by decide⟩]
  simp only [CharSet.cover_cons, CharSet.cover_nil, CodeRange.Covers, CodeRange.single, or_false,
    ← Nat.le_antisymm_iff, Char.toNat_inj, eq_comm]

@[simp]
theorem contains_lowSecond (c : Char) :
    CharSet.contains ⟨#[⟨0x43, 0x46⟩, ⟨0x63, 0x66⟩]⟩ c = isLowSurrogate.isLowSecond c := by
  rw [Bool.eq_iff_iff, contains_listed ⟨by decide, by decide⟩]
  simp only [CharSet.cover_cons, CharSet.cover_nil, CodeRange.Covers, isLowSurrogate.isLowSecond,
    Bool.or_eq_true, Bool.and_eq_true, decide_eq_true_eq, Char.le_def, UInt32.le_iff_toNat_le,
    or_false]
  exact or_comm

theorem passAll_number (before : Option Char) (chars : List Char) :
    passAll numberItems ⟨before, 0, chars⟩ [] = (fourDigits? chars).map fun _ =>
      (⟨chars[3]?, 4, chars.drop 4⟩, [(3, 4), (2, 0)]) := by
  ext reached
  simp only [numberItems, passAll_mark, passAll_read, passAll_nil, contains_hexSet,
    Option.map_eq_some_iff, fourDigits?_eq_some_iff]
  constructor
  · rintro ⟨a, _, rfl, hexA, b, _, rfl, hexB, c, _, rfl, hexC, d, rest, rfl, hexD, rfl⟩
    exact ⟨[a, b, c, d], ⟨⟨rfl, by simp [hexA, hexB, hexC, hexD]⟩, rest, rfl⟩, rfl⟩
  · rintro ⟨digits, ⟨⟨length, hex⟩, rest, rfl⟩, rfl⟩
    match digits, length with
    | [a, b, c, d], _ =>
        simp only [List.mem_cons, List.not_mem_nil, or_false, forall_eq_or_imp, forall_eq] at hex
        obtain ⟨hexA, hexB, hexC, hexD⟩ := hex
        exact ⟨a, _, rfl, hexA, b, _, rfl, hexB, c, _, rfl, hexC, d, _, rfl, hexD, rfl⟩

theorem isLowSurrogate_cons {first second : Char} {rest : List Char} :
    isLowSurrogate (first :: second :: rest) = true ↔
      (first = 'd' ∨ first = 'D') ∧ isLowSurrogate.isLowSecond second = true := by
  unfold isLowSurrogate
  split
  · next same =>
      cases same
      exact (and_iff_right (.inl rfl)).symm
  · next same =>
      cases same
      exact (and_iff_right (.inr rfl)).symm
  · next lower upper =>
      refine ⟨nofun, fun found => ?_⟩
      rcases found.1 with rfl | rfl
      · exact absurd rfl (lower second rest)
      · exact absurd rfl (upper second rest)

theorem isHexDigit_of_lowSecond {c : Char} (low : isLowSurrogate.isLowSecond c = true) :
    isHexDigit c = true := by
  have lower : 'a' ≤ 'c' := by decide
  have upper : 'A' ≤ 'C' := by decide
  simp only [isLowSurrogate.isLowSecond, isHexDigit, Bool.or_eq_true, Bool.and_eq_true,
    decide_eq_true_eq] at low ⊢
  rcases low with ⟨above, below⟩ | ⟨above, below⟩
  · exact .inr ⟨Char.le_trans lower above, below⟩
  · exact .inl (.inr ⟨Char.le_trans upper above, below⟩)

theorem passAll_low (before : Option Char) (chars : List Char) :
    passAll lowItems ⟨before, 4, chars⟩ [(3, 4), (2, 0)] = (lowSurrogateEscape? chars).map fun _ =>
      (⟨chars[5]?, 10, chars.drop 6⟩, [(5, 10), (4, 6), (3, 4), (2, 0)]) := by
  ext reached
  simp only [lowItems, passAll_mark, passAll_read, passAll_nil, contains_hexSet, contains_single,
    contains_cases, contains_lowSecond, Option.map_eq_some_iff, lowSurrogateEscape?_eq_some_iff]
  constructor
  · rintro ⟨_, _, rfl, rfl, _, _, rfl, rfl, a, _, rfl, thirteen, b, _, rfl, twelve, c, _, rfl, hexC,
      d, rest, rfl, hexD, rfl⟩
    have hexA : isHexDigit a = true := by rcases thirteen with rfl | rfl <;> rfl
    have hexB := isHexDigit_of_lowSecond twelve
    exact ⟨[a, b, c, d], ⟨⟨rfl, by simp [hexA, hexB, hexC, hexD]⟩,
      isLowSurrogate_cons.mpr ⟨thirteen.symm, twelve⟩, rest, rfl⟩, rfl⟩
  · rintro ⟨digits, ⟨⟨length, hex⟩, isLow, rest, rfl⟩, rfl⟩
    match digits, length with
    | [a, b, c, d], _ =>
        obtain ⟨thirteen, twelve⟩ := isLowSurrogate_cons.mp isLow
        simp only [List.mem_cons, List.not_mem_nil, or_false, forall_eq_or_imp, forall_eq] at hex
        obtain ⟨-, -, hexC, hexD⟩ := hex
        exact ⟨_, _, rfl, rfl, _, _, rfl, rfl, a, _, rfl, thirteen.symm, b, _, rfl, twelve, c, _,
          rfl, hexC, d, _, rfl, hexD, rfl⟩

/-- The match of the pattern, read off the characters. -/
theorem numberedEscape_eq {text : Text} {position : Nat} {chars : List Char}
    (here : text.rest position = some chars) :
    numberedEscape text position = (fourDigits? chars).map fun high =>
      match lowSurrogateEscape? (chars.drop 4) with
      | some low =>
          ⟨String.ofList (chars.take 10), [some (String.ofList high), some (String.ofList low)]⟩
      | none => ⟨String.ofList high, [some (String.ofList high), none]⟩ := by
  rw [numberedEscape, compiledEscape_eq]
  simp only [Except.toOption, Option.bind_eq_bind, Option.bind_some, Pattern.matchAt, here,
    match?_escape, passAll_number]
  cases found : fourDigits? chars with
  | none => rfl
  | some high =>
      obtain ⟨four, rest, split⟩ := fourDigits?_eq_some_iff.mp found
      have first : chars.take 4 = high := split ▸ List.take_left' four.1
      have dropped : chars.drop 4 = rest := split ▸ List.drop_left' four.1
      simp only [Option.map_some, Option.bind_some, dropped, passAll_low]
      -- The marks are numbers, so which characters stand between them is computed.
      cases after : lowSurrogateEscape? rest with
      | none =>
          change some (Captures.mk (String.ofList (chars.take 4))
            [some (String.ofList (chars.take 4)), none]) = _
          rw [first]
      | some low =>
          obtain ⟨fourToo, -, more, rfl⟩ := lowSurrogateEscape?_eq_some_iff.mp after
          have second : (chars.drop 6).take 4 = low := by
            rw [← List.drop_drop (i := 2), dropped]
            exact List.take_left' fourToo.1
          change some (Captures.mk (String.ofList (chars.take 10))
            [some (String.ofList (chars.take 4)), some (String.ofList ((chars.drop 6).take 4))]) = _
          rw [first, second]

theorem rest_of_numberedEscape {text : Text} {position : Nat} {found : Captures}
    (finds : numberedEscape text position = some found) :
    ∃ chars, text.rest position = some chars := by
  rw [numberedEscape, compiledEscape_eq, Option.bind_eq_bind] at finds
  change Pattern.matchAt ⟨escapeRegex.program, 2⟩ text position = some found at finds
  obtain ⟨chars, rest, -⟩ := Option.bind_eq_some_iff.mp finds
  exact ⟨chars, rest⟩

end Packrat.Json.Grammar
