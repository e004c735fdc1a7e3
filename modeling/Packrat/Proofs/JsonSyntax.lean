import Packrat.Json.Grammar
import Packrat.Proofs.TextReading

/-!
# The syntax of JSON

The grammar of RFC 8259 as relations between characters and what they denote.  It is free of
any order in which alternatives are tried.  A number denotes the double of its literal, which
always exists, and an object keeps the last of the members that have a key.
-/

namespace Packrat.Json

def Blanks (chars : List Char) : Prop := ∀ c ∈ chars, c ∈ [' ', '\t', '\n', '\r']

theorem noBlanks : Blanks [] := fun _ none => absurd none List.not_mem_nil

def Digits (chars : List Char) : Prop := chars ≠ [] ∧ ∀ c ∈ chars, IsDigit c

/-- A whole part: zero, or digits of which the first is not zero. -/
inductive IsWhole : List Char → Prop where
  | zero : IsWhole ['0']
  | positive {c : Char} {digits : List Char} : IsDigit c → c ≠ '0' → (∀ d ∈ digits, IsDigit d) →
      IsWhole (c :: digits)

inductive IsFraction : List Char → Prop where
  | absent : IsFraction []
  | present {digits : List Char} : Digits digits → IsFraction ('.' :: digits)

inductive IsExponent : List Char → Prop where
  | absent : IsExponent []
  | present {mark : Char} {sign digits : List Char} : mark ∈ ['e', 'E'] →
      sign ∈ [[], ['+'], ['-']] → Digits digits → IsExponent (mark :: (sign ++ digits))

inductive IsNumber : List Char → Prop where
  | parts {minus whole fraction exponent : List Char} : minus ∈ [[], ['-']] → IsWhole whole →
      IsFraction fraction → IsExponent exponent →
      IsNumber (minus ++ (whole ++ (fraction ++ exponent)))

theorem isDigit_iff (c : Char) : c.isDigit = true ↔ IsDigit c := by
  simp only [Char.isDigit, IsDigit, Char.le_def, Bool.and_eq_true, decide_eq_true_eq]

theorem IsWhole.digits {whole : List Char} (isWhole : IsWhole whole) : Digits whole := by
  cases isWhole with
  | zero => exact ⟨List.cons_ne_nil _ _, forall_mem_of_all (by decide)⟩
  | positive first _ more =>
      refine ⟨List.cons_ne_nil _ _, fun d member => ?_⟩
      rcases List.mem_cons.mp member with rfl | member
      · exact first
      · exact more d member

/-- What follows the digits of a number is no digit. -/
theorem IsExponent.head {exponent : List Char} (isExponent : IsExponent exponent) {c : Char}
    (first : exponent.head? = some c) : c ∈ ['e', 'E'] := by
  cases isExponent with
  | absent => cases first
  | present mark _ _ =>
      cases first
      exact mark

theorem mark_not_digit {c : Char} (mark : c ∈ ['e', 'E']) : c.isDigit = false := by
  simp only [List.mem_cons, List.not_mem_nil, or_false] at mark
  rcases mark with rfl | rfl <;> decide

theorem Digits.isDigit {digits : List Char} (all : Digits digits) :
    ∀ c ∈ digits, c.isDigit = true := fun c member => (isDigit_iff c).mpr (all.2 c member)

theorem Digits.append {one other : List Char} (first : Digits one) (second : Digits other) :
    Digits (one ++ other) := by
  refine ⟨List.append_ne_nil_of_left_ne_nil first.1 _, fun c member => ?_⟩
  rcases List.mem_append.mp member with member | member
  · exact first.2 c member
  · exact second.2 c member

theorem Digits.first {digits rest : List Char} (all : Digits digits) {c : Char}
    (first : (digits ++ rest).head? = some c) : IsDigit c := by
  cases digits with
  | nil => exact absurd rfl all.1
  | cons d digits =>
      cases first
      exact all.2 _ List.mem_cons_self

theorem Digits.readDigits? {digits : List Char} (all : Digits digits) :
    Signed.readDigits? digits = some (Signed.digitsValue digits) := by
  refine if_pos ?_
  rw [Bool.and_eq_true]
  exact ⟨by simpa using all.1, List.all_eq_true.mpr all.isDigit⟩

theorem IsExponent.readExponent {exponent : List Char} (isExponent : IsExponent exponent) :
    ∃ power, Double.readExponent exponent = some power := by
  cases isExponent with
  | absent => exact ⟨0, rfl⟩
  | @present mark sign digits marked signed all =>
      have isMark : (mark = 'e' || mark = 'E') = true := by simpa using marked
      have read := all.readDigits?
      simp only [List.mem_cons, List.not_mem_nil, or_false] at signed
      rcases signed with rfl | rfl | rfl
      · have noSign (c : Char) (sign : ¬ IsDigit c) (rest : List Char) : digits ≠ c :: rest := by
          rintro rfl
          exact sign (all.2 c List.mem_cons_self)
        refine ⟨Signed.digitsValue digits, ?_⟩
        rw [List.nil_append, Double.readExponent, if_pos isMark, read]
        · rfl
        · exact noSign '+' (by decide)
        · exact noSign '-' (by decide)
      · refine ⟨Signed.digitsValue digits, ?_⟩
        rw [List.singleton_append, Double.readExponent, if_pos isMark, read]
        rfl
      · refine ⟨-Signed.digitsValue digits, ?_⟩
        rw [List.singleton_append, Double.readExponent, if_pos isMark, read]
        rfl

theorem dropWhile_append {accepts : Char → Bool} {run rest : List Char}
    (all : ∀ c ∈ run, accepts c = true) (other : ∀ c, rest.head? = some c → accepts c = false) :
    (run ++ rest).dropWhile accepts = rest := by
  have split := List.takeWhile_append_dropWhile (p := accepts) (l := run ++ rest)
  rw [takeWhile_append all other] at split
  exact List.append_cancel_left split

/-- An unsigned literal is read digit by digit: those of the fraction count less than one. -/
theorem IsWhole.readMagnitude {whole fraction exponent : List Char} {power : Int}
    (isWhole : IsWhole whole) (isFraction : IsFraction fraction) (isExponent : IsExponent exponent)
    (read : Double.readExponent exponent = some power) :
    Double.readMagnitude (whole ++ (fraction ++ exponent)) =
      some (Double.ofDecimal (Signed.digitsValue (whole ++ fraction.tail))
        (power - fraction.tail.length)) := by
  have noDigit (c : Char) (first : exponent.head? = some c) : c.isDigit = false :=
    mark_not_digit (isExponent.head first)
  unfold Double.readMagnitude
  cases isFraction with
  | absent =>
      rw [List.nil_append, takeWhile_append isWhole.digits.isDigit noDigit,
        dropWhile_append isWhole.digits.isDigit noDigit]
      dsimp only
      split
      · next rest => exact absurd (isExponent.head (show _ = some '.' from rfl)) (by decide)
      · rw [read, isWhole.digits.readDigits?, List.tail_nil, List.append_nil]
        simp only [Option.bind_eq_bind, Option.bind_some, List.length_nil, Int.natCast_zero,
          Int.sub_zero]
  | @present digits all =>
      have point (c : Char) (first : (('.' :: digits) ++ exponent).head? = some c) :
          c.isDigit = false := by
        cases first
        decide
      rw [takeWhile_append isWhole.digits.isDigit point,
        dropWhile_append isWhole.digits.isDigit point]
      simp only [List.cons_append]
      rw [takeWhile_append all.isDigit noDigit, dropWhile_append all.isDigit noDigit, read]
      have both : Digits (whole ++ digits) := isWhole.digits.append all
      rw [both.readDigits?]
      rfl

theorem ofLiteral?_signed {chars : List Char} {code : Nat} (negative : Bool)
    (starts : ∀ c, chars.head? = some c → IsDigit c)
    (read : Double.readMagnitude chars = some code) :
    Double.ofLiteral? (String.ofList ((if negative then ['-'] else []) ++ chars)) =
      some ⟨negative, code⟩ := by
  rw [Double.ofLiteral?, String.toList_ofList]
  cases negative with
  | false =>
      rw [if_neg Bool.false_ne_true, List.nil_append]
      split
      · next rest => exact absurd (starts '-' rfl) (by decide)
      · rw [read, Option.map_some]
  | true => exact congrArg (Option.map _) read

/-- Every number literal has a double. -/
theorem IsNumber.exists_double {literal : List Char} (number : IsNumber literal) :
    ∃ double, Double.ofLiteral? (String.ofList literal) = some double := by
  cases number with
  | @parts minus whole fraction exponent signed isWhole isFraction isExponent =>
      obtain ⟨power, readPower⟩ := isExponent.readExponent
      have read := isWhole.readMagnitude isFraction isExponent readPower
      have starts (c : Char) (first : (whole ++ (fraction ++ exponent)).head? = some c) :
          IsDigit c := isWhole.digits.first first
      simp only [List.mem_cons, List.not_mem_nil, or_false] at signed
      rcases signed with rfl | rfl
      · exact ⟨_, ofLiteral?_signed false starts read⟩
      · exact ⟨_, ofLiteral?_signed true starts read⟩

def IsNumber.double {literal : List Char} (number : IsNumber literal) : Double :=
  (Double.ofLiteral? (String.ofList literal)).get (by
    obtain ⟨double, read⟩ := number.exists_double
    rw [read]
    rfl)

theorem IsNumber.ofLiteral? {literal : List Char} (number : IsNumber literal) :
    Double.ofLiteral? (String.ofList literal) = some number.double :=
  (Option.some_get _).symm

/-! ## Strings -/

def shortEscapes : List (Char × Char) :=
  [('"', '"'), ('\\', '\\'), ('/', '/'), ('b', '\x08'), ('f', '\x0c'), ('n', '\n'), ('r', '\r'),
    ('t', '\t')]

def isHexDigit (c : Char) : Bool :=
  c.isDigit || ('A' ≤ c && c ≤ 'F') || ('a' ≤ c && c ≤ 'f')

def FourDigits (digits : List Char) : Prop :=
  digits.length = 4 ∧ ∀ c ∈ digits, isHexDigit c = true

def codeUnit (digits : List Char) : Nat := Grammar.hexValue (String.ofList digits)

/-- An escape denotes a character, by a symbol, by its code point or by two surrogates. -/
inductive IsEscape : List Char → Char → Prop where
  | short {symbol c : Char} : (symbol, c) ∈ shortEscapes → IsEscape ['\\', symbol] c
  | point {digits : List Char} : FourDigits digits → (codeUnit digits).isValidChar →
      IsEscape ('\\' :: 'u' :: digits) (Char.ofNat (codeUnit digits))
  | surrogates {high low : List Char} : FourDigits high → FourDigits low →
      0xD800 ≤ codeUnit high → codeUnit high < 0xDC00 →
      0xDC00 ≤ codeUnit low → codeUnit low < 0xE000 →
      IsEscape ('\\' :: 'u' :: (high ++ '\\' :: 'u' :: low))
        (Char.ofNat (0x10000 + (codeUnit high - 0xD800) * 0x400 + (codeUnit low - 0xDC00)))

def Unescaped (c : Char) : Prop := 0x20 ≤ c.toNat ∧ c ≠ '"' ∧ c ≠ '\\'

inductive IsContent : List Char → List Char → Prop where
  | nil : IsContent [] []
  | unescaped {c : Char} {content text : List Char} : Unescaped c → IsContent content text →
      IsContent (c :: content) (c :: text)
  | escape {escape content text : List Char} {c : Char} : IsEscape escape c →
      IsContent content text → IsContent (escape ++ content) (c :: text)

theorem IsEscape.ne_nil {escape : List Char} {c : Char} (isEscape : IsEscape escape c) :
    escape ≠ [] := by
  cases isEscape <;> exact List.cons_ne_nil _ _

/-- Content starts with unescaped characters, and goes on with an escape or ends. -/
theorem IsContent.span {content decoded : List Char} (isContent : IsContent content decoded) :
    ∃ run rest more, content = run ++ rest ∧ decoded = run ++ more ∧ (∀ c ∈ run, Unescaped c) ∧
      IsContent rest more ∧ ∀ c, rest.head? = some c → c = '\\' := by
  induction isContent with
  | nil => exact ⟨[], [], [], rfl, rfl, nofun, .nil, nofun⟩
  | @unescaped c _ _ plain _ ih =>
      obtain ⟨run, rest, more, rfl, rfl, all, isContent, starts⟩ := ih
      refine ⟨c :: run, rest, more, rfl, rfl, fun d member => ?_, isContent, starts⟩
      rcases List.mem_cons.mp member with rfl | member
      · exact plain
      · exact all d member
  | @escape escape _ _ c isEscape isContent _ =>
      refine ⟨[], _, _, rfl, rfl, nofun, .escape isEscape isContent, fun d first => ?_⟩
      cases isEscape <;> exact (Option.some.inj first).symm

inductive IsString : List Char → String → Prop where
  | quoted {content text : List Char} : IsContent content text →
      IsString ('"' :: (content ++ ['"'])) (String.ofList text)

/-- Items after a first one, with a comma before each of them and blanks before every token. -/
inductive Commas : List (List Char) → List Char → Prop where
  | nil : Commas [] []
  | cons {before after item chars : List Char} {items : List (List Char)} : Blanks before →
      Blanks after → Commas items chars →
      Commas (item :: items) (before ++ ',' :: (after ++ (item ++ chars)))

inductive Listed : List (List Char) → List Char → Prop where
  | nil : Listed [] []
  | cons {before item chars : List Char} {items : List (List Char)} : Blanks before →
      Commas items chars → Listed (item :: items) (before ++ (item ++ chars))

/-- The members of an object by their keys, each as the last of the given ones with its key. -/
structure LastWins {β : Type} (members held : List (String × β)) : Prop where
  ordered : held.Pairwise fun one other => one.1 < other.1
  last : ∀ key, held.lookup key = members.reverse.lookup key

section Members

variable {β : Type} {key other : String} {value : β} {held rest : List (String × β)}

theorem lookup_cons_eq : ((other, value) :: rest).lookup key =
    if key = other then some value else rest.lookup key := by
  rw [List.lookup_cons]
  split
  · next same => rw [if_pos (beq_iff_eq.mp same)]
  · next different => rw [if_neg (beq_eq_false_iff_ne.mp different)]

theorem lt_of_not_lt (above : ¬ key < other) (different : key ≠ other) : other < key :=
  Decidable.byContradiction fun below =>
    different (String.le_antisymm (String.not_lt.mp below) (String.not_lt.mp above))

theorem lookup_putMember (held : List (String × β)) :
    (putMember other value held).lookup key =
      if key = other then some value else held.lookup key := by
  induction held with
  | nil => exact lookup_cons_eq
  | cons member held ih =>
      rw [putMember]
      split
      · exact lookup_cons_eq
      · split
        · next same =>
            rw [lookup_cons_eq, lookup_cons_eq, same]
            split <;> rfl
        · next different =>
            rw [lookup_cons_eq, lookup_cons_eq, ih]
            split
            · next same => rw [if_neg fun equal => different (equal.symm.trans same)]
            · rfl

theorem mem_putMember {one : String × β} (member : one ∈ putMember key value held) :
    one.1 = key ∨ one ∈ held := by
  induction held with
  | nil => exact .inl (congrArg Prod.fst (List.mem_singleton.mp member))
  | cons first held ih =>
      rw [putMember] at member
      split at member
      · rcases List.mem_cons.mp member with rfl | member
        · exact .inl rfl
        · exact .inr member
      · split at member
        · rcases List.mem_cons.mp member with rfl | member
          · exact .inl rfl
          · exact .inr (List.mem_cons_of_mem _ member)
        · rcases List.mem_cons.mp member with rfl | member
          · exact .inr List.mem_cons_self
          · exact (ih member).imp_right (List.mem_cons_of_mem _)

theorem putMember_ordered (ordered : held.Pairwise fun one other => one.1 < other.1) :
    (putMember key value held).Pairwise fun one other => one.1 < other.1 := by
  induction held with
  | nil => exact List.pairwise_singleton _ _
  | cons first held ih =>
      obtain ⟨below, orderedHeld⟩ := List.pairwise_cons.mp ordered
      rw [putMember]
      split
      · next before =>
          refine List.pairwise_cons.mpr ⟨fun one member => ?_, ordered⟩
          rcases List.mem_cons.mp member with rfl | member
          · exact before
          · exact String.lt_trans before (below one member)
      · next above =>
          split
          · next same => exact List.pairwise_cons.mpr ⟨by rwa [same], orderedHeld⟩
          · next different =>
              refine List.pairwise_cons.mpr ⟨fun one member => ?_, ih orderedHeld⟩
              rcases mem_putMember member with equal | member
              · rw [equal]
                exact lt_of_not_lt above different
              · exact below one member

/-- Ordered members are those that the last of them win. -/
theorem orderMembers_lastWins (members : List (String × β)) :
    LastWins members (orderMembers members) := by
  have folds (members done : List (String × β)) (held : List (String × β))
      (wins : LastWins done held) : LastWins (done ++ members)
        (members.foldl (fun ordered member => putMember member.1 member.2 ordered) held) := by
    induction members generalizing done held with
    | nil => rwa [List.append_nil]
    | cons member members ih =>
        have next := ih (done ++ [member]) (putMember member.1 member.2 held)
          ⟨putMember_ordered wins.ordered, fun key => by
            rw [lookup_putMember, List.reverse_append, List.reverse_singleton,
              List.singleton_append, lookup_cons_eq, wins.last]⟩
        rwa [List.append_assoc] at next
  exact folds members [] [] ⟨.nil, fun _ => rfl⟩

theorem lookup_eq_none (above : ∀ one ∈ held, key < one.1) : held.lookup key = none := by
  induction held with
  | nil => rfl
  | cons first held ih =>
      have different : key ≠ first.1 := fun same =>
        String.lt_irrefl _ (same ▸ above first List.mem_cons_self)
      rw [lookup_cons_eq, if_neg different]
      exact ih fun one member => above one (List.mem_cons_of_mem _ member)

theorem not_lt_first {found : β}
    (ordered : ((other, value) :: rest).Pairwise fun one other => one.1 < other.1)
    (finds : ((other, value) :: rest).lookup key = some found) : ¬ key < other := by
  intro before
  have none : ((other, value) :: rest).lookup key = none := lookup_eq_none fun one member => by
    rcases List.mem_cons.mp member with rfl | member
    · exact before
    · exact String.lt_trans before ((List.pairwise_cons.mp ordered).1 one member)
  cases none.symm.trans finds

/-- Ordered members are determined by what is found under keys. -/
theorem eq_of_lookup_eq {one two : List (String × β)}
    (ordered : one.Pairwise fun one other => one.1 < other.1)
    (orderedToo : two.Pairwise fun one other => one.1 < other.1)
    (same : ∀ key, one.lookup key = two.lookup key) : one = two := by
  induction one generalizing two with
  | nil =>
      cases two with
      | nil => rfl
      | cons member two =>
          have finds := same member.1
          rw [lookup_cons_eq, if_pos rfl] at finds
          cases finds
  | cons member one ih =>
      obtain ⟨key, value⟩ := member
      have finds : ((key, value) :: one).lookup key = some value := by
        rw [lookup_cons_eq, if_pos rfl]
      cases two with
      | nil => cases (same key).symm.trans finds
      | cons memberToo two =>
          obtain ⟨other, valueToo⟩ := memberToo
          have findsToo : ((other, valueToo) :: two).lookup other = some valueToo := by
            rw [lookup_cons_eq, if_pos rfl]
          have equal : key = other := String.le_antisymm
            (String.not_lt.mp (not_lt_first ordered ((same other).trans findsToo)))
            (String.not_lt.mp (not_lt_first orderedToo ((same key).symm.trans finds)))
          subst equal
          cases finds.symm.trans ((same key).trans findsToo)
          refine congrArg _ (ih ordered.of_cons orderedToo.of_cons fun place => ?_)
          by_cases here : place = key
          · rw [here, lookup_eq_none (List.pairwise_cons.mp ordered).1,
              lookup_eq_none (List.pairwise_cons.mp orderedToo).1]
          · have elsewhere := same place
            rwa [lookup_cons_eq, lookup_cons_eq, if_neg here, if_neg here] at elsewhere

theorem lastWins_iff {members : List (String × β)} :
    LastWins members held ↔ held = orderMembers members := by
  have wins := orderMembers_lastWins members
  constructor
  · intro winsToo
    exact eq_of_lookup_eq winsToo.ordered wins.ordered fun key =>
      (winsToo.last key).trans (wins.last key).symm
  · rintro rfl
    exact wins

end Members

structure Member where
  literal : List Char
  key : String
  before : List Char
  after : List Char
  chars : List Char
  value : Json
  named : IsString literal key
  blanksBefore : Blanks before
  blanksAfter : Blanks after

def Member.spelled (member : Member) : List Char :=
  member.literal ++ (member.before ++ ':' :: (member.after ++ member.chars))

def Member.entry (member : Member) : String × Json := (member.key, member.value)

inductive IsValue : List Char → Json → Prop where
  | null : IsValue "null".toList .null
  | yes : IsValue "true".toList (.bool true)
  | no : IsValue "false".toList (.bool false)
  | number {literal : List Char} (number : IsNumber literal) :
      IsValue literal (.number number.double)
  | string {literal : List Char} {text : String} : IsString literal text →
      IsValue literal (.string text)
  | array (items : List (List Char × Json)) {chars blanks : List Char} :
      (∀ item ∈ items, IsValue item.1 item.2) → Listed (items.map Prod.fst) chars →
      Blanks blanks → IsValue ('[' :: (chars ++ (blanks ++ [']']))) (.array (items.map Prod.snd))
  | object (members : List Member) {chars blanks : List Char} {held : List (String × Json)} :
      (∀ member ∈ members, IsValue member.chars member.value) →
      Listed (members.map Member.spelled) chars → Blanks blanks →
      LastWins (members.map Member.entry) held →
      IsValue ('\x7b' :: (chars ++ (blanks ++ ['\x7d']))) (.object held)

/-- A JSON text: a value with blanks around it. -/
inductive IsDocument : List Char → Json → Prop where
  | value {before chars after : List Char} {json : Json} : Blanks before → IsValue chars json →
      Blanks after → IsDocument (before ++ (chars ++ after)) json

theorem IsValue.isDocument {chars : List Char} {json : Json} (isValue : IsValue chars json) :
    IsDocument chars json := by
  have isDocument := IsDocument.value noBlanks isValue noBlanks
  rwa [List.nil_append, List.append_nil] at isDocument

end Packrat.Json
