import Packrat.Proofs.DoubleNotation
import Packrat.Proofs.Lexers
import Packrat.Proofs.TextCalculator

/-!
# Lexing undoes rendering

A source that renders tokens, with space around them and between any two numbers, is cut into
these tokens again.  Conversely a source that can be cut at all is such a rendering: a step that
cuts off a token finds a rendering of it, and what it leaves does not go on with a digit.
-/

namespace Packrat.Calculator

open Json

def Space (chars : List Char) : Prop := ∀ c ∈ chars, c ∈ [' ', '\t', '\n', '\x0c']

namespace Token

/-- Characters stand for a token: its sign, or digits of its number after any zeros. -/
inductive Renders : Token → List Char → Prop where
  | sign {token : Token} {c : Char} : token.sign? = some c → token.Renders [c]
  | number {n : Nat} {digits : List Char} : Digits digits → Signed.digitsValue digits = n →
      n ≤ 2147483647 → (number n).Renders digits

def InRange : Token → Prop
  | number n => 0 ≤ n ∧ n ≤ 2147483647
  | _ => True

def word : Token → List Char
  | number n => Double.digitsOf n.toNat
  | token => token.sign?.toList

theorem renders_word {token : Token} (inRange : token.InRange) : token.Renders token.word := by
  cases token with
  | number n =>
      obtain ⟨small, large⟩ := inRange
      obtain ⟨n, rfl⟩ := Int.eq_ofNat_of_zero_le small
      exact .number (Double.digits_digitsOf n) (Double.digitsValue_digitsOf n) (by omega)
  | _ => exact .sign rfl

namespace Renders

variable {token : Token} {word : List Char}

theorem ne_nil (renders : token.Renders word) : word ≠ [] := by
  cases renders with
  | sign _ => exact List.cons_ne_nil _ _
  | number all _ _ => exact all.1

theorem eq_sign {c : Char} (renders : token.Renders word) (sign : token.sign? = some c) :
    word = [c] := by
  cases renders with
  | sign same => rw [Option.some.inj (same.symm.trans sign)]
  | number _ _ _ => cases sign

theorem digits (renders : token.Renders word) (number : token.sign? = none) : Digits word := by
  cases renders with
  | sign same => cases same.symm.trans number
  | number all _ _ => exact all

end Renders

end Token

/-- A token with the characters that stand for it and the space after it. -/
structure Lexeme where
  token : Token
  word : List Char
  blanks : List Char

namespace Lexeme

def chars (lexeme : Lexeme) : List Char := lexeme.word ++ lexeme.blanks

structure Sound (lexeme : Lexeme) : Prop where
  renders : lexeme.token.Renders lexeme.word
  space : Space lexeme.blanks

/-- There is space between numbers. -/
def Apart (one other : Lexeme) : Prop :=
  one.token.sign? = none → other.token.sign? = none → one.blanks ≠ []

end Lexeme

/-- Lexemes after leading space, with space between numbers. -/
structure Laid (lead : List Char) (lexemes : List Lexeme) : Prop where
  space : Space lead
  sound : ∀ lexeme ∈ lexemes, lexeme.Sound
  apart : lexemes.IsChain Lexeme.Apart

def rendered (lead : List Char) (lexemes : List Lexeme) : List Char :=
  lead ++ lexemes.flatMap Lexeme.chars

def spansFrom (offset : Nat) : List Lexeme → List Span
  | [] => []
  | lexeme :: rest =>
      ⟨offset, offset + byteLength lexeme.word⟩ :: spansFrom (offset + byteLength lexeme.chars) rest

/-- Tokens that were cut off before, followed by those of lexemes that start at an offset. -/
def extended (lexed : Lexed Token) (offset : Nat) (lexemes : List Lexeme) : Lexed Token :=
  ⟨lexed.tokens ++ (lexemes.map Lexeme.token).toArray,
    lexed.spans ++ (spansFrom offset lexemes).toArray⟩

section Characters

variable {c : Char} {token : Token} {n : Int} {digits rest : List Char}

theorem isBlank_iff : Token.isBlank c = true ↔ c ∈ [' ', '\t', '\n', '\x0c'] := by
  simp [Token.isBlank, or_assoc]

theorem ofCharacter?_eq_some_iff :
    Token.ofCharacter? c = some token ↔ token.sign? = some c := by
  constructor
  · intro same
    unfold Token.ofCharacter? at same
    split at same <;> cases same <;> rfl
  · intro same
    cases token <;> cases same <;> rfl

theorem isDecimalDigit_of_small (small : c.toNat < 128) :
    Unicode.isDecimalDigit c = true ↔ IsDigit c := by
  have entry : Unicode.isDecimalDigit c = decide (IsDigit c) := by
    apply forall_ascii c small
    decide +kernel
  rw [entry, decide_eq_true_iff]

theorem isDecimalDigit_of_isDigit (digit : IsDigit c) : Unicode.isDecimalDigit c = true := by
  refine (isDecimalDigit_of_small ?_).mpr digit
  exact Nat.lt_of_le_of_lt digit.2 (by decide)

theorem not_isDecimalDigit (small : c.toNat < 128) (other : ¬ IsDigit c) :
    Unicode.isDecimalDigit c = false :=
  Bool.eq_false_iff.mpr fun digit => other ((isDecimalDigit_of_small small).mp digit)

theorem not_isDecimalDigit_of_space (space : c ∈ [' ', '\t', '\n', '\x0c']) :
    Unicode.isDecimalDigit c = false := by
  have all : ∀ c ∈ [' ', '\t', '\n', '\x0c'], c.toNat < 128 ∧ ¬ IsDigit c :=
    forall_mem_of_all (by decide)
  exact not_isDecimalDigit (all c space).1 (all c space).2

theorem not_isDecimalDigit_of_sign (sign : token.sign? = some c) :
    Unicode.isDecimalDigit c = false := by
  refine not_isDecimalDigit ?_ (Token.plain_of_sign? sign).2
  cases token <;> cases sign <;> decide

theorem not_space_of_sign (sign : token.sign? = some c) : Token.isBlank c = false := by
  cases token <;> cases sign <;> rfl

theorem not_space_of_isDigit (digit : IsDigit c) : Token.isBlank c = false := by
  rw [Bool.eq_false_iff]
  intro blank
  have other := not_isDecimalDigit_of_space (isBlank_iff.mp blank)
  rw [isDecimalDigit_of_isDigit digit] at other
  cases other

theorem ofCharacter?_of_isDigit (digit : IsDigit c) : Token.ofCharacter? c = none :=
  Option.eq_none_iff_forall_ne_some.mpr fun _ same =>
    (Token.plain_of_sign? (ofCharacter?_eq_some_iff.mp same)).2 digit

theorem readDigits?_eq_some_iff {value : Nat} :
    Signed.readDigits? digits = some value ↔ Digits digits ∧ Signed.digitsValue digits = value := by
  constructor
  · intro read
    obtain ⟨shape, same⟩ := Option.ite_none_right_eq_some.mp read
    simp only [Bool.and_eq_true, Bool.not_eq_true', List.isEmpty_eq_false_iff, List.all_eq_true]
      at shape
    exact ⟨⟨shape.1, fun c member => (isDigit_iff c).mp (shape.2 c member)⟩, Option.some.inj same⟩
  · rintro ⟨all, rfl⟩
    exact all.readDigits?

theorem fits_ofNat_iff {value : Nat} :
    Signed.fits 32 (Int.ofNat value) = true ↔ value ≤ 2147483647 := by
  have bound : (Signed.bound 32 : Int) = 2147483648 := by decide
  simp only [Signed.fits, bound, Bool.and_eq_true, decide_eq_true_eq, Int.ofNat_eq_natCast]
  omega

/-- A text that starts with no sign is read as its digits denote. -/
theorem read?_eq_some_iff (noMinus : c ≠ '-') (noPlus : c ≠ '+') :
    Signed.read? 32 (String.ofList (c :: rest)) = some n ↔
      Token.Renders (.number n) (c :: rest) := by
  have unsigned : Signed.read? 32 (String.ofList (c :: rest)) =
      ((Signed.readDigits? (c :: rest)).map Int.ofNat).filter (Signed.fits 32) := by
    rw [Signed.read?, String.toList_ofList]
    split
    · next same => exact absurd (List.cons.inj same).1 noMinus
    · next same => exact absurd (List.cons.inj same).1 noPlus
    · rfl
  rw [unsigned, Option.filter_eq_some_iff, Option.map_eq_some_iff]
  constructor
  · rintro ⟨⟨value, read, rfl⟩, fits⟩
    obtain ⟨all, same⟩ := readDigits?_eq_some_iff.mp read
    exact .number all same (fits_ofNat_iff.mp fits)
  · intro renders
    cases renders with
    | sign sign => cases sign
    | @number value _ all same small =>
        exact ⟨⟨value, readDigits?_eq_some_iff.mpr ⟨all, same⟩, rfl⟩, fits_ofNat_iff.mpr small⟩

end Characters

/-! ## Steps of the lexer -/

section Steps

variable {offset more : Nat} {lexed result : Lexed Token} {c : Char} {lead rest word : List Char}
  {token : Token} {lexemes : List Lexeme}

def Breaks (rest : List Char) : Prop :=
  ∀ c, rest.head? = some c → Unicode.isDecimalDigit c = false

theorem cut_blank (blank : c ∈ [' ', '\t', '\n', '\x0c']) :
    Token.lexer.cut c rest = .skipped 0 :=
  if_pos (isBlank_iff.mpr blank)

/-- A token is cut off where its characters end, unless more digits follow a number. -/
theorem cut_word {chars : List Char} (renders : token.Renders (c :: chars))
    (breaks : token.sign? = none → Breaks rest) :
    Token.lexer.cut c (chars ++ rest) = .token token chars.length := by
  cases renders with
  | sign sign =>
      have found : Token.ofCharacter? c = some token := ofCharacter?_eq_some_iff.mpr sign
      simp [Token.lexer, not_space_of_sign sign, found]
  | number all same small =>
      obtain ⟨digit, digits⟩ := List.forall_mem_cons.mp all.2
      have whole : ∀ d ∈ chars, Unicode.isDecimalDigit d = true :=
        fun d member => isDecimalDigit_of_isDigit (digits d member)
      have noSign (sign : Char) (plain : ¬ IsDigit sign) : c ≠ sign := by
        rintro rfl
        exact plain digit
      have read := (read?_eq_some_iff (noSign '-' (by decide)) (noSign '+' (by decide))).mpr
        (.number all same small)
      simp only [Token.lexer, not_space_of_isDigit digit, Bool.false_eq_true, if_false,
        ofCharacter?_of_isDigit digit, if_pos (isDecimalDigit_of_isDigit digit),
        takeWhile_append whole (breaks rfl), read]

theorem blank_of_cut (cut : Token.lexer.cut c rest = .skipped more) :
    c ∈ [' ', '\t', '\n', '\x0c'] ∧ more = 0 := by
  simp only [Token.lexer] at cut
  split at cut
  · next blank =>
      cases cut
      exact ⟨isBlank_iff.mp blank, rfl⟩
  · split at cut
    · cases cut
    · split at cut
      · split at cut <;> cases cut
      · cases cut

/-- What is cut off as a token stands for it, and no digit is left that could belong to it. -/
theorem renders_of_cut (cut : Token.lexer.cut c rest = .token token more) :
    token.Renders (c :: rest.take more) ∧ (token.sign? = none → Breaks (rest.drop more)) := by
  simp only [Token.lexer] at cut
  split at cut
  · cases cut
  split at cut
  · next found =>
      cases cut
      have sign := ofCharacter?_eq_some_iff.mp found
      refine ⟨.sign sign, fun number => ?_⟩
      cases sign.symm.trans number
  next plain =>
  have noSign (token : Token) (sign : Char) (itself : token.sign? = some sign) : c ≠ sign := by
    rintro rfl
    rw [ofCharacter?_eq_some_iff.mpr itself] at plain
    cases plain
  split at cut
  · split at cut
    · next read =>
        cases cut
        have whole := List.takeWhile_append_dropWhile (p := Unicode.isDecimalDigit) (l := rest)
        have taken := (congrArg (List.take _) whole).symm.trans List.take_left
        have dropped := (congrArg (List.drop _) whole).symm.trans List.drop_left
        rw [taken, dropped]
        refine ⟨(read?_eq_some_iff (noSign .minus '-' rfl) (noSign .plus '+' rfl)).mp read,
          fun _ d first => ?_⟩
        have kept := List.head?_dropWhile_not Unicode.isDecimalDigit rest
        rw [first] at kept
        simpa using kept
    · cases cut
  · cases cut

theorem lexFrom_space (space : Space lead) :
    Token.lexer.lexFrom offset lexed (lead ++ rest) =
      Token.lexer.lexFrom (offset + byteLength lead) lexed rest := by
  induction lead generalizing offset with
  | nil => rfl
  | cons c lead ih =>
      obtain ⟨blank, space⟩ := List.forall_mem_cons.mp space
      rw [List.cons_append, Lexer.lexFrom_skipped (cut_blank blank), List.take_zero,
        List.drop_zero, ih space, byteLength_cons, byteLength_cons, Nat.add_assoc]
      rfl

theorem lexFrom_word (renders : token.Renders word)
    (breaks : token.sign? = none → Breaks rest) :
    Token.lexer.lexFrom offset lexed (word ++ rest) =
      Token.lexer.lexFrom (offset + byteLength word)
        (lexed.push token ⟨offset, offset + byteLength word⟩) rest := by
  obtain ⟨c, chars, rfl⟩ := List.exists_cons_of_ne_nil renders.ne_nil
  rw [List.cons_append, Lexer.lexFrom_token (cut_word renders breaks), List.take_left,
    List.drop_left]

/-- What is rendered after a number does not go on with a digit. -/
theorem Laid.breaks {lexeme : Lexeme} (laid : Laid lead (lexeme :: lexemes))
    (number : lexeme.token.sign? = none) : Breaks (rendered lexeme.blanks lexemes) := by
  intro c first
  have sound := laid.sound lexeme List.mem_cons_self
  cases blanks : lexeme.blanks with
  | cons d blanks =>
      rw [blanks] at first
      cases first
      exact not_isDecimalDigit_of_space (sound.space c (by simp [blanks]))
  | nil =>
      rw [blanks] at first
      cases lexemes with
      | nil => cases first
      | cons next lexemes =>
          have renders := (laid.sound next (by simp)).renders
          have apart := (List.isChain_cons_cons.mp laid.apart).1
          cases sign : next.token.sign? with
          | none => exact absurd blanks (apart number sign)
          | some d =>
              rw [rendered, List.flatMap_cons, Lexeme.chars, renders.eq_sign sign] at first
              cases first
              exact not_isDecimalDigit_of_sign sign

theorem Laid.tail {lexeme : Lexeme} (laid : Laid lead (lexeme :: lexemes)) :
    Laid lexeme.blanks lexemes where
  space := (laid.sound lexeme List.mem_cons_self).space
  sound other member := laid.sound other (List.mem_cons_of_mem lexeme member)
  apart := laid.apart.tail

theorem rendered_cons (lead : List Char) (lexeme : Lexeme) (lexemes : List Lexeme) :
    rendered lead (lexeme :: lexemes) =
      lead ++ (lexeme.word ++ rendered lexeme.blanks lexemes) := by
  simp only [rendered, List.flatMap_cons, Lexeme.chars, List.append_assoc]

theorem push_extended (offset : Nat) (lexed : Lexed Token) (lexeme : Lexeme)
    (lexemes : List Lexeme) :
    extended (lexed.push lexeme.token ⟨offset, offset + byteLength lexeme.word⟩)
        (offset + byteLength lexeme.word + byteLength lexeme.blanks) lexemes =
      extended lexed offset (lexeme :: lexemes) := by
  simp [extended, Lexed.push, spansFrom, Lexeme.chars, byteLength_append, Nat.add_assoc]

theorem lexFrom_rendered (laid : Laid lead lexemes) :
    Token.lexer.lexFrom offset lexed (rendered lead lexemes) =
      .ok (extended lexed (offset + byteLength lead) lexemes) := by
  induction lexemes generalizing offset lexed lead with
  | nil =>
      rw [rendered, lexFrom_space laid.space, List.flatMap_nil, Lexer.lexFrom_nil]
      simp [extended, spansFrom]
  | cons lexeme lexemes ih =>
      have sound := laid.sound lexeme List.mem_cons_self
      rw [rendered_cons, lexFrom_space laid.space, lexFrom_word sound.renders laid.breaks,
        ih laid.tail, push_extended]

/-- A lexeme in front of others, with the space that led them. -/
theorem Laid.cons (laid : Laid lead lexemes) (renders : token.Renders word)
    (breaks : token.sign? = none → Breaks (rendered lead lexemes)) :
    Laid [] (⟨token, word, lead⟩ :: lexemes) where
  space := List.forall_mem_nil _
  sound := List.forall_mem_cons.mpr ⟨⟨renders, laid.space⟩, laid.sound⟩
  apart := by
    refine List.isChain_cons.mpr ⟨fun next first number numberToo => ?_, laid.apart⟩
    -- Without space the digits of the next number would go on with those of this one.
    rintro rfl
    obtain ⟨lexemes, rfl⟩ := List.head?_eq_some_iff.mp first
    have digits := (laid.sound next List.mem_cons_self).renders.digits numberToo
    obtain ⟨c, more, same⟩ := List.exists_cons_of_ne_nil digits.1
    have ends : Unicode.isDecimalDigit c = false := by
      apply breaks number
      rw [rendered_cons, same]
      rfl
    rw [isDecimalDigit_of_isDigit (digits.2 c (by simp [same]))] at ends
    cases ends

/-- What can be cut into tokens renders them. -/
theorem exists_laid {chars : List Char}
    (done : Token.lexer.lexFrom offset lexed chars = .ok result) :
    ∃ lead lexemes, Laid lead lexemes ∧ chars = rendered lead lexemes ∧
      result = extended lexed (offset + byteLength lead) lexemes := by
  fun_induction Lexer.lexFrom Token.lexer offset lexed chars with
  | case1 offset lexed =>
      cases done
      exact ⟨[], [], ⟨List.forall_mem_nil _, List.forall_mem_nil _, .nil⟩, rfl,
        by simp [extended, spansFrom]⟩
  | case2 offset lexed c rest more cut ih =>
      obtain ⟨lead, lexemes, laid, same, rfl⟩ := ih done
      obtain ⟨blank, rfl⟩ := blank_of_cut cut
      rw [List.drop_zero] at same
      refine ⟨c :: lead, lexemes, ⟨?_, laid.sound, laid.apart⟩, by rw [same]; rfl, ?_⟩
      · exact List.forall_mem_cons.mpr ⟨blank, laid.space⟩
      · rw [List.take_zero, byteLength_cons, byteLength_cons, Nat.add_assoc]
        rfl
  | case3 offset lexed c rest token more cut stop ih =>
      obtain ⟨lead, lexemes, laid, same, rfl⟩ := ih done
      obtain ⟨renders, breaks⟩ := renders_of_cut cut
      rw [same] at breaks
      refine ⟨[], _, laid.cons renders breaks, ?_, ?_⟩
      · rw [rendered_cons, ← same, List.nil_append, List.cons_append, List.take_append_drop]
      · exact push_extended offset lexed ⟨token, c :: rest.take more, lead⟩ lexemes
  | case4 => cases done

theorem lex_rendered (laid : Laid lead lexemes) :
    lex (String.ofList (rendered lead lexemes)) =
      .ok (extended .empty (byteLength lead) lexemes) := by
  rw [lex, Lexer.lex, String.toList_ofList, lexFrom_rendered laid, Nat.zero_add]

theorem lex_eq_ok_iff {source : String} :
    lex source = .ok result ↔ ∃ lead lexemes, Laid lead lexemes ∧
      source.toList = rendered lead lexemes ∧
      result = extended .empty (byteLength lead) lexemes := by
  constructor
  · intro done
    obtain ⟨lead, lexemes, laid, same, rfl⟩ := exists_laid done
    exact ⟨lead, lexemes, laid, same, by rw [Nat.zero_add]⟩
  · rintro ⟨lead, lexemes, laid, same, rfl⟩
    rw [← lex_rendered laid, ← same, String.ofList_toList]

end Steps

/-! ## Tokens and their spans -/

/-- Tokens and spans that account for all of a source. -/
structure Accounts (lexed : Lexed Token) (source : String) : Prop where
  paired : lexed.tokens.size = lexed.spans.size
  nonempty : ∀ span ∈ lexed.spans.toList, span.start < span.stop
  apart : lexed.spans.toList.Pairwise fun one other => one.stop ≤ other.start
  renders : ∀ (index : Nat) (token : Token) (span : Span), lexed.tokens[index]? = some token →
    lexed.spans[index]? = some span →
      ∃ word, (Text.ofString source).Between span.start word span.stop ∧ token.Renders word
  /-- A character whose offset lies in no span is dropped. -/
  space : ∀ (before after : List Char) (c : Char), source.toList = before ++ c :: after →
    (∀ span ∈ lexed.spans.toList, byteLength before < span.start ∨ span.stop ≤ byteLength before) →
      c ∈ [' ', '\t', '\n', '\x0c']

section Spans

variable {offset index : Nat} {lead chars before after : List Char} {lexeme : Lexeme}
  {lexemes : List Lexeme} {span : Span} {c : Char}

theorem length_spansFrom (offset : Nat) (lexemes : List Lexeme) :
    (spansFrom offset lexemes).length = lexemes.length := by
  induction lexemes generalizing offset with
  | nil => rfl
  | cons lexeme lexemes ih => rw [spansFrom, List.length_cons, List.length_cons, ih]

theorem le_start_of_mem (member : span ∈ spansFrom offset lexemes) : offset ≤ span.start := by
  induction lexemes generalizing offset with
  | nil => cases member
  | cons lexeme lexemes ih =>
      rcases List.mem_cons.mp member with rfl | member
      · exact Nat.le_refl offset
      · exact (Nat.le_add_right offset _).trans (ih member)

theorem start_lt_stop (sound : ∀ lexeme ∈ lexemes, lexeme.Sound)
    (member : span ∈ spansFrom offset lexemes) : span.start < span.stop := by
  induction lexemes generalizing offset with
  | nil => cases member
  | cons lexeme lexemes ih =>
      obtain ⟨first, sound⟩ := List.forall_mem_cons.mp sound
      rcases List.mem_cons.mp member with rfl | member
      · exact Nat.lt_add_of_pos_right (byteLength_pos first.renders.ne_nil)
      · exact ih sound member

theorem pairwise_spansFrom (offset : Nat) (lexemes : List Lexeme) :
    (spansFrom offset lexemes).Pairwise fun one other => one.stop ≤ other.start := by
  induction lexemes generalizing offset with
  | nil => exact .nil
  | cons lexeme lexemes ih =>
      refine List.pairwise_cons.mpr ⟨fun other member => ?_, ih _⟩
      have later := le_start_of_mem member
      rw [Lexeme.chars, byteLength_append] at later
      change offset + byteLength lexeme.word ≤ other.start
      omega

/-- The characters of a lexeme stand at its span. -/
theorem between_of_getElem? {text : Text}
    (here : text.Onward offset (lexemes.flatMap Lexeme.chars))
    (found : lexemes[index]? = some lexeme)
    (spanned : (spansFrom offset lexemes)[index]? = some span) :
    text.Between span.start lexeme.word span.stop := by
  induction lexemes generalizing offset index with
  | nil => cases found
  | cons first lexemes ih =>
      rw [List.flatMap_cons] at here
      cases index with
      | zero =>
          cases found
          cases spanned
          rw [Lexeme.chars, List.append_assoc] at here
          exact ⟨_, here, rfl⟩
      | succ index => exact ih here.append found spanned

/-- A character of two parts belongs to the first one, or to the second one at its place there. -/
theorem mem_or_of_append {one other : List Char} (split : one ++ other = before ++ c :: after) :
    (c ∈ one ∧ byteLength before < byteLength one) ∨
      ∃ between, before = one ++ between ∧ other = between ++ c :: after := by
  rcases List.append_eq_append_iff.mp split with ⟨between, rfl, same⟩ | ⟨between, rfl, same⟩
  · exact .inr ⟨between, rfl, same⟩
  · cases between with
    | nil => exact .inr ⟨[], by simp, same.symm⟩
    | cons d between =>
        cases same
        refine .inl ⟨by simp, ?_⟩
        rw [byteLength_append]
        exact Nat.lt_add_of_pos_right (byteLength_pos (List.cons_ne_nil _ _))

theorem space_of_outside (sound : ∀ lexeme ∈ lexemes, lexeme.Sound)
    (split : lexemes.flatMap Lexeme.chars = before ++ c :: after)
    (outside : ∀ span ∈ spansFrom offset lexemes,
      offset + byteLength before < span.start ∨ span.stop ≤ offset + byteLength before) :
    c ∈ [' ', '\t', '\n', '\x0c'] := by
  induction lexemes generalizing offset before with
  | nil => simp at split
  | cons lexeme lexemes ih =>
      obtain ⟨first, sound⟩ := List.forall_mem_cons.mp sound
      obtain ⟨apart, outside⟩ := List.forall_mem_cons.mp outside
      rw [List.flatMap_cons, Lexeme.chars, List.append_assoc] at split
      rcases mem_or_of_append split with ⟨-, inside⟩ | ⟨between, rfl, later⟩
      · dsimp only at apart
        omega
      · rcases mem_or_of_append later with ⟨member, -⟩ | ⟨beyond, rfl, last⟩
        · exact first.space c member
        · rw [← List.append_assoc, byteLength_append, ← Nat.add_assoc] at outside
          exact ih sound last outside

end Spans

/-- Whatever is cut into tokens is accounted for by them. -/
theorem lex_accounts {source : String} {lexed : Lexed Token} (done : lex source = .ok lexed) :
    Accounts lexed source := by
  obtain ⟨lead, lexemes, laid, same, rfl⟩ := lex_eq_ok_iff.mp done
  constructor
  · simp [extended, Lexed.empty, length_spansFrom]
  · intro span member
    simp only [extended, Lexed.empty, Array.empty_append, List.toList_toArray] at member
    exact start_lt_stop laid.sound member
  · simpa [extended, Lexed.empty] using pairwise_spansFrom (byteLength lead) lexemes
  · intro index token span found spanned
    simp only [extended, Lexed.empty, Array.empty_append, List.getElem?_toArray] at found spanned
    rw [List.getElem?_map, Option.map_eq_some_iff] at found
    obtain ⟨lexeme, found, rfl⟩ := found
    have start := Text.onward_zero source
    rw [same] at start
    have here := start.append
    rw [Nat.zero_add] at here
    exact ⟨lexeme.word, between_of_getElem? here found spanned,
      (laid.sound lexeme (List.mem_of_getElem? found)).renders⟩
  · intro before after c split outside
    simp only [extended, Lexed.empty, Array.empty_append, List.toList_toArray] at outside
    rw [same, rendered] at split
    rcases mem_or_of_append split with ⟨member, -⟩ | ⟨between, rfl, later⟩
    · exact laid.space c member
    · rw [byteLength_append] at outside
      exact space_of_outside laid.sound later outside

/--
Every token in range can be rendered; any rendering of tokens, with space before, between and
after them, is cut into these tokens at their own places; and a source that is cut into tokens
is such a rendering.
-/
theorem lexing_undoes_rendering :
    (∀ token : Token, token.InRange → token.Renders token.word) ∧
      (∀ (lead : List Char) (lexemes : List Lexeme), Laid lead lexemes →
        lex (String.ofList (rendered lead lexemes)) =
          .ok ⟨(lexemes.map Lexeme.token).toArray,
            (spansFrom (byteLength lead) lexemes).toArray⟩) ∧
      ∀ (source : String) (lexed : Lexed Token), lex source = .ok lexed →
        Accounts lexed source := by
  refine ⟨fun _ => Token.renders_word, fun lead lexemes laid => ?_, fun _ _ => lex_accounts⟩
  simp [lex_rendered laid, extended, Lexed.empty]

/-- A number and the same number after zeros. -/
theorem lexing_undoes_rendering_zeros :
    lex "7 007\x0c" = .ok ⟨#[.number 7, .number 7], #[⟨0, 1⟩, ⟨2, 5⟩]⟩ ∧
      Accounts ⟨#[.number 7, .number 7], #[⟨0, 1⟩, ⟨2, 5⟩]⟩ "7 007\x0c" := by
  obtain ⟨renders, lexes, accounts⟩ := lexing_undoes_rendering
  have inRange : Token.InRange (.number 7) := ⟨by decide, by decide⟩
  have zeros : (Token.number 7).Renders ['0', '0', '7'] :=
    .number ⟨List.cons_ne_nil _ _, forall_mem_of_all (by decide)⟩ (by decide) (by decide)
  have laid : Laid [] [⟨.number 7, ['7'], [' ']⟩, ⟨.number 7, ['0', '0', '7'], ['\x0c']⟩] := by
    constructor
    · simp [Space]
    · simp only [List.forall_mem_cons, List.not_mem_nil, false_implies, implies_true, and_true]
      exact ⟨⟨renders _ inRange, by simp [Space]⟩, ⟨zeros, by simp [Space]⟩⟩
    · simp [Lexeme.Apart]
  have done := lexes _ _ laid
  exact ⟨done, accounts _ _ done⟩

end Packrat.Calculator
