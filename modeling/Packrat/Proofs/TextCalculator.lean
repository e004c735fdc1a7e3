import Packrat.Calculator.OverText
import Packrat.Proofs.Arithmetic
import Packrat.Proofs.History
import Packrat.Proofs.LeftAssociation
import Packrat.Proofs.TextReading
import Packrat.Proofs.WholeInput

/-!
# The calculator over texts

The handle of an expression is defined as the handle of a sum, and a handle runs the body of
what it is defined as.  An expression is therefore no sum, but another choice of the same
operands: a sum and an operator and a product, or a product.  The sum has grown over all
operators already, so that none is left for the expression, and only its first product is
read.
-/

namespace Packrat.Calculator

def Blanks (chars : List Char) : Prop := ∀ c ∈ chars, c ∈ [' ', '\t', '\n']

def Token.sign? : Token → Option Char
  | .plus => some '+'
  | .minus => some '-'
  | .times => some '*'
  | .dividedBy => some '/'
  | .opening => some '('
  | .closing => some ')'
  | .number _ => none

/-- The characters of a token: one for a sign, and digits that fit into 64 bits for a number. -/
inductive Token.Spells : Token → List Char → Prop where
  | sign {token : Token} {c : Char} : token.sign? = some c → token.Spells [c]
  | number {n : Int} {digits : List Char} : digits ≠ [] → (∀ c ∈ digits, IsDigit c) →
      Signed.read? 64 (String.ofList digits) = some n → (Token.number n).Spells digits

/-- Characters spell tokens with blanks after each of them. -/
inductive Spells : List Token → List Char → Prop where
  | nil : Spells [] []
  | cons {token : Token} {tokens : List Token} {word blanks chars : List Char} :
      token.Spells word → Blanks blanks → Spells tokens chars →
      Spells (token :: tokens) (word ++ (blanks ++ chars))

def Writes (text : String) (tokens : List Token) : Prop :=
  ∃ blanks chars, text.toList = blanks ++ chars ∧ Blanks blanks ∧ Spells tokens chars

theorem blank_not_digit {c : Char} (blank : c ∈ [' ', '\t', '\n']) : ¬ IsDigit c := by
  simp only [List.mem_cons, List.not_mem_nil, or_false] at blank
  unfold IsDigit
  rcases blank with rfl | rfl | rfl <;> decide

theorem Token.plain_of_sign? {token : Token} {c : Char} (sign : token.sign? = some c) :
    c ∉ [' ', '\t', '\n'] ∧ ¬ IsDigit c := by
  unfold IsDigit
  cases token <;> cases sign <;> decide

theorem Token.sign?_injective {token other : Token} {c : Char} (sign : token.sign? = some c)
    (signToo : other.sign? = some c) : token = other := by
  cases token <;> cases sign <;> cases other <;> first | rfl | cases signToo

/-- What follows a token starts neither with a blank nor, unless it is a number, with a digit. -/
theorem Spells.head {tokens : List Token} {chars : List Char} (spells : Spells tokens chars)
    {c : Char} (first : chars.head? = some c) :
    c ∉ [' ', '\t', '\n'] ∧ (IsDigit c → ∃ n, tokens.head? = some (.number n)) := by
  cases spells with
  | nil => cases first
  | @cons _ _ word _ _ spelled _ _ =>
      cases spelled with
      | sign sign =>
          cases first
          have plain := Token.plain_of_sign? sign
          exact ⟨plain.1, fun digit => absurd digit plain.2⟩
      | @number n _ present digits _ =>
          cases word with
          | nil => exact absurd rfl present
          | cons d word =>
              cases first
              exact ⟨fun blank => blank_not_digit blank (digits c List.mem_cons_self),
                fun _ => ⟨n, rfl⟩⟩

namespace OverText

def rules (tag : Tag) : Parser Text Int :=
  if tag = ⟨"expr"⟩ then expression
  else if tag = ⟨"sum"⟩ then sum
  else if tag = ⟨"product"⟩ then product
  else if tag = ⟨"term"⟩ then term
  else number

def reading (text : String) : Setting Text Int := ⟨.ofString text, arena⟩

variable {text : String} {allowed : Answering Text Int} {position stop : Nat} {symbol : Value}

def sumLevel (text : String) : Level (reading text) rules where
  tag := ⟨"sum"⟩
  itself := sum
  tagged := rfl
  named := rfl
  next := ⟨"product"⟩
  operand := product
  operand_tagged := rfl
  operand_named := rfl
  different := by decide
  first := .literal "+"
  second := .literal "-"
  finishFirst := computing 64 (· + ·)
  finishSecond := computing 64 (· - ·)
  first_fails _ := rfl
  second_fails _ := rfl
  reads reads := by
    refine .handle (show arena.resolve ⟨"sum"⟩ 1 = .ok sumRule from rfl) ?_
    rwa [sumRule, computed_eq, computed_eq]

def productLevel (text : String) : Level (reading text) rules where
  tag := ⟨"product"⟩
  itself := product
  tagged := rfl
  named := rfl
  next := ⟨"term"⟩
  operand := term
  operand_tagged := rfl
  operand_named := rfl
  different := by decide
  first := .literal "*"
  second := .literal "/"
  finishFirst := computing 64 (· * ·)
  finishSecond := dividing 64
  first_fails _ := rfl
  second_fails _ := rfl
  reads reads := by
    refine .handle (show arena.resolve ⟨"product"⟩ 2 = .ok productRule from rfl) ?_
    rwa [productRule, computed_eq]

/-- From the position onward the text spells tokens. -/
def Tight (text : String) (position : Nat) (tokens : List Token) : Prop :=
  ∃ chars, (Text.ofString text).Onward position chars ∧ Spells tokens chars

def Loose (text : String) (position : Nat) (tokens : List Token) : Prop :=
  ∃ blanks chars, (Text.ofString text).Onward position (blanks ++ chars) ∧ Blanks blanks ∧
    Spells tokens chars

theorem blank_iff (c : Char) :
    (CharSet.ofString " \t\n").contains c = true ↔ c ∈ [' ', '\t', '\n'] := by
  rw [CharSet.contains_ofString]
  exact Iff.rfl

theorem Tight.loose {tokens : List Token} (tight : Tight text position tokens) :
    Loose text position tokens := by
  obtain ⟨chars, here, spells⟩ := tight
  exact ⟨[], chars, here, nofun, spells⟩

/-- Blanks are read up to the next token. -/
theorem blanks_matches {tokens : List Token} (loose : Loose text position tokens) :
    ∃ stop, (∀ allowed, ∃ symbol, (reading text).Matches allowed blanks position symbol stop) ∧
      Tight text stop tokens := by
  obtain ⟨blanks, chars, here, blank, spells⟩ := loose
  refine ⟨position + byteLength blanks, fun allowed => ⟨.text (String.ofList blanks), ?_⟩, chars,
    here.append, spells⟩
  refine charsIn_matches here (fun c member => (blank_iff c).mpr (blank c member)) ?_
    (Nat.zero_le _)
  intro c first
  rw [Bool.eq_false_iff]
  exact fun contains => (spells.head first).1 ((blank_iff c).mp contains)

variable {token : Token} {tokens : List Token} {wanted : String} {c : Char}

theorem sign_matches (wanted : String) (single : wanted.toList = [c]) (sign : token.sign? = some c)
    (tight : Tight text position (token :: tokens)) : ∃ stop, position < stop ∧
      (∀ allowed, (reading text).Matches allowed (.literal wanted) position (.text wanted) stop) ∧
      Loose text stop tokens := by
  obtain ⟨chars, here, spells⟩ := tight
  cases spells with
  | @cons _ _ word blanks chars spelled blank spells =>
      have same : word = wanted.toList := by
        rw [single]
        cases spelled with
        | sign other =>
            cases sign.symm.trans other
            rfl
        | number => cases sign
      rw [same] at here
      refine ⟨position + byteLength wanted.toList, ?_, fun allowed => literal_matches wanted here,
        blanks, chars, here.append, blank, spells⟩
      exact Nat.lt_add_of_pos_right (byteLength_pos (by rw [single]; exact List.cons_ne_nil c []))

theorem sign_misses (wanted : String) (single : wanted.toList = [c]) (sign : token.sign? = some c)
    (tight : Tight text position tokens) (other : tokens.head? ≠ some token) :
    (reading text).Misses allowed (.literal wanted) position := by
  obtain ⟨chars, here, spells⟩ := tight
  refine literal_misses here ?_
  rw [single]
  intro starts
  cases spells with
  | nil => cases List.prefix_nil.mp starts
  | @cons found _ word _ _ spelled _ _ =>
      cases spelled with
      | @sign _ d signToo =>
          cases (List.cons_prefix_cons.mp starts).1
          exact other (congrArg some (Token.sign?_injective signToo sign))
      | number present digits _ =>
          cases word with
          | nil => exact present rfl
          | cons d word =>
              cases (List.cons_prefix_cons.mp starts).1
              exact (Token.plain_of_sign? sign).2 (digits c List.mem_cons_self)

theorem number_settles {n : Int} (tight : Tight text position (.number n :: tokens))
    (ended : ∀ m, tokens.head? ≠ some (.number m)) : ∃ stop, position < stop ∧
      (reading text).SettlesOk rules ⟨"number"⟩ position (.atom n) stop ∧
      Loose text stop tokens := by
  obtain ⟨chars, here, spells⟩ := tight
  cases spells with
  | @cons _ _ word blanks chars spelled blank spells =>
      cases spelled with
      | sign sign => cases sign
      | number present digits read =>
          have other (c : Char) (first : (blanks ++ chars).head? = some c) :
              (CharSet.range '0' '9').contains c = false := by
            rw [Bool.eq_false_iff]
            intro contains
            have digit := (contains_digits c).mp contains
            cases blanks with
            | nil =>
                obtain ⟨m, follows⟩ := (spells.head first).2 digit
                exact ended m follows
            | cons d blanks =>
                cases first
                exact blank_not_digit (blank c List.mem_cons_self) digit
          have run : (reading text).Matches
              (.named rules (unansweredAt ⟨position, ⟨"number"⟩⟩ ((reading text).Settles rules)))
              (.charsIn (.range '0' '9') (.atLeast 1)) position (.text (String.ofList word))
              (position + byteLength word) :=
            charsIn_matches here (fun c member =>
              (contains_digits c).mpr (digits c member)) other
              (List.length_pos_iff.mpr present)
          have finished : readNumber (.text (String.ofList word)) = .ok (.atom n) := by
            unfold readNumber
            rw [Symbol.plainText, read]
          refine ⟨position + byteLength word, ?_, .of_unasked (.wrap (.wrap run ?_) rfl), blanks,
            chars, here.append, blank, spells⟩
          · exact Nat.lt_add_of_pos_right (byteLength_pos present)
          · exact congrArg Except.ok finished

theorem number_fails (tight : Tight text position (.opening :: tokens)) :
    (reading text).SettlesError rules ⟨"number"⟩ position := by
  obtain ⟨chars, here, spells⟩ := tight
  have misses : (reading text).Misses
      (.named rules (unansweredAt ⟨position, ⟨"number"⟩⟩ ((reading text).Settles rules)))
      (.charsIn (.range '0' '9') (.atLeast 1)) position := by
    refine charsIn_misses here fun c first => ?_
    rw [Bool.eq_false_iff]
    intro contains
    obtain ⟨n, follows⟩ := (spells.head first).2 ((contains_digits c).mp contains)
    cases follows
  exact .of_unasked (.wrap (.wrap misses fun mismatch => ⟨_, rfl⟩) fun mismatch => ⟨_, rfl⟩)

/-! ## Terms -/

theorem padded_matches {parser : Parser Text Int} {rest : List Token}
    (loose : Loose text position tokens)
    (reads : ∀ start, Tight text start tokens → ∃ stop, start < stop ∧
      (reading text).Matches allowed parser start symbol stop ∧ Loose text stop rest) :
    ∃ stop, position < stop ∧ (reading text).Matches allowed (padded parser) position symbol stop ∧
      Tight text stop rest := by
  obtain ⟨start, before, tight⟩ := blanks_matches loose
  obtain ⟨last, forward, inner, looseToo⟩ := reads start tight
  obtain ⟨stop, after, tightToo⟩ := blanks_matches looseToo
  obtain ⟨_, before⟩ := before allowed
  obtain ⟨_, after⟩ := after allowed
  exact ⟨stop, (before.2.trans_lt forward).trans_le after.2, .both (.both before inner) after,
    tightToo⟩

theorem padded_misses {parser : Parser Text Int} (loose : Loose text position tokens)
    (misses : ∀ start, Tight text start tokens → (reading text).Misses allowed parser start) :
    (reading text).Misses allowed (padded parser) position := by
  obtain ⟨start, before, tight⟩ := blanks_matches loose
  obtain ⟨_, before⟩ := before allowed
  exact .both_first (.both_second before (misses start tight))

theorem padded_sign_matches (wanted : String) (single : wanted.toList = [c])
    (sign : token.sign? = some c) (loose : Loose text position (token :: tokens)) :
    ∃ stop, position < stop ∧
      (reading text).Matches allowed (padded (.literal wanted)) position (.text wanted) stop ∧
      Tight text stop tokens :=
  padded_matches loose fun start tight => by
    obtain ⟨stop, forward, read, loose⟩ := sign_matches wanted single sign tight
    exact ⟨stop, forward, read _, loose⟩

/-- What calls are answered with in the body of a term. -/
def inTerm (text : String) (position : Nat) : Answering Text Int :=
  .named rules (unansweredAt ⟨position, ⟨"term"⟩⟩ ((reading text).Settles rules))

theorem term_of_number {n : Int} (loose : Loose text position (.number n :: tokens))
    (ended : ∀ m, tokens.head? ≠ some (.number m)) : ∃ stop, position < stop ∧
      (reading text).SettlesOk rules ⟨"term"⟩ position (.atom n) stop ∧ Tight text stop tokens := by
  obtain ⟨stop, forward, read, tight⟩ : ∃ stop, position < stop ∧
      (reading text).Matches (inTerm text position) (padded number) position (.atom n) stop ∧
      Tight text stop tokens :=
    padded_matches loose fun start tight => by
      obtain ⟨stop, forward, settles, loose⟩ := number_settles tight ended
      have different : (⟨"number"⟩ : Tag) ≠ ⟨"term"⟩ := by decide
      exact ⟨stop, forward, settles.matches_unasked _ rfl rfl different, loose⟩
  exact ⟨stop, forward, .of_unasked (.choice [] rfl nofun read), tight⟩

theorem padded_number_misses (loose : Loose text position (.opening :: tokens)) :
    (reading text).Misses (inTerm text position) (padded number) position :=
  padded_misses loose fun start tight => by
    have different : (⟨"number"⟩ : Tag) ≠ ⟨"term"⟩ := by decide
    exact (number_fails tight).misses_unasked _ rfl rfl different

theorem term_of_parens {rest : List Token} (loose : Loose text position (.opening :: tokens))
    (inner : ∀ start, Loose text start tokens → ∃ stop,
      (reading text).SettlesOk rules ⟨"expr"⟩ start symbol stop ∧
        Tight text stop (.closing :: rest)) : ∃ stop, position < stop ∧
      (reading text).SettlesOk rules ⟨"term"⟩ position symbol stop ∧ Tight text stop rest := by
  obtain ⟨start, opened, opening, tight⟩ := padded_sign_matches "(" rfl rfl loose
  obtain ⟨last, settles, tight⟩ := inner start tight.loose
  have within : (reading text).Matches (inTerm text position) expression start symbol last := by
    have different : (⟨"expr"⟩ : Tag) ≠ ⟨"term"⟩ := by decide
    exact settles.matches_unasked _ rfl rfl different
  obtain ⟨stop, closed, closing, tight⟩ := padded_sign_matches ")" rfl rfl tight.loose
  refine ⟨stop, (opened.trans_le within.2).trans closed, .of_unasked (.choice [padded number] rfl ?_
    (.both (.both opening within) closing)), tight⟩
  simp only [List.mem_singleton, forall_eq]
  exact padded_number_misses loose

theorem Tight.le_size (tight : Tight text position tokens) :
    position ≤ Input.size (reading text).input := by
  obtain ⟨chars, here, -⟩ := tight
  exact (Nat.le_add_right _ _).trans_eq here.size_eq.symm

/-- A product that has been read settles if no operator of its rank follows. -/
theorem product_settles {left : Value} (grown : (productLevel text).Grown position left stop)
    (tight : Tight text stop tokens) (noTimes : tokens.head? ≠ some .times)
    (noDivision : tokens.head? ≠ some .dividedBy) :
    (reading text).SettlesOk rules ⟨"product"⟩ position left stop :=
  grown.settles tight.le_size (fun _ => sign_misses "*" rfl rfl tight noTimes)
    fun _ => sign_misses "/" rfl rfl tight noDivision

theorem sum_settles {left : Value} (grown : (sumLevel text).Grown position left stop)
    (tight : Tight text stop tokens) (noPlus : tokens.head? ≠ some .plus)
    (noMinus : tokens.head? ≠ some .minus) :
    (reading text).SettlesOk rules ⟨"sum"⟩ position left stop :=
  grown.settles tight.le_size (fun _ => sign_misses "+" rfl rfl tight noPlus)
    fun _ => sign_misses "-" rfl rfl tight noMinus

/-- Where the sum leaves no operator over, an expression reads the product. -/
theorem expression_settles {total : Value} {last : Nat}
    (sums : (reading text).SettlesOk rules ⟨"sum"⟩ position total last)
    (tight : Tight text last tokens) (noPlus : tokens.head? ≠ some .plus)
    (noMinus : tokens.head? ≠ some .minus)
    (only : (reading text).SettlesOk rules ⟨"product"⟩ position symbol stop) :
    (reading text).SettlesOk rules ⟨"expr"⟩ position symbol stop := by
  let key : Key := ⟨position, ⟨"expr"⟩⟩
  let inExpression : Answering Text Int :=
    .named rules (unansweredAt key ((reading text).Settles rules))
  have total : (reading text).Matches inExpression sum position total last := by
    have different : (⟨"sum"⟩ : Tag) ≠ ⟨"expr"⟩ := by decide
    exact sums.matches_unasked key rfl rfl different
  have first : (reading text).Matches inExpression product position symbol stop := by
    have different : (⟨"product"⟩ : Tag) ≠ ⟨"expr"⟩ := by decide
    exact only.matches_unasked key rfl rfl different
  have operatorMisses (wanted : String) (finish : Finish Int)
      (fails : ∀ mismatch, finish (.error mismatch) = .ok (.error mismatch))
      (misses : (reading text).Misses inExpression (.literal wanted) last) :
      (reading text).Misses inExpression
        (.wrap none (some .general) (operands sum (.literal wanted) product) finish) position :=
    .wrap (.both_first (.both_second total misses)) fun mismatch => ⟨mismatch, fails mismatch⟩
  refine .of_unasked (.handle (show arena.resolve ⟨"expr"⟩ 0 = .ok sum from rfl)
    (.handle (show arena.resolve ⟨"sum"⟩ 1 = .ok sumRule from rfl) ?_))
  rw [sumRule, computed_eq, computed_eq]
  refine .choice [_, _] rfl ?_ first
  simp only [List.mem_cons, List.not_mem_nil, or_false, forall_eq_or_imp, forall_eq]
  exact ⟨operatorMisses "+" _ (fun _ => rfl) (sign_misses "+" rfl rfl tight noPlus),
    operatorMisses "-" _ (fun _ => rfl) (sign_misses "-" rfl rfl tight noMinus)⟩

def Ended (tokens : List Token) : Prop := ∀ n, tokens.head? ≠ some (.number n)

theorem ended_of_sign (sign : token.sign? = some c) : Ended (token :: tokens) := by
  intro n same
  cases Option.some.inj same
  cases sign

theorem head_ne {other : Token} (different : token ≠ other) :
    (token :: tokens).head? ≠ some other :=
  fun same => different (Option.some.inj same)

mutual

/-- A term without sums settles on its value. -/
theorem term_settles (tree : TermTree) (multiplicative : tree.Multiplicative) {value : Int}
    {position : Nat} {rest : List Token} (loose : Loose text position (tree.tokens ++ rest))
    (ended : Ended rest) (valued : tree.value? 64 = some value) : ∃ stop, position < stop ∧
      (reading text).SettlesOk rules ⟨"term"⟩ position (.atom value) stop ∧
      Tight text stop rest := by
  cases tree with
  | number n =>
      rw [TermTree.tokens] at loose
      rw [TermTree.value?] at valued
      cases valued
      exact term_of_number loose ended
  | parens inner =>
      cases inner with
      | plus left right => exact multiplicative.elim
      | minus left right => exact multiplicative.elim
      | product only =>
          rw [TermTree.tokens, SumTree.tokens, List.append_assoc] at loose
          rw [TermTree.value?, SumTree.value?] at valued
          refine term_of_parens loose fun start loose => ?_
          obtain ⟨stop, grown, tight⟩ := product_grown only multiplicative loose nofun valued
          have settles := product_settles grown tight nofun nofun
          have sums := sum_settles (.start settles grown.forward) tight nofun nofun
          exact ⟨stop, expression_settles sums tight nofun nofun settles, tight⟩

theorem product_grown (tree : ProductTree) (multiplicative : tree.Multiplicative) {value : Int}
    {position : Nat} {rest : List Token} (loose : Loose text position (tree.tokens ++ rest))
    (ended : Ended rest) (valued : tree.value? 64 = some value) : ∃ stop,
      (productLevel text).Grown position (.atom value) stop ∧ Tight text stop rest := by
  cases tree with
  | term only =>
      obtain ⟨stop, forward, settles, tight⟩ :=
        term_settles only multiplicative loose ended valued
      exact ⟨stop, .start settles forward, tight⟩
  | times left right =>
      obtain ⟨one, leftValued, two, rightValued, fits⟩ := operation_eq_some_iff.mp valued
      rw [ProductTree.tokens, List.append_assoc] at loose
      obtain ⟨middle, grown, tight⟩ := product_grown left multiplicative.1 loose nofun leftValued
      obtain ⟨after, passed, operator, loose⟩ := sign_matches "*" rfl rfl tight
      obtain ⟨stop, forward, operand, tight⟩ :=
        term_settles right multiplicative.2 loose ended rightValued
      exact ⟨stop, grown.first operator operand ((computing_computes _ _).mpr ⟨value, fits, rfl⟩)
        (passed.trans forward), tight⟩
  | dividedBy left right =>
      obtain ⟨one, leftValued, two, rightValued, divides⟩ := operation_eq_some_iff.mp valued
      rw [ProductTree.tokens, List.append_assoc] at loose
      obtain ⟨middle, grown, tight⟩ := product_grown left multiplicative.1 loose nofun leftValued
      have noTimes (allowed : Answering Text Int) :
          (reading text).Misses allowed (.literal "*") middle :=
        sign_misses "*" rfl (show Token.times.sign? = _ from rfl) tight nofun
      obtain ⟨after, passed, operator, loose⟩ := sign_matches "/" rfl rfl tight
      obtain ⟨stop, forward, operand, tight⟩ :=
        term_settles right multiplicative.2 loose ended rightValued
      exact ⟨stop, grown.second noTimes operator operand
        ((dividing_computes _).mpr ⟨value, divides, rfl⟩) (passed.trans forward), tight⟩

end

/-- A flat sum grows up to its end, if no operator of a higher rank follows. -/
theorem sum_grown (tree : SumTree) (flat : tree.Flat) {value : Int} {rest : List Token}
    (loose : Loose text position (tree.tokens ++ rest)) (ended : Ended rest)
    (noTimes : rest.head? ≠ some .times) (noDivision : rest.head? ≠ some .dividedBy)
    (valued : tree.value? 64 = some value) : ∃ stop,
      (sumLevel text).Grown position (.atom value) stop ∧ Tight text stop rest := by
  induction tree using SumTree.first.induct generalizing value rest with
  | case1 only =>
      obtain ⟨stop, grown, tight⟩ := product_grown only flat loose ended valued
      exact ⟨stop, .start (product_settles grown tight noTimes noDivision) grown.forward, tight⟩
  | case2 left right ih =>
      obtain ⟨one, leftValued, two, rightValued, fits⟩ := operation_eq_some_iff.mp valued
      rw [SumTree.tokens, List.append_assoc] at loose
      obtain ⟨middle, grown, tight⟩ := ih flat.1 loose (ended_of_sign (c := '+') rfl)
        (head_ne (by decide)) (head_ne (by decide)) leftValued
      obtain ⟨after, passed, operator, loose⟩ := sign_matches "+" rfl rfl tight
      obtain ⟨stop, operandGrown, tight⟩ := product_grown right flat.2 loose ended rightValued
      have operand := product_settles operandGrown tight noTimes noDivision
      exact ⟨stop, grown.first operator operand ((computing_computes _ _).mpr ⟨value, fits, rfl⟩)
        (passed.trans operandGrown.forward), tight⟩
  | case3 left right ih =>
      obtain ⟨one, leftValued, two, rightValued, fits⟩ := operation_eq_some_iff.mp valued
      rw [SumTree.tokens, List.append_assoc] at loose
      obtain ⟨middle, grown, tight⟩ := ih flat.1 loose (ended_of_sign (c := '-') rfl)
        (head_ne (by decide)) (head_ne (by decide)) leftValued
      have noPlus (allowed : Answering Text Int) :
          (reading text).Misses allowed (.literal "+") middle :=
        sign_misses "+" rfl (show Token.plus.sign? = _ from rfl) tight (head_ne (by decide))
      obtain ⟨after, passed, operator, loose⟩ := sign_matches "-" rfl rfl tight
      obtain ⟨stop, operandGrown, tight⟩ := product_grown right flat.2 loose ended rightValued
      have operand := product_settles operandGrown tight noTimes noDivision
      exact ⟨stop, grown.second noPlus operator operand
        ((computing_computes _ _).mpr ⟨value, fits, rfl⟩)
        (passed.trans operandGrown.forward), tight⟩

/-- The first product of a flat sum settles up to the next sign. -/
theorem first_product_settles (tree : SumTree) (flat : tree.Flat) {value : Int} {rest : List Token}
    (loose : Loose text position (tree.tokens ++ rest)) (ended : Ended rest)
    (noTimes : rest.head? ≠ some .times) (noDivision : rest.head? ≠ some .dividedBy)
    (valued : tree.value? 64 = some value) : ∃ one stop, tree.first.value? 64 = some one ∧
      position < stop ∧ (reading text).SettlesOk rules ⟨"product"⟩ position (.atom one) stop ∧
      Tight text stop (tree.more ++ rest) := by
  obtain ⟨multiplicative, one, oneValued⟩ := flat.first valued
  rw [tree.tokens_eq, List.append_assoc] at loose
  have endedToo : Ended (tree.more ++ rest) := fun n => tree.more_head_ne nofun nofun (ended n)
  obtain ⟨stop, grown, tight⟩ := product_grown tree.first multiplicative loose endedToo oneValued
  have settles := product_settles grown tight (tree.more_head_ne nofun nofun noTimes)
    (tree.more_head_ne nofun nofun noDivision)
  exact ⟨one, stop, oneValued, grown.forward, settles, tight⟩

/-- On a flat sum an expression settles on the first product. -/
theorem first_settles (tree : SumTree) (flat : tree.Flat) {value : Int}
    (loose : Loose text position tree.tokens) (valued : tree.value? 64 = some value) :
    ∃ one stop, tree.first.value? 64 = some one ∧
      (reading text).SettlesOk rules ⟨"expr"⟩ position (.atom one) stop ∧
      Tight text stop tree.more := by
  have whole : Loose text position (tree.tokens ++ []) := by rwa [List.append_nil]
  obtain ⟨last, sumGrown, tightLast⟩ := sum_grown tree flat whole nofun nofun nofun valued
  obtain ⟨one, stop, oneValued, -, settles, tight⟩ :=
    first_product_settles tree flat whole nofun nofun nofun valued
  rw [List.append_nil] at tight
  exact ⟨one, stop, oneValued, expression_settles (sum_settles sumGrown tightLast nofun nofun)
    tightLast nofun nofun settles, tight⟩

/-! ## Whole texts -/

theorem expression_ends {tree : SumTree} (flat : tree.Flat) (writes : Writes text tree.tokens)
    {value : Int} (valued : tree.value? 64 = some value) :
    ∃ one stop middle, tree.first.value? 64 = some one ∧
      Ends (reading text) (.call expression) (.initial .standard)
        (.answered (.ok ⟨.atom one, ⟨0, stop⟩⟩)) middle ∧
      Tight text stop tree.more := by
  obtain ⟨blanks, chars, written, blank, spells⟩ := writes
  have here := Text.onward_zero text
  rw [written] at here
  obtain ⟨one, stop, firstValued, settles, tight⟩ :=
    first_settles tree flat ⟨blanks, chars, here, blank, spells⟩ valued
  obtain ⟨middle, ends⟩ := (settles.settlesOn (show expression.tag = _ from rfl) rfl).ends_fresh
  exact ⟨one, stop, middle, firstValued, ends, tight⟩

theorem Tight.eq_size (tight : Tight text position []) :
    position = Input.size (Text.ofString text) := by
  obtain ⟨chars, here, spells⟩ := tight
  cases spells
  exact here.size_eq.symm

theorem Tight.lt_size (tight : Tight text position tokens) (more : tokens ≠ []) :
    position < Input.size (Text.ofString text) := by
  obtain ⟨chars, here, spells⟩ := tight
  rw [here.size_eq]
  refine Nat.lt_add_of_pos_right (byteLength_pos ?_)
  cases spells with
  | nil => exact absurd rfl more
  | cons spelled _ _ =>
      cases spelled with
      | sign _ => exact List.cons_ne_nil _ _
      | number present _ _ => exact List.append_ne_nil_of_left_ne_nil present _

/--
A text that spells an expression with a value, and with no sum in parentheses, is computed if
nothing is added or subtracted in it, and it is rejected otherwise.
-/
theorem evaluate_flat (text : String) (tree : SumTree) (value : Int) (flat : tree.Flat)
    (writes : Writes text tree.tokens) (valued : tree.value? 64 = some value) :
    (tree.Multiplicative →
      ∃ steps final, evaluate steps text = .done (.ok (.atom value)) final) ∧
    (¬ tree.Multiplicative →
      ∃ steps error final, evaluate steps text = .done (.error error) final) := by
  obtain ⟨one, stop, middle, firstValued, ends, tight⟩ := expression_ends flat writes valued
  cases tree with
  | product only =>
      refine ⟨fun _ => ?_, fun sums => absurd flat sums⟩
      cases firstValued.symm.trans valued
      exact Setting.parse_eq_ok_iff.mpr ⟨_, middle, ends, rfl, tight.eq_size⟩
  | plus left right =>
      refine ⟨False.elim, fun _ => Setting.parse_eq_error ends (tight.lt_size ?_)⟩
      exact List.append_ne_nil_of_right_ne_nil _ (List.cons_ne_nil _ _)
  | minus left right =>
      refine ⟨False.elim, fun _ => Setting.parse_eq_error ends (tight.lt_size ?_)⟩
      exact List.append_ne_nil_of_right_ne_nil _ (List.cons_ne_nil _ _)

theorem writes_operation (sign : Token) {c : Char} {one other : Int} {left right : List Char}
    (spelled : sign.sign? = some c) (first : (Token.number one).Spells left)
    (second : (Token.number other).Spells right) :
    Writes (String.ofList (left ++ c :: right)) [.number one, sign, .number other] := by
  have nothing : Blanks [] := nofun
  have last := Spells.cons second nothing .nil
  have whole := Spells.cons first nothing (.cons (.sign spelled) nothing last)
  simp only [List.append_nil, List.nil_append, List.singleton_append] at whole
  exact ⟨[], _, String.toList_ofList, nothing, whole⟩

theorem spells_digit {n : Int} (c : Char) (digit : IsDigit c)
    (read : Signed.read? 64 (String.ofList [c]) = some n) : (Token.number n).Spells [c] := by
  refine .number (List.cons_ne_nil c []) ?_ read
  simpa only [List.mem_singleton, forall_eq] using digit

def addition (one other : Int) : SumTree :=
  .plus (.product (.term (.number one))) (.term (.number other))

/-- The sum of two numbers has a value that it is not evaluated to. -/
theorem evaluate_addition :
    Writes "1+2" (addition 1 2).tokens ∧ (addition 1 2).value? 64 = some 3 ∧
      ¬ ∃ steps final, evaluate steps "1+2" = .done (.ok (.atom 3)) final := by
  have flat : (addition 1 2).Flat := ⟨trivial, trivial⟩
  have writes : Writes "1+2" (addition 1 2).tokens :=
    writes_operation .plus rfl (spells_digit '1' (by decide) (by decide))
      (spells_digit '2' (by decide) (by decide))
  have valued : (addition 1 2).value? 64 = some 3 := by decide
  refine ⟨writes, valued, fun accepted => ?_⟩
  obtain ⟨one, stop, middle, -, ends, tight⟩ := expression_ends flat writes valued
  obtain ⟨matched, final, endsToo, -, stops⟩ := Setting.parse_eq_ok_iff.mp accepted
  cases (ends.unique endsToo).1
  exact absurd stops (tight.lt_size (List.cons_ne_nil _ _)).ne

end OverText

end Packrat.Calculator
