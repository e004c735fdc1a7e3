import Packrat.Proofs.Lexing
import Packrat.Proofs.Overflows
import Packrat.Proofs.Repairs
import Packrat.Proofs.TextExplanations
import Packrat.Proofs.TokenCalculator

/-!
# Where the calculators overflow

Sums, differences and products are computed while a rule matches, also in rounds of growing and
in alternatives that come to nothing.  An evaluation therefore ends in a value, in an error or in
an overflow, and an overflow comes from an operation that some stretch of the input spells.
-/

namespace Packrat.Calculator

/--
The tokens spell a sum, a difference or a product of operands that have values, but the result
does not fit.
-/
inductive Overflowing (bits : Nat) : List Token → Prop where
  | plus {left right : List Token} {one two : Int} : SumTree.Denotes bits left one →
      ProductTree.Denotes bits right two → Signed.fits bits (one + two) = false →
      Overflowing bits (left ++ .plus :: right)
  | minus {left right : List Token} {one two : Int} : SumTree.Denotes bits left one →
      ProductTree.Denotes bits right two → Signed.fits bits (one - two) = false →
      Overflowing bits (left ++ .minus :: right)
  | times {left right : List Token} {one two : Int} : ProductTree.Denotes bits left one →
      TermTree.Denotes bits right two → Signed.fits bits (one * two) = false →
      Overflowing bits (left ++ .times :: right)

theorem computing_regular (bits : Nat) (operation : Int → Int → Int) :
    Finish.Regular (computing bits operation) := by
  intro result fault broken
  cases result with
  | error mismatch => cases broken
  | ok symbol =>
      simp only [computing, combine] at broken
      split at broken
      · split at broken
        · cases broken
        · cases broken
          rfl
      · cases broken

/-- Operands overflow if the result does not fit. -/
theorem computing_overflow_iff (bits : Nat) (operation : Int → Int → Int) (one two : Int) :
    computing bits operation (.ok (.pair (.atom one) (.atom two))) = .error .overflow ↔
      Signed.fits bits (operation one two) = false := by
  simp only [computing, combine]
  split
  · next fits => simp only [reduceCtorEq, fits]
  · next large => simpa only [true_iff, Bool.not_eq_true] using large

section Levels

variable {ι : Type} [Input ι] {setting : Setting ι Int} {allowed : Answering ι Int}
  {left operator right first second operand : Parser ι Int}
  {finish finishFirst finishSecond : Finish Int} {position : Nat}

/-- Operands with an operator in between are matched, and the finishing step overflows on them. -/
def Exceeds (setting : Setting ι Int) (allowed : Answering ι Int)
    (left operator right : Parser ι Int) (finish : Finish Int) (position : Nat) : Prop :=
  ∃ one sign two, setting.Answers allowed left position (.ok one) ∧
    setting.Answers allowed operator one.span.stop (.ok sign) ∧
    setting.Answers allowed right sign.span.stop (.ok two) ∧
    finish (.ok (.pair one.symbol two.symbol)) = .error .overflow

/-- Operands that do not overflow themselves overflow in the finishing step. -/
theorem Exceeds.of_overflows
    (fails : ∀ mismatch, finish (.error mismatch) = .ok (.error mismatch))
    (safeLeft : ∀ place, ¬ Overflows setting allowed (.call left) place)
    (safeOperator : ∀ place, ¬ Overflows setting allowed (.call operator) place)
    (safeRight : ∀ place, ¬ Overflows setting allowed (.call right) place)
    (overflows : Overflows setting allowed
      (.call (.wrap none (some .general) (operands left operator right) finish)) position) :
    Exceeds setting allowed left operator right finish position := by
  rcases overflows.of_call.of_wrap with within | ⟨outcome, answers, finished⟩
  · rcases within.of_call.of_both with within | ⟨_, _, within⟩
    · rcases within.of_call.of_both with within | ⟨_, _, within⟩
      · exact absurd within (safeLeft _)
      · exact absurd within (safeOperator _)
    · exact absurd within (safeRight _)
  · cases outcome with
    | error mismatch =>
        rw [Except.map, fails] at finished
        cases finished
    | ok both =>
        obtain ⟨front, two, answers, second, pair_eq, -⟩ := answers.of_both
        obtain ⟨one, sign, first, between, one_eq, stopsFront⟩ := answers.of_both
        rw [stopsFront] at second
        refine ⟨one, sign, two, first, between, second, ?_⟩
        rw [← one_eq, ← pair_eq]
        exact finished

/-- A level overflows in one of its operations. -/
theorem exceeds_of_level
    (overflows : Overflows setting allowed (.call (.oneOf [
      .wrap none (some .general) (operands left first operand) finishFirst,
      .wrap none (some .general) (operands left second operand) finishSecond,
      operand])) position)
    (failsFirst : ∀ mismatch, finishFirst (.error mismatch) = .ok (.error mismatch))
    (failsSecond : ∀ mismatch, finishSecond (.error mismatch) = .ok (.error mismatch))
    (safeLeft : left.tag ≠ none) (safeOperand : operand.tag ≠ none)
    (safeFirst : ∀ place, ¬ Overflows setting allowed (.call first) place)
    (safeSecond : ∀ place, ¬ Overflows setting allowed (.call second) place) :
    Exceeds setting allowed left first operand finishFirst position ∨
      Exceeds setting allowed left second operand finishSecond position := by
  have safe {parser : Parser ι Int} (tagged : parser.tag ≠ none) (place : Nat) :
      ¬ Overflows setting allowed (.call parser) place :=
    fun overflows => tagged overflows.untagged
  obtain ⟨one, member, within⟩ := overflows.of_call.of_choice
  simp only [List.mem_cons, List.not_mem_nil, or_false] at member
  rcases member with rfl | rfl | rfl
  · exact .inl (.of_overflows failsFirst (safe safeLeft) safeFirst (safe safeOperand) within)
  · exact .inr (.of_overflows failsSecond (safe safeLeft) safeSecond (safe safeOperand) within)
  · exact absurd within (safe safeOperand _)

end Levels

section Fitting

variable {bits : Nat} {n value : Int}

theorem fits_of_fitting? (computed : fitting? bits n = some value) :
    Signed.fits bits value = true := by
  obtain ⟨fits, same⟩ := Option.ite_none_right_eq_some.mp computed
  rwa [Option.some.inj same] at fits

theorem fits_of_divide? {dividend divisor : Int}
    (divided : Signed.divide? bits dividend divisor = some value) :
    Signed.fits bits value = true := by
  unfold Signed.divide? at divided
  split at divided
  · cases divided
  · obtain ⟨fits, same⟩ := Option.ite_none_right_eq_some.mp divided
    rwa [Option.some.inj same] at fits

theorem fits_of_read? {text : String} (read : Signed.read? bits text = some n) :
    Signed.fits bits n = true :=
  (Option.filter_eq_some_iff.mp read).2

def NumbersFit (bits : Nat) (tokens : List Token) : Prop :=
  ∀ n, Token.number n ∈ tokens → Signed.fits bits n = true

theorem NumbersFit.mono {tokens more : List Token} (all : NumbersFit bits more)
    (fewer : tokens ⊆ more) : NumbersFit bits tokens :=
  fun n member => all n (fewer member)

mutual

theorem SumTree.fits_value (tree : SumTree) (numbers : NumbersFit bits tree.tokens)
    (valued : tree.value? bits = some value) : Signed.fits bits value = true := by
  cases tree with
  | product only => exact only.fits_value numbers valued
  | plus left right =>
      obtain ⟨one, -, two, -, computed⟩ := operation_eq_some_iff.mp valued
      exact fits_of_fitting? computed
  | minus left right =>
      obtain ⟨one, -, two, -, computed⟩ := operation_eq_some_iff.mp valued
      exact fits_of_fitting? computed

theorem ProductTree.fits_value (tree : ProductTree) (numbers : NumbersFit bits tree.tokens)
    (valued : tree.value? bits = some value) : Signed.fits bits value = true := by
  cases tree with
  | term only => exact only.fits_value numbers valued
  | times left right =>
      obtain ⟨one, -, two, -, computed⟩ := operation_eq_some_iff.mp valued
      exact fits_of_fitting? computed
  | dividedBy left right =>
      obtain ⟨one, -, two, -, divided⟩ := operation_eq_some_iff.mp valued
      exact fits_of_divide? divided

theorem TermTree.fits_value (tree : TermTree) (numbers : NumbersFit bits tree.tokens)
    (valued : tree.value? bits = some value) : Signed.fits bits value = true := by
  cases tree with
  | number n =>
      cases valued
      exact numbers _ List.mem_cons_self
  | parens inner =>
      refine inner.fits_value (numbers.mono ?_) valued
      exact fun token member => List.mem_cons_of_mem _ (List.mem_append_left _ member)

end

theorem Spells.numbersFit {tokens : List Token} {chars : List Char}
    (spells : Spells tokens chars) : NumbersFit 64 tokens := by
  induction spells with
  | nil => exact fun n member => absurd member List.not_mem_nil
  | cons word _ _ ih =>
      intro n member
      rcases List.mem_cons.mp member with rfl | member
      · cases word with
        | sign sign => cases sign
        | number _ _ read => exact fits_of_read? read
      · exact ih n member

/-- The numbers of a source fit into 32 bits. -/
theorem numbersFit_of_lex {source : String} {lexed : Lexed Token} (lexes : lex source = .ok lexed) :
    NumbersFit 32 lexed.tokens.toList := by
  intro n member
  have accounts := lex_accounts lexes
  obtain ⟨index, bounded, found⟩ := List.getElem_of_mem member
  rw [Array.length_toList] at bounded
  have spanned : index < lexed.spans.size := by rwa [← accounts.paired]
  obtain ⟨word, -, renders⟩ := accounts.renders index (.number n) lexed.spans[index]
    (by rw [Array.getElem?_eq_getElem bounded, ← found, Array.getElem_toList])
    (Array.getElem?_eq_getElem spanned)
  cases renders with
  | sign sign => cases sign
  | number _ _ small => exact fits_ofNat_iff.mpr small

end Fitting

/-! ## Operations that the rules perform -/

section Performing

variable {ι : Type} [Input ι] {setting : Setting ι Int} {allowed : Answering ι Int}
  {left operator right : Parser ι Int} {position : Nat}

theorem not_exceeds_dividing {bits : Nat} :
    ¬ Exceeds setting allowed left operator right (dividing bits) position := by
  rintro ⟨one, sign, two, -, -, -, finished⟩
  cases finished

theorem computed_composed [Readable ι] {tags : Finset Tag} (bits : Nat)
    (operation : Int → Int → Int) (one : left.Composed (.overflowing tags))
    (sign : operator.Composed (.overflowing tags)) (two : right.Composed (.overflowing tags)) :
    (computed bits operation left operator right).Composed (.overflowing tags) := by
  rw [computed_eq]
  exact .wrap nofun (.both _ (.both _ one sign) two) (computing_regular bits operation)

theorem divided_composed [Readable ι] {tags : Finset Tag} (bits : Nat)
    (one : left.Composed (.overflowing tags)) (sign : operator.Composed (.overflowing tags))
    (two : right.Composed (.overflowing tags)) :
    (divided bits left operator right).Composed (.overflowing tags) :=
  .wrap nofun (.both _ (.both _ one sign) two) fun _ _ broken => nomatch broken

theorem level_composed [Readable ι] {tags : Finset Tag} {first second operand : Parser ι Int}
    (one : first.Composed (.overflowing tags)) (two : second.Composed (.overflowing tags))
    (only : operand.Composed (.overflowing tags)) :
    (Parser.oneOf [first, second, operand]).Composed (.overflowing tags) := by
  refine .choice nofun ?_
  simp only [List.mem_cons, List.not_mem_nil, or_false]
  rintro parser (rfl | rfl | rfl)
  · exact one
  · exact two
  · exact only

end Performing

namespace OverTokens

section Tokens

variable {tokens : Array Token} {allowed : Answering (Array Token) Int} {position stop : Nat}

theorem oneToken_safe {expectation : String} {choose : Token → Option Value} (place : Nat) :
    ¬ Overflows (reading tokens) allowed (.call (.oneToken expectation choose)) place :=
  fun overflows => nomatch overflows.of_call.of_terminal

theorem Spelled.infix {spelled : List Token} (stands : Spelled tokens position spelled stop) :
    spelled <:+: tokens.toList := by
  obtain ⟨rest, here, -⟩ := stands
  exact ⟨tokens.toList.take position, rest, by
    rw [List.append_assoc, ← here, onward, List.take_append_drop]⟩

/-- Some stretch of the tokens spells an operation whose result does not fit. -/
def HasOverflowing (tokens : Array Token) : Prop :=
  ∃ spelled, spelled <:+: tokens.toList ∧ Overflowing 32 spelled

theorem hasOverflowing_of_exceeds {left right : Parser (Array Token) Int} {token : Token}
    {operation : Int → Int → Int} {denotes denotesToo : List Token → Int → Prop}
    (exceeds : Exceeds (reading tokens) allowed left (just token) right (computing 32 operation)
      position)
    (explains : ∀ {place one}, (reading tokens).Answers allowed left place (.ok one) →
      Explains tokens place denotes one)
    (explainsToo : ∀ {place one}, (reading tokens).Answers allowed right place (.ok one) →
      Explains tokens place denotesToo one)
    (large : ∀ {one two left right}, denotes left one → denotesToo right two →
      Signed.fits 32 (operation one two) = false → Overflowing 32 (left ++ token :: right)) :
    HasOverflowing tokens := by
  obtain ⟨one, sign, two, first, between, second, finished⟩ := exceeds
  obtain ⟨spelled, n, stands, denoted, symbol_eq⟩ := explains first
  obtain ⟨spelledToo, m, standsToo, denotedToo, symbol_eqToo⟩ := explainsToo second
  rw [symbol_eq, symbol_eqToo, computing_overflow_iff] at finished
  have whole := stands.append ((just_answers between).append standsToo)
  exact ⟨_, whole.infix, large denoted denotedToo finished⟩

/-- The body of a rule overflows only in an operation that tokens spell. -/
theorem rules_overflow (tag : Tag) (overflows : Overflows (reading tokens)
      (.named rules (explained tokens)) (.body (rules tag)) position) :
    HasOverflowing tokens := by
  rcases rules_cases tag with same | same | same
  · rw [same] at overflows
    have choice := overflows.of_recursive
    change Overflows _ _ (.call sumChoice) position at choice
    rw [sumChoice, computed_eq, computed_eq] at choice
    rcases exceeds_of_level choice (fun _ => rfl) (fun _ => rfl) (by exact nofun) (by exact nofun)
      oneToken_safe oneToken_safe with added | subtracted
    · exact hasOverflowing_of_exceeds added expression_answers products_answers .plus
    · exact hasOverflowing_of_exceeds subtracted expression_answers products_answers .minus
  · rw [same] at overflows
    have choice := overflows.of_recursive
    change Overflows _ _ (.call productChoice) position at choice
    rw [productChoice, computed_eq] at choice
    rcases exceeds_of_level choice (fun _ => rfl) (fun _ => rfl) (by exact nofun) (by exact nofun)
      oneToken_safe oneToken_safe with multiplied | divided
    · exact hasOverflowing_of_exceeds multiplied products_answers term_answers .times
    · exact absurd divided not_exceeds_dividing
  · rw [same] at overflows
    obtain ⟨one, member, within⟩ := overflows.of_choice
    simp only [List.mem_cons, List.not_mem_nil, or_false] at member
    rcases member with rfl | rfl
    · exact absurd within (oneToken_safe _)
    · rcases within.of_call.of_both with within | ⟨_, _, within⟩
      · rcases within.of_call.of_both with within | ⟨_, _, within⟩
        · exact absurd within (oneToken_safe _)
        · exact absurd within.untagged nofun
      · exact absurd within (oneToken_safe _)

def tags : Finset Tag := {⟨"expr"⟩, ⟨"product"⟩, ⟨"term"⟩}

theorem just_composed (token : Token) : (just token).Composed (.overflowing tags) :=
  .terminal (TokenTerminal.oneToken _ _)

theorem expression_composed : expression.Composed (.overflowing tags) := by
  have terms : (term (.self 1)).Composed (.overflowing tags) := by
    refine .choice (by simp [Pieces.overflowing, tags]) ?_
    simp only [List.mem_cons, List.not_mem_nil, or_false]
    rintro parser (rfl | rfl)
    · exact .terminal (TokenTerminal.oneToken _ _)
    · exact .both _ (.both _ (just_composed .opening) (.self 1)) (just_composed .closing)
  have products : product.Composed (.overflowing tags) :=
    .recursive (by simp [Pieces.overflowing, tags]) (level_composed
      (computed_composed 32 _ (.self 0) (just_composed .times) terms)
      (divided_composed 32 (.self 0) (just_composed .dividedBy) terms) terms)
  exact .recursive (by simp [Pieces.overflowing, tags]) (level_composed
    (computed_composed 32 _ (.self 0) (just_composed .plus) products)
    (computed_composed 32 _ (.self 0) (just_composed .minus) products) products)

end Tokens

end OverTokens

namespace OverText

section Texts

variable {text : String} {allowed : Answering Text Int} {position stop : Nat}

theorem characters_safe {expectation : String} {find : List Char → Option (Value × Nat)}
    (place : Nat) :
    ¬ Overflows (reading text) allowed (.call (.characters expectation find)) place := by
  intro overflows
  have found := overflows.of_call.of_terminal
  split at found <;> cases found

theorem padded_safe {inner : Parser Text Int}
    (safe : ∀ place, ¬ Overflows (reading text) allowed (.call inner) place) (place : Nat) :
    ¬ Overflows (reading text) allowed (.call (padded inner)) place := by
  intro overflows
  rcases overflows.of_call.of_both with within | ⟨_, _, within⟩
  · rcases within.of_call.of_both with within | ⟨_, _, within⟩
    · exact characters_safe _ within
    · exact safe _ within
  · exact characters_safe _ within

theorem between_infix {chars : List Char}
    (stands : (Text.ofString text).Between position chars stop) : chars <:+: text.toList := by
  obtain ⟨rest, ⟨before, same, -⟩, -⟩ := stands
  refine ⟨before, rest, ?_⟩
  have source := congrArg (fun one => one.source.toList) same
  simpa only [Text.ofString, String.toList_ofList, List.append_assoc] using source.symm

/-- Some stretch of the text is written for an operation whose result does not fit. -/
def HasOverflowing (text : String) : Prop :=
  ∃ chars spelled, chars <:+: text.toList ∧ Writes (String.ofList chars) spelled ∧
    Overflowing 64 spelled

theorem hasOverflowing_of_exceeds {left right : Parser Text Int} {wanted : String} {token : Token}
    {c : Char} {operation : Int → Int → Int} {denotes denotesToo : List Token → Int → Prop}
    (exceeds : Exceeds (reading text) allowed left (.literal wanted) right (computing 64 operation)
      position)
    (single : wanted.toList = [c]) (sign : token.sign? = some c)
    (explains : ∀ {place one}, (reading text).Answers allowed left place (.ok one) →
      Explains text place (Inscribed denotes) one)
    (explainsToo : ∀ {place one}, (reading text).Answers allowed right place (.ok one) →
      Explains text place (Inscribed denotesToo) one)
    (large : ∀ {one two left right}, denotes left one → denotesToo right two →
      Signed.fits 64 (operation one two) = false → Overflowing 64 (left ++ token :: right)) :
    HasOverflowing text := by
  obtain ⟨one, operator, two, first, between, second, finished⟩ := exceeds
  obtain ⟨chars, n, stands, ⟨spelled, written, denoted⟩, symbol_eq⟩ := explains first
  obtain ⟨charsToo, m, standsToo, ⟨spelledToo, writtenToo, denotedToo⟩, symbol_eqToo⟩ :=
    explainsToo second
  rw [symbol_eq, symbol_eqToo, computing_overflow_iff] at finished
  have covers := literal_covers between
  rw [single] at covers
  exact ⟨_, _, between_infix (stands.append (covers.append standsToo)),
    written.operation sign writtenToo, large denoted denotedToo finished⟩

theorem sumRule_overflows
    (overflows : Overflows (reading text) (explaining text) (.call sumRule) position) :
    HasOverflowing text := by
  rw [sumRule, computed_eq, computed_eq] at overflows
  rcases exceeds_of_level overflows (fun _ => rfl) (fun _ => rfl) (by exact nofun) (by exact nofun)
    characters_safe characters_safe with added | subtracted
  · exact hasOverflowing_of_exceeds added rfl (show Token.plus.sign? = _ from rfl) sum_answers
      product_answers .plus
  · exact hasOverflowing_of_exceeds subtracted rfl (show Token.minus.sign? = _ from rfl)
      sum_answers product_answers .minus

theorem productRule_overflows
    (overflows : Overflows (reading text) (explaining text) (.call productRule) position) :
    HasOverflowing text := by
  rw [productRule, computed_eq] at overflows
  rcases exceeds_of_level overflows (fun _ => rfl) (fun _ => rfl) (by exact nofun) (by exact nofun)
    characters_safe characters_safe with multiplied | divided
  · exact hasOverflowing_of_exceeds multiplied rfl (show Token.times.sign? = _ from rfl)
      product_answers term_answers .times
  · exact absurd divided not_exceeds_dividing

theorem term_safe (place : Nat) :
    ¬ Overflows (reading text) (explaining text) (.body term) place := by
  intro overflows
  obtain ⟨one, member, within⟩ := overflows.of_choice
  simp only [List.mem_cons, List.not_mem_nil, or_false] at member
  rcases member with rfl | rfl
  · exact padded_safe (fun _ within => absurd within.untagged (by exact nofun)) _ within
  · rcases within.of_call.of_both with within | ⟨_, _, within⟩
    · rcases within.of_call.of_both with within | ⟨_, _, within⟩
      · exact padded_safe characters_safe _ within
      · exact absurd within.untagged nofun
    · exact padded_safe characters_safe _ within

theorem number_safe (place : Nat) :
    ¬ Overflows (reading text) (explaining text) (.body number) place := by
  intro overflows
  rcases overflows.of_wrap with within | ⟨_, _, finished⟩
  · rcases within.of_call.of_wrap with within | ⟨_, _, finished⟩
    · exact characters_safe _ within
    · cases finished
  · cases finished

theorem rules_overflow (tag : Tag)
    (overflows : Overflows (reading text) (explaining text) (.body (rules tag)) position) :
    HasOverflowing text := by
  have sums (overflows : Overflows (reading text) (explaining text) (.body sum) position) :
      HasOverflowing text :=
    sumRule_overflows (.executed rfl
      (overflows.of_handle (show arena.resolve ⟨"sum"⟩ 1 = .ok sumRule from rfl)))
  rcases rules_cases tag with same | same | same | same | same
  · rw [same] at overflows
    exact sums (overflows.of_handle (show arena.resolve ⟨"expr"⟩ 0 = .ok sum from rfl))
  · rw [same] at overflows
    exact sums overflows
  · rw [same] at overflows
    exact productRule_overflows (.executed rfl
      (overflows.of_handle (show arena.resolve ⟨"product"⟩ 2 = .ok productRule from rfl)))
  · rw [same] at overflows
    exact absurd overflows (term_safe _)
  · rw [same] at overflows
    exact absurd overflows (number_safe _)

def tags : Finset Tag := {⟨"expr"⟩, ⟨"sum"⟩, ⟨"product"⟩, ⟨"term"⟩, ⟨"number"⟩}

theorem literal_composed (wanted : String) :
    (Parser.literal wanted : Parser Text Int).Composed (.overflowing tags) :=
  .terminal (TextTerminal.literal wanted)

theorem padded_composed {inner : Parser Text Int} (composed : inner.Composed (.overflowing tags)) :
    (padded inner).Composed (.overflowing tags) := by
  have around : blanks.Composed (.overflowing tags) := .terminal (TextTerminal.charsIn _ _)
  exact .both _ (.both _ around composed) around

theorem handle_composed {tag : Tag} (slot : Nat) (member : tag ∈ tags) :
    (Parser.handle tag slot : Parser Text Int).Composed (.overflowing tags) := .handle slot member

theorem term_composed : term.Composed (.overflowing tags) := by
  have numbers : number.Composed (.overflowing tags) := by
    refine .wrap (by simp [Pieces.overflowing, tags])
      (.wrap nofun (.terminal (TextTerminal.charsIn _ _)) ?_) ?_
    · exact fun _ _ broken => nomatch broken
    · exact fun _ _ broken => nomatch broken
  refine .choice (by simp [Pieces.overflowing, tags]) ?_
  simp only [List.mem_cons, List.not_mem_nil, or_false]
  rintro parser (rfl | rfl)
  · exact padded_composed numbers
  · exact .both _ (.both _ (padded_composed (literal_composed "("))
      (handle_composed 0 (by simp [tags]))) (padded_composed (literal_composed ")"))

theorem arena_composed : arena.Composed (.overflowing tags) := by
  have sums : sum.Composed (.overflowing tags) := handle_composed 1 (by simp [tags])
  have products : product.Composed (.overflowing tags) := handle_composed 2 (by simp [tags])
  refine Arena.ofParsers_composed fun parser member => ?_
  simp only [List.mem_cons, List.not_mem_nil, or_false] at member
  rcases member with rfl | rfl | rfl
  · exact sums
  · exact level_composed (computed_composed 64 _ sums (literal_composed "+") products)
      (computed_composed 64 _ sums (literal_composed "-") products) products
  · exact level_composed (computed_composed 64 _ products (literal_composed "*") term_composed)
      (divided_composed 64 products (literal_composed "/") term_composed) term_composed

theorem arena_acyclic : arena.Acyclic := by
  refine Arena.acyclic_of_lt fun slot other aliases => ?_
  obtain ⟨tag, parser, resolved, aliased⟩ := aliases
  have held := Arena.held_of_resolve resolved
  match slot with
  | 0 =>
      cases held
      cases aliased
      exact Nat.zero_lt_one
  | 1 =>
      cases held
      cases aliased
  | 2 =>
      cases held
      cases aliased
  | slot + 3 => cases held

end Texts

end OverText

/-! ## How evaluations end -/

/--
An evaluation gives a value that fits or an error, or it overflows, for which there has to be a
reason.
-/
inductive Concludes (bits : Nat) (reason : Prop)
    (evaluate : Nat → Run Int (Except ParseError Value)) : Prop where
  | computed {steps : Nat} {value : Int} {final : State Int} :
      evaluate steps = .done (.ok (.atom value)) final → Signed.fits bits value = true →
      Concludes bits reason evaluate
  | rejected {steps : Nat} {error : ParseError} {final : State Int} :
      evaluate steps = .done (.error error) final → Concludes bits reason evaluate
  | overflowed {steps : Nat} {final : State Int} :
      evaluate steps = .faulted .overflow final → reason → Concludes bits reason evaluate

/-- A parse that ends or overflows concludes if its symbols are values and it has a reason. -/
theorem concludes_of_parse {ι : Type} [Input ι] {setting : Setting ι Int} {parser : Parser ι Int}
    {bits : Nat} {reason : Prop}
    (ends : (∃ steps result final, setting.parse steps parser = .done result final) ∨
      ∃ steps final, setting.parse steps parser = .faulted .overflow final ∧
        Ends setting (.call parser) (.initial .standard) (.faulted .overflow) final)
    (values : ∀ matched final, Ends setting (.call parser) (.initial .standard)
        (.answered (.ok matched)) final →
      ∃ value, matched.symbol = .atom value ∧ Signed.fits bits value = true)
    (reasons : ∀ final, Ends setting (.call parser) (.initial .standard) (.faulted .overflow)
      final → reason) :
    Concludes bits reason fun steps => setting.parse steps parser := by
  rcases ends with ⟨steps, result, final, done⟩ | ⟨steps, final, faulted, ends⟩
  · cases result with
    | error error => exact .rejected done
    | ok symbol =>
        obtain ⟨matched, middle, ends, rfl, -⟩ := Setting.parse_eq_ok_iff.mp ⟨steps, final, done⟩
        obtain ⟨value, same, fits⟩ := values matched middle ends
        rw [same] at done
        exact .computed done fits
  · exact .overflowed faulted (reasons final ends)

theorem OverTokens.evaluate_concludes (tokens : Array Token)
    (numbers : NumbersFit 32 tokens.toList) :
    Concludes 32 (HasOverflowing tokens) fun steps => evaluate steps tokens := by
  have derives := rules_explained tokens
  have grammar := rules_grammar tokens
  refine concludes_of_parse (Setting.parse_ends_or_overflows tags (Nat.zero_le _)
    (Arena.empty_composed _) Arena.empty_acyclic expression_composed) ?_ ?_
  · intro matched final ends
    obtain ⟨spelled, value, stands, ⟨tree, rfl, valued⟩, same⟩ :=
      expression_answers (derives.answers grammar (.rule ⟨"expr"⟩) ends)
    exact ⟨value, same, tree.fits_value (numbers.mono stands.infix.subset) valued⟩
  · intro final ends
    obtain ⟨key, overflows⟩ := derives.overflows grammar (.rule ⟨"expr"⟩) (by exact nofun) ends
    exact rules_overflow key.tag overflows

theorem OverText.evaluate_concludes (text : String) :
    Concludes 64 (HasOverflowing text) fun steps => evaluate steps text := by
  have derives := rules_explained text
  have grammar := rules_grammar text
  refine concludes_of_parse (Setting.parse_ends_or_overflows tags
    (Text.isBoundary_zero text) arena_composed arena_acyclic
    (handle_composed 0 (by simp [tags]))) ?_ ?_
  · intro matched final ends
    obtain ⟨chars, value, stands, ⟨spelled, written, tree, rfl, valued⟩, same⟩ :=
      expression_answers (derives.answers grammar (.rule ⟨"expr"⟩) ends)
    obtain ⟨before, after, -, -, spells⟩ := writes_ofList.mp written
    exact ⟨value, same, tree.fits_value spells.numbersFit valued⟩
  · intro final ends
    obtain ⟨key, overflows⟩ := derives.overflows grammar (.rule ⟨"expr"⟩) (by exact nofun) ends
    exact rules_overflow key.tag overflows

namespace OverTokens

/-- In the place of an overflow stands a symbol that no rule matches. -/
def repair : Result Int := .ok .unit

def repairedRules (tag : Tag) : Parser (Array Token) Int := (rules tag).repaired repair

variable {tokens : Array Token} {allowed : Answering (Array Token) Int} {position stop : Nat}
  {symbol : Value}

theorem reading_repaired (tokens : Array Token) :
    (reading tokens).repaired repair = reading tokens := by
  simp [reading, Setting.repaired, Arena.repaired, Arena.empty]

def repairedProducts (tokens : Array Token) : Level (reading tokens) repairedRules where
  tag := ⟨"product"⟩
  itself := products.repaired repair
  tagged := rfl
  named := rfl
  next := ⟨"term"⟩
  operand := (term expression).repaired repair
  operand_tagged := rfl
  operand_named := rfl
  different := (productLevel tokens).different
  first := just .times
  second := just .dividedBy
  finishFirst := Finish.repaired repair (computing 32 (· * ·))
  finishSecond := Finish.repaired repair (dividing 32)
  first_fails _ := rfl
  second_fails _ := rfl
  reads {allowed position stop symbol} reads := by
    have choice : (reading tokens).Reads allowed (productChoice.repaired repair) position symbol
        stop := by
      rw [productChoice, computed_eq]
      exact reads
    exact .recursive (choice.matches rfl)

def repairedSums (tokens : Array Token) : Level (reading tokens) repairedRules where
  tag := ⟨"expr"⟩
  itself := expression.repaired repair
  tagged := rfl
  named := rfl
  next := ⟨"product"⟩
  operand := products.repaired repair
  operand_tagged := rfl
  operand_named := rfl
  different := (sumLevel tokens).different
  first := just .plus
  second := just .minus
  finishFirst := Finish.repaired repair (computing 32 (· + ·))
  finishSecond := Finish.repaired repair (computing 32 (· - ·))
  first_fails _ := rfl
  second_fails _ := rfl
  reads {allowed position stop symbol} reads := by
    have choice : (reading tokens).Reads allowed (sumChoice.repaired repair) position symbol
        stop := by
      rw [sumChoice, computed_eq, computed_eq]
      exact reads
    exact .recursive (choice.matches rfl)

theorem repaired_number_settles {n : Int} {rest : List Token}
    (here : onward tokens position = .number n :: rest) :
    (reading tokens).SettlesOk repairedRules ⟨"term"⟩ position (.atom n) (position + 1) :=
  .of_unasked (.choice [] rfl (fun _ member => absurd member List.not_mem_nil)
    (number_matches here))

def multiplication (one two : Int) : Array Token := #[.number one, .times, .number two]

/-- With repaired operations a product that does not fit reads to the end. -/
theorem repaired_product_settles {one two : Int} (large : Signed.fits 32 (one * two) = false) :
    (reading (multiplication one two)).SettlesOk repairedRules ⟨"expr"⟩ 0 .unit 3 := by
  let tokens := multiplication one two
  have here : onward tokens 0 = [.number one, .times, .number two] := rfl
  have operator := onward_tail here
  have last := onward_tail operator
  have nothing := onward_tail last
  have inside : 3 ≤ Input.size (reading tokens).input := Nat.le_refl 3
  have misses (token : Token) (allowed : Answering (Array Token) Int) :
      (reading tokens).Misses allowed (just token) 3 := just_misses (by rw [nothing]; nofun)
  have finished : (repairedProducts tokens).finishFirst (.ok (.pair (.atom one) (.atom two))) =
      .ok (.ok .unit) := by
    have overflows := (computing_overflow_iff 32 (· * ·) one two).mpr large
    simp only [repairedProducts, Finish.repaired, overflows, repair]
  have start : (repairedProducts tokens).Grown 0 (.atom one) 1 :=
    .start (repaired_number_settles here) Nat.zero_lt_one
  have grown : (repairedProducts tokens).Grown 0 .unit 3 :=
    start.first (fun _ => just_matches operator) (repaired_number_settles last) finished
      (by decide)
  have settles := grown.settles inside (misses .times) (misses .dividedBy)
  have sums : (repairedSums tokens).Grown 0 .unit 3 := .start settles grown.forward
  exact sums.settles inside (misses .plus) (misses .minus)

/-- A product of two numbers that does not fit overflows. -/
theorem product_overflows {one two : Int} (large : Signed.fits 32 (one * two) = false) :
    ∃ final, Ends (reading (multiplication one two)) (.call expression) (.initial .standard)
      (.faulted .overflow) final := by
  let tokens := multiplication one two
  have sound : (State.initial .standard : State Int).Sound (reading tokens).input :=
    ⟨Nat.zero_le _, Policy.standard_fresh.remembers _⟩
  have arena : (reading tokens).arena.Composed (.overflowing tags) := Arena.empty_composed _
  rcases call_ends_or_overflows tags arena Arena.empty_acyclic expression_composed sound nofun with
    ⟨outcome, last, answered⟩ | overflowed
  · obtain ⟨final, ends⟩ := ((repaired_product_settles large).settlesOn
      (show (expression.repaired repair).tag = _ from rfl) rfl).ends_fresh
    rw [← reading_repaired] at ends
    rcases Ends.of_repaired repair ends with same | ⟨fault, last, faulted⟩
    · -- The symbol in the place of the overflow is explained by no tokens.
      obtain ⟨_, _, _, _, symbol_eq⟩ := expression_answers
        ((rules_explained tokens).answers (rules_grammar tokens) (.rule ⟨"expr"⟩) same)
      cases symbol_eq
    · cases (answered.unique faulted).1
  · exact overflowed

end OverTokens

theorem lex_large_product : lex "2147483647*2" =
    .ok ⟨OverTokens.multiplication 2147483647 2, #[⟨0, 10⟩, ⟨10, 11⟩, ⟨11, 12⟩]⟩ := by
  have digits : Json.Digits "2147483647".toList :=
    ⟨List.cons_ne_nil _ _, forall_mem_of_all (by decide)⟩
  have greatest : (Token.number 2147483647).Renders "2147483647".toList :=
    .number digits (by decide) (by decide)
  have two : (Token.number 2).Renders ['2'] :=
    .number ⟨List.cons_ne_nil _ _, forall_mem_of_all (by decide)⟩ (by decide) (by decide)
  have laid : Laid [] [⟨.number 2147483647, "2147483647".toList, []⟩, ⟨.times, ['*'], []⟩,
      ⟨.number 2, ['2'], []⟩] := by
    constructor
    · simp [Space]
    · simp only [List.forall_mem_cons, List.not_mem_nil, false_implies, implies_true, and_true]
      exact ⟨⟨greatest, by simp [Space]⟩, ⟨.sign rfl, by simp [Space]⟩, ⟨two, by simp [Space]⟩⟩
    · simp [Lexeme.Apart, Token.sign?]
  exact lex_rendered laid

/--
Evaluating a text, or the tokens of a source, gives a value that fits or an error, or a sum, a
difference or a product overflows that a stretch of the input spells.  A division never overflows.
-/
theorem evaluations_conclude (text source : String) (lexed : Lexed Token)
    (lexes : lex source = .ok lexed) :
    (Concludes 64 (OverText.HasOverflowing text) fun steps => OverText.evaluate steps text) ∧
      Concludes 32 (OverTokens.HasOverflowing lexed.tokens)
        fun steps => OverTokens.evaluate steps lexed.tokens :=
  ⟨OverText.evaluate_concludes text,
    OverTokens.evaluate_concludes lexed.tokens (numbersFit_of_lex lexes)⟩

theorem evaluations_conclude_large_product : ∃ lexed, lex "2147483647*2" = .ok lexed ∧
    (Concludes 64 (OverText.HasOverflowing "6/2") fun steps => OverText.evaluate steps "6/2") ∧
      Concludes 32 (OverTokens.HasOverflowing lexed.tokens)
        fun steps => OverTokens.evaluate steps lexed.tokens :=
  ⟨_, lex_large_product, evaluations_conclude "6/2" "2147483647*2" _ lex_large_product⟩

/-- A source that lexes is evaluated neither to a value nor to an error. -/
theorem large_product_overflows : ∃ lexed, lex "2147483647*2" = .ok lexed ∧
    (∃ steps final, OverTokens.evaluate steps lexed.tokens = .faulted .overflow final) ∧
      ∀ steps result final, OverTokens.evaluate steps lexed.tokens ≠ .done result final := by
  obtain ⟨final, faulted⟩ := OverTokens.product_overflows
    (show Signed.fits 32 (2147483647 * 2) = false by decide)
  obtain ⟨steps, overflows⟩ := Setting.parse_eq_faulted faulted
  exact ⟨_, lex_large_product, ⟨steps, final, overflows⟩, Setting.parse_ne_done faulted⟩

end Packrat.Calculator
