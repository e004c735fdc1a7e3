import Packrat.Proofs.Derivation
import Packrat.Proofs.TextCalculator

/-!
# What the calculator over texts matches

Whatever a rule of the calculator matches, in any round of growing and in alternatives that are
given up later, are characters that spell a tree with the value of the match.  A handle runs the
body of what it is defined as, so that an expression matches what a sum does.
-/

namespace Packrat.Calculator

section Spelling

variable {tokens more : List Token} {chars rest blanks : List Char} {token : Token} {c : Char}

theorem Blanks.append (blank : Blanks blanks) (blankToo : Blanks chars) :
    Blanks (blanks ++ chars) :=
  List.forall_mem_append.mpr ⟨blank, blankToo⟩

theorem Spells.append (spells : Spells tokens chars) (spellsToo : Spells more rest) :
    Spells (tokens ++ more) (chars ++ rest) := by
  induction spells with
  | nil => exact spellsToo
  | cons word blank _ ih =>
      rw [List.cons_append, List.append_assoc, List.append_assoc]
      exact .cons word blank ih

theorem Spells.trailed (spells : Spells tokens chars) (present : tokens ≠ [])
    (blank : Blanks blanks) : Spells tokens (chars ++ blanks) := by
  induction spells with
  | nil => exact absurd rfl present
  | @cons _ tokens _ between _ word blankToo following ih =>
      rw [List.append_assoc, List.append_assoc]
      cases tokens with
      | nil =>
          cases following
          rw [List.nil_append, ← List.append_nil (between ++ blanks)]
          exact .cons word (blankToo.append blank) .nil
      | cons other tokens => exact .cons word blankToo (ih (List.cons_ne_nil _ _))

theorem writes_ofList : Writes (String.ofList chars) tokens ↔
    ∃ before after, chars = before ++ after ∧ Blanks before ∧ Spells tokens after := by
  rw [Writes, String.toList_ofList]

/-- Two expressions with a sign between them. -/
theorem Writes.operation (left : Writes (String.ofList chars) tokens)
    (sign : token.sign? = some c) (right : Writes (String.ofList rest) more) :
    Writes (String.ofList (chars ++ c :: rest)) (tokens ++ token :: more) := by
  obtain ⟨before, front, rfl, blank, spells⟩ := writes_ofList.mp left
  obtain ⟨between, back, rfl, blankToo, spellsToo⟩ := writes_ofList.mp right
  refine writes_ofList.mpr ⟨before, front ++ ([c] ++ (between ++ back)), ?_, blank,
    spells.append (.cons (.sign sign) blankToo spellsToo)⟩
  rw [List.append_assoc, List.singleton_append]

theorem Token.Spells.writes {before after : List Char} (word : token.Spells chars)
    (blank : Blanks before) (blankToo : Blanks after) :
    Writes (String.ofList (before ++ (chars ++ after))) [token] := by
  have alone := Packrat.Calculator.Spells.cons word blankToo .nil
  rw [List.append_nil] at alone
  exact writes_ofList.mpr ⟨before, _, rfl, blank, alone⟩

theorem Writes.append (first : Writes (String.ofList chars) tokens) (present : tokens ≠ [])
    (second : Writes (String.ofList rest) more) :
    Writes (String.ofList (chars ++ rest)) (tokens ++ more) := by
  obtain ⟨before, front, rfl, blank, spells⟩ := writes_ofList.mp first
  obtain ⟨between, back, rfl, blankToo, spellsToo⟩ := writes_ofList.mp second
  refine writes_ofList.mpr ⟨before, (front ++ between) ++ back, ?_, blank,
    (spells.trailed present blankToo).append spellsToo⟩
  simp only [List.append_assoc]

end Spelling

namespace OverText

variable {text : String} {allowed : Answering Text Int} {position stop : Nat}
  {matched : Match Value}

/-- The characters spell tokens that denote the value, with blanks around each of them. -/
def Inscribed (denotes : List Token → Int → Prop) (chars : List Char) (value : Int) : Prop :=
  ∃ spelled, Writes (String.ofList chars) spelled ∧ denotes spelled value

/-- A match covers characters that denote its symbol. -/
def Explains (text : String) (position : Nat) (denotes : List Char → Int → Prop)
    (matched : Match Value) : Prop :=
  ∃ chars value, (Text.ofString text).Between position chars matched.span.stop ∧
    denotes chars value ∧ matched.symbol = .atom value

def denoted (tag : Tag) : List Char → Int → Prop :=
  if tag = ⟨"expr"⟩ then Inscribed (SumTree.Denotes 64)
  else if tag = ⟨"sum"⟩ then Inscribed (SumTree.Denotes 64)
  else if tag = ⟨"product"⟩ then Inscribed (ProductTree.Denotes 64)
  else if tag = ⟨"term"⟩ then Inscribed (TermTree.Denotes 64)
  else fun chars n => (Token.number n).Spells chars

def explained (text : String) (key : Key) : Outcome Value → Prop
  | .error _ => True
  | .ok matched => Explains text key.position (denoted key.tag) matched

def explaining (text : String) : Answering Text Int := .named rules (explained text)

theorem Explains.operand {denotes more : List Char → Int → Prop} {one : Match Value}
    (explains : Explains text position denotes one) (same : matched.symbol = one.symbol)
    (stops : matched.span.stop = one.span.stop)
    (wider : ∀ {chars value}, denotes chars value → more chars value) :
    Explains text position more matched := by
  obtain ⟨chars, value, stands, denoted, symbol_eq⟩ := explains
  exact ⟨chars, value, stops ▸ stands, wider denoted, same.trans symbol_eq⟩

theorem onward_of_answers {expectation : String} {find : List Char → Option (Value × Nat)}
    (answers : (reading text).Answers allowed (.characters expectation find) position
      (.ok matched)) : ∃ chars, (Text.ofString text).Onward position chars := by
  obtain ⟨length, found, -⟩ := Setting.Answers.of_terminal answers
  cases rest : (Text.ofString text).rest position with
  | none =>
      rw [reading, rest] at found
      cases found
  | some chars => exact ⟨chars, Text.onward_of_rest rest⟩

theorem literal_covers {wanted : String}
    (answers : (reading text).Answers allowed (.literal wanted) position (.ok matched)) :
    (Text.ofString text).Between position wanted.toList matched.span.stop := by
  obtain ⟨chars, here⟩ := onward_of_answers answers
  exact (literal_answers here answers).1

theorem blanks_cover
    (answers : (reading text).Answers allowed blanks position (.ok matched)) :
    ∃ chars, Blanks chars ∧ (Text.ofString text).Between position chars matched.span.stop := by
  obtain ⟨chars, here⟩ := onward_of_answers answers
  obtain ⟨run, between, all, -, -⟩ := charsIn_answers here answers
  exact ⟨run, fun c member => (blank_iff c).mp (all c member), between⟩

theorem padded_answers {inner : Parser Text Int}
    (answers : (reading text).Answers allowed (padded inner) position (.ok matched)) :
    ∃ before place one after, Blanks before ∧ Blanks after ∧
      (Text.ofString text).Between position before place ∧
      (reading text).Answers allowed inner place (.ok one) ∧ matched.symbol = one.symbol ∧
      (Text.ofString text).Between one.span.stop after matched.span.stop := by
  obtain ⟨front, back, opened, trailing, front_eq, stops⟩ := answers.of_both
  obtain ⟨lead, one, leading, within, one_eq, stopsInner⟩ := opened.of_both
  obtain ⟨before, blank, first⟩ := blanks_cover leading
  obtain ⟨after, blankToo, last⟩ := blanks_cover trailing
  rw [← stops, stopsInner] at last
  exact ⟨before, lead.span.stop, one, after, blank, blankToo, first, within,
    front_eq.trans one_eq, last⟩

theorem sign_writes {wanted : String} {token : Token} {c : Char} (single : wanted.toList = [c])
    (sign : token.sign? = some c)
    (answers : (reading text).Answers allowed (padded (.literal wanted)) position (.ok matched)) :
    ∃ chars, (Text.ofString text).Between position chars matched.span.stop ∧
      Writes (String.ofList chars) [token] := by
  obtain ⟨before, place, one, after, blank, blankToo, first, within, -, last⟩ :=
    padded_answers answers
  have middle := literal_covers within
  rw [single] at middle
  exact ⟨_, first.append (middle.append last), (Token.Spells.sign sign).writes blank blankToo⟩

/-- An operation on explained operands is explained. -/
theorem Explains.operation {left right : Parser Text Int} {wanted : String} {token : Token}
    {c : Char} {finish : Finish Int} {operation? : Int → Int → Option Int}
    {denotes denotesToo : List Token → Int → Prop}
    (operates : Operates (reading text) allowed left (.literal wanted) right finish position
      matched)
    (single : wanted.toList = [c]) (sign : token.sign? = some c)
    (explains : ∀ {place one}, (reading text).Answers allowed left place (.ok one) →
      Explains text place (Inscribed denotes) one)
    (explainsToo : ∀ {place one}, (reading text).Answers allowed right place (.ok one) →
      Explains text place (Inscribed denotesToo) one)
    (computes : Computes finish operation?)
    (closed : ∀ {one two value left right}, denotes left one → denotesToo right two →
      operation? one two = some value → denotes (left ++ token :: right) value) :
    Explains text position (Inscribed denotes) matched := by
  obtain ⟨one, operator, two, first, between, second, finished, stops⟩ := operates
  obtain ⟨chars, n, stands, ⟨spelled, written, denoted⟩, symbol_eq⟩ := explains first
  obtain ⟨charsToo, m, standsToo, ⟨spelledToo, writtenToo, denotedToo⟩, symbol_eqToo⟩ :=
    explainsToo second
  rw [symbol_eq, symbol_eqToo] at finished
  obtain ⟨value, computed, result⟩ := computes.mp finished
  have covers := literal_covers between
  rw [single] at covers
  rw [← stops] at standsToo
  exact ⟨_, value, stands.append (covers.append standsToo),
    ⟨_, written.operation sign writtenToo, closed denoted denotedToo computed⟩, result⟩

/-! ## Calls of the rules -/

/-- A call of a rule is explained by what its tag denotes. -/
theorem rule_answers (tag : Tag) {parser : Parser Text Int} (tagged : parser.tag = some tag)
    (answers : (reading text).Answers (explaining text) parser position (.ok matched)) :
    Explains text position (denoted tag) matched := by
  have named : parser.tag ≠ none := by
    rw [tagged]
    exact nofun
  obtain ⟨other, found, -, given⟩ := (Setting.answers_tagged_iff named).mp answers
  cases tagged.symm.trans found
  exact given

theorem expression_answers
    (answers : (reading text).Answers (explaining text) expression position (.ok matched)) :
    Explains text position (Inscribed (SumTree.Denotes 64)) matched :=
  rule_answers ⟨"expr"⟩ rfl answers

theorem sum_answers
    (answers : (reading text).Answers (explaining text) sum position (.ok matched)) :
    Explains text position (Inscribed (SumTree.Denotes 64)) matched :=
  rule_answers ⟨"sum"⟩ rfl answers

theorem product_answers
    (answers : (reading text).Answers (explaining text) product position (.ok matched)) :
    Explains text position (Inscribed (ProductTree.Denotes 64)) matched :=
  rule_answers ⟨"product"⟩ rfl answers

theorem term_answers
    (answers : (reading text).Answers (explaining text) term position (.ok matched)) :
    Explains text position (Inscribed (TermTree.Denotes 64)) matched :=
  rule_answers ⟨"term"⟩ rfl answers

theorem number_answers
    (answers : (reading text).Answers (explaining text) number position (.ok matched)) :
    Explains text position (fun chars n => (Token.number n).Spells chars) matched :=
  rule_answers ⟨"number"⟩ rfl answers

/-- Whatever the body of the parser reads is explained. -/
def Faithful (text : String) (parser : Parser Text Int) (denotes : List Char → Int → Prop) :
    Prop :=
  ∀ (position : Nat) (matched : Match Value), matched.span.start = position →
    position ≤ matched.span.stop →
    (reading text).Replies (explaining text) parser position (.ok matched.symbol)
      matched.span.stop →
    Explains text position denotes matched

theorem faithful_handle {parser : Parser Text Int} {denotes : List Char → Int → Prop} {tag : Tag}
    {slot : Nat} (resolved : arena.resolve tag slot = .ok parser)
    (faithful : Faithful text parser denotes) : Faithful text (.handle tag slot) denotes :=
  fun position matched starts forward replies =>
    faithful position matched starts forward ((Setting.replies_handle_iff resolved).mp replies)

theorem faithful_of_answers {parser : Parser Text Int} {denotes : List Char → Int → Prop}
    (untagged : parser.tag = none)
    (explains : ∀ {position matched},
      (reading text).Answers (explaining text) parser position (.ok matched) →
        Explains text position denotes matched) : Faithful text parser denotes :=
  fun _ _ starts forward replies =>
    explains ((Setting.answers_ok_iff untagged).mpr ⟨replies, starts, forward⟩)

theorem sumRule_answers
    (answers : (reading text).Answers (explaining text) sumRule position (.ok matched)) :
    Explains text position (Inscribed (SumTree.Denotes 64)) matched := by
  rw [sumRule, computed_eq, computed_eq] at answers
  rcases operates_of_level answers (fun _ => rfl) (fun _ => rfl) with added | subtracted |
    ⟨one, only, same, stops⟩
  · exact .operation added rfl (show Token.plus.sign? = _ from rfl) sum_answers product_answers
      (computing_computes 64 _) SumTree.Denotes.plus
  · exact .operation subtracted rfl (show Token.minus.sign? = _ from rfl) sum_answers
      product_answers (computing_computes 64 _) SumTree.Denotes.minus
  · exact .operand (product_answers only) same stops fun denotes =>
      denotes.imp fun _ => And.imp_right SumTree.Denotes.product

theorem productRule_answers
    (answers : (reading text).Answers (explaining text) productRule position (.ok matched)) :
    Explains text position (Inscribed (ProductTree.Denotes 64)) matched := by
  rw [productRule, computed_eq] at answers
  rcases operates_of_level answers (fun _ => rfl) (fun _ => rfl) with multiplied | divided |
    ⟨one, only, same, stops⟩
  · exact .operation multiplied rfl (show Token.times.sign? = _ from rfl) product_answers
      term_answers (computing_computes 64 _) ProductTree.Denotes.times
  · exact .operation divided rfl (show Token.dividedBy.sign? = _ from rfl) product_answers
      term_answers (dividing_computes 64) ProductTree.Denotes.dividedBy
  · exact .operand (term_answers only) same stops fun denotes =>
      denotes.imp fun _ => And.imp_right ProductTree.Denotes.term

theorem term_faithful (text : String) :
    Faithful text term (Inscribed (TermTree.Denotes 64)) := by
  intro position matched _ _ replies
  obtain ⟨parser, member, one, answers, same, stops⟩ := Setting.Replies.of_choice replies
  refine .operand ?_ same stops id
  simp only [List.mem_cons, List.not_mem_nil, or_false] at member
  rcases member with rfl | rfl
  · obtain ⟨before, place, read, after, blank, blankToo, first, within, read_eq, last⟩ :=
      padded_answers answers
    obtain ⟨digits, n, covers, word, symbol_eq⟩ := number_answers within
    exact ⟨_, n, first.append (covers.append last), ⟨_, word.writes blank blankToo, .number n⟩,
      read_eq.trans symbol_eq⟩
  · obtain ⟨front, close, opened, closing, front_eq, stopsToo⟩ := answers.of_both
    obtain ⟨sign, inner, opening, within, inner_eq, stopsInner⟩ := opened.of_both
    obtain ⟨chars, value, covers, ⟨spelled, written, denotes⟩, symbol_eq⟩ :=
      expression_answers within
    obtain ⟨lead, first, opens⟩ := sign_writes rfl (show Token.opening.sign? = _ from rfl) opening
    obtain ⟨trail, last, closes⟩ := sign_writes rfl (show Token.closing.sign? = _ from rfl) closing
    rw [← stopsToo, stopsInner] at last
    have present : spelled ≠ [] := by
      obtain ⟨tree, rfl, -⟩ := denotes
      exact tree.tokens_ne_nil
    have whole := opens.append (List.cons_ne_nil _ _) (written.append present closes)
    exact ⟨_, value, first.append (covers.append last), ⟨_, whole, .parens denotes⟩,
      front_eq.trans (inner_eq.trans symbol_eq)⟩

theorem number_faithful (text : String) :
    Faithful text number fun chars n => (Token.number n).Spells chars := by
  intro position matched _ _ replies
  obtain ⟨one, answers, same, stops⟩ := Setting.Replies.of_labelled replies
  obtain ⟨run, answers, read, stopsRun⟩ := answers.of_tryMap
  obtain ⟨chars, here⟩ := onward_of_answers answers
  obtain ⟨digits, covers, all, enough, run_eq⟩ := charsIn_answers here answers
  rw [run_eq, readNumber, Symbol.plainText] at read
  split at read
  · next n value =>
      rw [← stopsRun, ← stops] at covers
      refine ⟨digits, n, covers, .number (List.length_pos_iff.mp enough) ?_ value, ?_⟩
      · exact fun c member => (contains_digits c).mp (all c member)
      · rw [same]
        exact (Except.ok.inj read).symm
  · cases read

theorem rules_faithful (text : String) (tag : Tag) :
    Faithful text (rules tag) (denoted tag) := by
  have sums : Faithful text sum (Inscribed (SumTree.Denotes 64)) :=
    faithful_handle (show arena.resolve ⟨"sum"⟩ 1 = .ok sumRule from rfl)
      (faithful_of_answers rfl sumRule_answers)
  unfold rules denoted
  split
  · exact faithful_handle (show arena.resolve ⟨"expr"⟩ 0 = .ok sum from rfl) sums
  · split
    · exact sums
    · split
      · exact faithful_handle (show arena.resolve ⟨"product"⟩ 2 = .ok productRule from rfl)
          (faithful_of_answers rfl productRule_answers)
      · split
        · exact term_faithful text
        · exact number_faithful text

/-- The bodies of the rules match only what can be explained. -/
theorem rules_explained (text : String) : (reading text).Derives rules (explained text) where
  refused _ := trivial
  made key outcome round := by
    obtain ⟨result, stop, replies, forward, rfl⟩ := round
    cases result with
    | error mismatch => trivial
    | ok symbol =>
        exact rules_faithful text key.tag key.position ⟨symbol, ⟨key.position, stop⟩⟩ rfl
          (forward symbol rfl) replies

theorem rules_cases (tag : Tag) : rules tag = expression ∨ rules tag = sum ∨
    rules tag = product ∨ rules tag = term ∨ rules tag = number := by
  unfold rules
  repeat' split
  all_goals simp only [true_or, or_true]

theorem padded_linked {inner : Parser Text Int} (linked : inner.Linked rules) :
    (padded inner).Linked rules :=
  .both _ (.both _ (.terminal _ _) linked) (.terminal _ _)

theorem operands_linked {left right : Parser Text Int} (wanted : String) (finish : Finish Int)
    (one : left.Linked rules) (two : right.Linked rules) :
    (Parser.wrap none (some .general) (operands left (.literal wanted) right)
      finish).Linked rules :=
  .wrap _ finish (.both _ (.both _ one (.terminal _ _)) two)

/-- The rules make a grammar, in which handles stand for the choices of sums and products. -/
theorem rules_grammar (text : String) : (reading text).Grammar rules (Parser.Linked rules)
    fun parser => parser.Linked rules ∨ parser = sumRule ∨ parser = productRule := by
  have sums : sum.Linked rules := .rule ⟨"sum"⟩
  have products : product.Linked rules := .rule ⟨"product"⟩
  have terms : term.Linked rules := .rule ⟨"term"⟩
  have numbers : number.Linked rules := .rule ⟨"number"⟩
  have expressions : expression.Linked rules := .rule ⟨"expr"⟩
  refine Setting.grammar_of_rules (fun tag state => ?_) (fun tag _ _ _ => ?_)
    (fun {tag _} => ?_) ?_ ?_
  · rcases rules_cases tag with same | same | same | same | same
    · rw [same]
      exact .inl sums
    · rw [same]
      exact .inr (.inl rfl)
    · rw [same]
      exact .inr (.inr rfl)
    · rw [same, term, Parser.oneOfTagged, Parser.start]
      refine (tryAlternatives_over ?_).leads .inl
      simp only [List.mem_cons, List.not_mem_nil, or_false]
      rintro parser (rfl | rfl)
      · exact padded_linked numbers
      · exact .both _ (.both _ (padded_linked (.terminal _ _)) expressions)
          (padded_linked (.terminal _ _))
    · rw [same]
      exact ⟨.wrap _ _ (.terminal _ _), trivial⟩
  · rcases rules_cases tag with same | same | same | same | same <;> rw [same] <;> rfl
  · rcases rules_cases tag with same | same | same | same | same <;>
      · rw [same]
        rintro ⟨⟩
        rfl
  · rintro parser (rfl | rfl) state
    · rw [sumRule, Parser.oneOf, Parser.start]
      refine (tryAlternatives_over ?_).leads .inl
      simp only [List.mem_cons, List.not_mem_nil, or_false]
      rintro parser (rfl | rfl | rfl)
      · exact operands_linked "+" _ sums products
      · exact operands_linked "-" _ sums products
      · exact products
    · rw [productRule, Parser.oneOf, Parser.start]
      refine (tryAlternatives_over ?_).leads .inl
      simp only [List.mem_cons, List.not_mem_nil, or_false]
      rintro parser (rfl | rfl | rfl)
      · exact operands_linked "*" _ products terms
      · exact operands_linked "/" _ products terms
      · exact terms
  · rintro parser (rfl | rfl) _ _ _ <;> rfl

end OverText

end Packrat.Calculator
