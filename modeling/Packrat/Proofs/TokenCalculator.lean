import Packrat.Calculator.OverTokens
import Packrat.Proofs.Arithmetic
import Packrat.Proofs.Derivation
import Packrat.Proofs.History
import Packrat.Proofs.LeftAssociation
import Packrat.Proofs.WholeInput

/-!
# The calculator over tokens
-/

namespace Packrat.Calculator.OverTokens

/-- Products around which the expression is known. -/
def products : Parser (Array Token) Int :=
  .recursive ⟨"product"⟩ (.oneOf [
    computed 32 (· * ·) (.self 0) (just .times) (term expression),
    divided 32 (.self 0) (just .dividedBy) (term expression),
    term expression])

def sumChoice : Parser (Array Token) Int :=
  .oneOf [
    computed 32 (· + ·) expression (just .plus) products,
    computed 32 (· - ·) expression (just .minus) products,
    products]

def productChoice : Parser (Array Token) Int :=
  .oneOf [
    computed 32 (· * ·) products (just .times) (term expression),
    divided 32 products (just .dividedBy) (term expression),
    term expression]

def rules (tag : Tag) : Parser (Array Token) Int :=
  if tag = ⟨"expr"⟩ then expression
  else if tag = ⟨"product"⟩ then products
  else term expression

def reading (tokens : Array Token) : Setting (Array Token) Int := ⟨tokens, .empty⟩

variable {tokens : Array Token} {allowed : Answering (Array Token) Int} {position stop : Nat}
  {symbol : Value}

theorem expression_reads (reads : (reading tokens).Reads allowed sumChoice position symbol stop) :
    (reading tokens).Reads allowed expression position symbol stop :=
  .recursive (reads.matches rfl)

theorem products_reads (reads : (reading tokens).Reads allowed productChoice position symbol stop) :
    (reading tokens).Reads allowed products position symbol stop :=
  .recursive (reads.matches rfl)

theorem term_ne_product : (⟨"term"⟩ : Tag) ≠ ⟨"product"⟩ := by decide

def productLevel (tokens : Array Token) : Level (reading tokens) rules where
  tag := ⟨"product"⟩
  itself := products
  tagged := rfl
  named := rfl
  next := ⟨"term"⟩
  operand := term expression
  operand_tagged := rfl
  operand_named := rfl
  different := term_ne_product
  first := just .times
  second := just .dividedBy
  finishFirst := computing 32 (· * ·)
  finishSecond := dividing 32
  first_fails _ := rfl
  second_fails _ := rfl
  reads reads := products_reads (by rwa [productChoice, computed_eq])

def sumLevel (tokens : Array Token) : Level (reading tokens) rules where
  tag := ⟨"expr"⟩
  itself := expression
  tagged := rfl
  named := rfl
  next := ⟨"product"⟩
  operand := products
  operand_tagged := rfl
  operand_named := rfl
  different := by decide
  first := just .plus
  second := just .minus
  finishFirst := computing 32 (· + ·)
  finishSecond := computing 32 (· - ·)
  first_fails _ := rfl
  second_fails _ := rfl
  reads reads := expression_reads (by rwa [sumChoice, computed_eq, computed_eq])

/-- The tokens from a position onward. -/
def onward (tokens : Array Token) (position : Nat) : List Token := tokens.toList.drop position

variable {token : Token} {before rest : List Token}

theorem onward_append (here : onward tokens position = before ++ rest) :
    onward tokens (position + before.length) = rest := by
  unfold onward at here ⊢
  rw [← List.drop_drop, here, List.drop_left]

theorem onward_tail (here : onward tokens position = token :: rest) :
    onward tokens (position + 1) = rest := by
  have split : onward tokens position = [token] ++ rest := here
  exact onward_append split

theorem le_size_of_onward (present : before ≠ [])
    (here : onward tokens position = before ++ rest) :
    position + before.length ≤ tokens.size := by
  have counted := congrArg List.length here
  rw [onward, List.length_drop, Array.length_toList, List.length_append] at counted
  have pos := List.length_pos_iff.mpr present
  omega

theorem getElem?_eq_head? (tokens : Array Token) (position : Nat) :
    tokens[position]? = (onward tokens position).head? := by
  rw [onward, List.head?_drop, Array.getElem?_toList]

theorem just_matches (here : onward tokens position = token :: rest) :
    (reading tokens).Matches allowed (just token) position .unit (position + 1) := by
  refine .terminal ?_ (le_size_of_onward (List.cons_ne_nil token []) here)
  rw [reading, getElem?_eq_head?, here, List.head?_cons, Option.bind_some, if_pos rfl,
    Option.map_some]

theorem just_misses (other : (onward tokens position).head? ≠ some token) :
    (reading tokens).Misses allowed (just token) position := by
  refine .terminal ?_
  rw [reading, getElem?_eq_head?]
  cases next : (onward tokens position).head? with
  | none => rfl
  | some found =>
      have different : found ≠ token := fun same => other (by rw [next, same])
      rw [Option.bind_some, if_neg different, Option.map_none]

theorem number_matches {n : Int} (here : onward tokens position = .number n :: rest) :
    (reading tokens).Matches allowed (.select readNumber) position (.atom n) (position + 1) := by
  have inside := le_size_of_onward (List.cons_ne_nil (Token.number n) []) here
  refine .terminal ?_ inside
  rw [reading, getElem?_eq_head?, here]
  rfl

theorem number_misses (here : onward tokens position = .opening :: rest) :
    (reading tokens).Misses allowed (.select readNumber) position := by
  refine .terminal ?_
  rw [reading, getElem?_eq_head?, here]
  rfl

/-! ## Trees are read -/

/-- A product that has been read settles if no operator of its rank follows. -/
theorem product_settles {left : Value} (grown : (productLevel tokens).Grown position left stop)
    (inside : stop ≤ tokens.size) (noTimes : (onward tokens stop).head? ≠ some .times)
    (noDivision : (onward tokens stop).head? ≠ some .dividedBy) :
    (reading tokens).SettlesOk rules ⟨"product"⟩ position left stop :=
  grown.settles inside (fun _ => just_misses noTimes) fun _ => just_misses noDivision

theorem sum_settles {left : Value} (grown : (sumLevel tokens).Grown position left stop)
    (inside : stop ≤ tokens.size) (noPlus : (onward tokens stop).head? ≠ some .plus)
    (noMinus : (onward tokens stop).head? ≠ some .minus) :
    (reading tokens).SettlesOk rules ⟨"expr"⟩ position left stop :=
  grown.settles inside (fun _ => just_misses noPlus) fun _ => just_misses noMinus

theorem parens_settles {inner : List Token}
    (here : onward tokens position = .opening :: inner ++ .closing :: rest)
    (settles : (reading tokens).SettlesOk rules ⟨"expr"⟩ (position + 1) symbol
      (position + 1 + inner.length)) :
    (reading tokens).SettlesOk rules ⟨"term"⟩ position symbol
      (position + 1 + inner.length + 1) := by
  have after : onward tokens (position + 1) = inner ++ .closing :: rest :=
    onward_tail here
  have matched : (reading tokens).Matches
      (.named rules (unansweredAt ⟨position, ⟨"term"⟩⟩ ((reading tokens).Settles rules))) expression
      (position + 1) symbol (position + 1 + inner.length) :=
    settles.matches_unasked ⟨position, ⟨"term"⟩⟩ rfl rfl (by decide : (⟨"expr"⟩ : Tag) ≠ ⟨"term"⟩)
  refine .of_unasked (.choice [.select readNumber] rfl ?_
    (.both (.both (just_matches here) matched) (just_matches (onward_append after))))
  simp only [List.mem_singleton, forall_eq]
  exact number_misses here

theorem add_length_append_cons {position : Nat} {left right : List Token} {token : Token} :
    position + (left ++ token :: right).length = position + left.length + 1 + right.length := by
  rw [List.length_append, List.length_cons]
  omega

theorem lt_add_length {position : Nat} {tokens : List Token} (present : tokens ≠ []) :
    position < position + tokens.length :=
  Nat.lt_add_of_pos_right (List.length_pos_iff.mpr present)

mutual

/-- A term settles on its value. -/
theorem term_settles (tree : TermTree) {value : Int} {position : Nat} {rest : List Token}
    (here : onward tokens position = tree.tokens ++ rest) (valued : tree.value? 32 = some value) :
    (reading tokens).SettlesOk rules ⟨"term"⟩ position (.atom value)
      (position + tree.tokens.length) := by
  cases tree with
  | number n =>
      rw [TermTree.tokens] at here ⊢
      rw [TermTree.value?] at valued
      cases valued
      exact .of_unasked (.choice [] rfl nofun (number_matches here))
  | parens inner =>
      rw [TermTree.value?] at valued
      rw [TermTree.tokens, List.append_assoc] at here
      have after : onward tokens (position + 1) = inner.tokens ++ .closing :: rest :=
        onward_tail here
      have closing := onward_append after
      have inside := le_size_of_onward (List.cons_ne_nil .closing []) closing
      have grown := sum_grown inner after nofun nofun valued
      have settles := sum_settles grown (Nat.le_of_succ_le inside) (by rw [closing]; nofun)
        (by rw [closing]; nofun)
      have read := parens_settles here settles
      rwa [TermTree.tokens, List.length_append, List.length_cons, ← Nat.add_assoc,
        Nat.add_comm inner.tokens.length, ← Nat.add_assoc]

theorem product_grown (tree : ProductTree) {value : Int} {position : Nat} {rest : List Token}
    (here : onward tokens position = tree.tokens ++ rest) (valued : tree.value? 32 = some value) :
    (productLevel tokens).Grown position (.atom value) (position + tree.tokens.length) := by
  cases tree with
  | term only => exact .start (term_settles only here valued) (lt_add_length only.tokens_ne_nil)
  | times left right =>
      obtain ⟨one, leftValued, two, rightValued, fits⟩ := operation_eq_some_iff.mp valued
      rw [ProductTree.tokens, List.append_assoc] at here
      rw [ProductTree.tokens, add_length_append_cons]
      have operator := onward_append here
      have grown := product_grown left here leftValued
      have operand := term_settles right (onward_tail operator) rightValued
      exact grown.first (fun _ => just_matches operator) operand
        ((computing_computes _ _).mpr ⟨value, fits, rfl⟩) (by omega)
  | dividedBy left right =>
      obtain ⟨one, leftValued, two, rightValued, divides⟩ := operation_eq_some_iff.mp valued
      rw [ProductTree.tokens, List.append_assoc] at here
      rw [ProductTree.tokens, add_length_append_cons]
      have operator := onward_append here
      have grown := product_grown left here leftValued
      have operand := term_settles right (onward_tail operator) rightValued
      exact grown.second (fun _ => just_misses (by rw [operator]; nofun))
        (fun _ => just_matches operator) operand
        ((dividing_computes _).mpr ⟨value, divides, rfl⟩) (by omega)

theorem sum_grown (tree : SumTree) {value : Int} {position : Nat} {rest : List Token}
    (here : onward tokens position = tree.tokens ++ rest) (noTimes : rest.head? ≠ some .times)
    (noDivision : rest.head? ≠ some .dividedBy) (valued : tree.value? 32 = some value) :
    (sumLevel tokens).Grown position (.atom value) (position + tree.tokens.length) := by
  cases tree with
  | product only =>
      rw [SumTree.tokens] at here ⊢
      have grown := product_grown only here valued
      have settles := product_settles grown (le_size_of_onward only.tokens_ne_nil here)
        (by rwa [onward_append here]) (by rwa [onward_append here])
      exact .start settles grown.forward
  | plus left right =>
      obtain ⟨one, leftValued, two, rightValued, fits⟩ := operation_eq_some_iff.mp valued
      rw [SumTree.tokens, List.append_assoc] at here
      rw [SumTree.tokens, add_length_append_cons]
      have operator := onward_append here
      have after := onward_tail operator
      have grown := sum_grown left here nofun nofun leftValued
      have operand := product_settles (product_grown right after rightValued)
        (le_size_of_onward right.tokens_ne_nil after) (by rwa [onward_append after])
        (by rwa [onward_append after])
      exact grown.first (fun _ => just_matches operator) operand
        ((computing_computes _ _).mpr ⟨value, fits, rfl⟩) (by omega)
  | minus left right =>
      obtain ⟨one, leftValued, two, rightValued, fits⟩ := operation_eq_some_iff.mp valued
      rw [SumTree.tokens, List.append_assoc] at here
      rw [SumTree.tokens, add_length_append_cons]
      have operator := onward_append here
      have after := onward_tail operator
      have grown := sum_grown left here nofun nofun leftValued
      have operand := product_settles (product_grown right after rightValued)
        (le_size_of_onward right.tokens_ne_nil after) (by rwa [onward_append after])
        (by rwa [onward_append after])
      exact grown.second (fun _ => just_misses (by rw [operator]; nofun))
        (fun _ => just_matches operator) operand
        ((computing_computes _ _).mpr ⟨value, fits, rfl⟩) (by omega)

end

/-! ## What is read is a tree -/

def Spelled (tokens : Array Token) (position : Nat) (spelled : List Token) (stop : Nat) : Prop :=
  ∃ rest, onward tokens position = spelled ++ rest ∧ stop = position + spelled.length

theorem Spelled.append {middle : Nat} {one other : List Token}
    (first : Spelled tokens position one middle) (second : Spelled tokens middle other stop) :
    Spelled tokens position (one ++ other) stop := by
  obtain ⟨rest, here, rfl⟩ := first
  obtain ⟨restToo, there, rfl⟩ := second
  rw [onward_append here] at there
  refine ⟨restToo, by rw [here, there, List.append_assoc], ?_⟩
  rw [List.length_append, Nat.add_assoc]

/-- A match covers tokens that denote its symbol. -/
def Explains (tokens : Array Token) (position : Nat) (denotes : List Token → Int → Prop)
    (matched : Match Value) : Prop :=
  ∃ spelled value, Spelled tokens position spelled matched.span.stop ∧ denotes spelled value ∧
    matched.symbol = .atom value

def denoted (tag : Tag) : List Token → Int → Prop :=
  if tag = ⟨"expr"⟩ then SumTree.Denotes 32
  else if tag = ⟨"product"⟩ then ProductTree.Denotes 32
  else TermTree.Denotes 32

def explained (tokens : Array Token) (key : Key) : Outcome Value → Prop
  | .error _ => True
  | .ok matched => Explains tokens key.position (denoted key.tag) matched

variable {matched : Match Value}

theorem oneToken_answers {expectation : String} {choose : Token → Option Value}
    (answers : (reading tokens).Answers allowed (.oneToken expectation choose) position
      (.ok matched)) :
    ∃ token, choose token = some matched.symbol ∧
      Spelled tokens position [token] matched.span.stop := by
  obtain ⟨length, found, stops⟩ := Setting.Answers.of_terminal answers
  rw [reading, getElem?_eq_head?] at found
  cases here : onward tokens position with
  | nil =>
      rw [here] at found
      cases found
  | cons token rest =>
      rw [here] at found
      cases chosen : choose token with
      | none =>
          rw [List.head?_cons, Option.bind_some, chosen] at found
          cases found
      | some symbol =>
          rw [List.head?_cons, Option.bind_some, chosen] at found
          cases found
          exact ⟨token, chosen, rest, here, stops⟩

theorem just_answers
    (answers : (reading tokens).Answers allowed (just token) position (.ok matched)) :
    Spelled tokens position [token] matched.span.stop := by
  obtain ⟨found, chosen, spelled⟩ := oneToken_answers answers
  split at chosen
  · next same => rwa [← same]
  · cases chosen

theorem Explains.operation {left right : Parser (Array Token) Int} {finish : Finish Int}
    {operation? : Int → Int → Option Int} {denotes denotesToo : List Token → Int → Prop}
    (operates : Operates (reading tokens) allowed left (just token) right finish position matched)
    (explains : ∀ {place one}, (reading tokens).Answers allowed left place (.ok one) →
      Explains tokens place denotes one)
    (explainsToo : ∀ {place one}, (reading tokens).Answers allowed right place (.ok one) →
      Explains tokens place denotesToo one)
    (computes : Computes finish operation?)
    (closed : ∀ {one two value left right}, denotes left one → denotesToo right two →
      operation? one two = some value → denotes (left ++ token :: right) value) :
    Explains tokens position denotes matched := by
  obtain ⟨one, sign, two, first, between, second, finished, stops⟩ := operates
  obtain ⟨spelled, n, stands, denoted, symbol_eq⟩ := explains first
  obtain ⟨spelledToo, m, standsToo, denotedToo, symbol_eqToo⟩ := explainsToo second
  rw [symbol_eq, symbol_eqToo] at finished
  obtain ⟨value, computed, result⟩ := computes.mp finished
  rw [← stops] at standsToo
  exact ⟨_, value, stands.append ((just_answers between).append standsToo),
    closed denoted denotedToo computed, result⟩

/-- What matches as an explained call does is explained. -/
theorem Explains.operand {denotes more : List Token → Int → Prop} {one : Match Value}
    (explains : Explains tokens position denotes one) (same : matched.symbol = one.symbol)
    (stops : matched.span.stop = one.span.stop)
    (wider : ∀ {spelled value}, denotes spelled value → more spelled value) :
    Explains tokens position more matched := by
  obtain ⟨spelled, value, stands, denoted, symbol_eq⟩ := explains
  exact ⟨spelled, value, stops ▸ stands, wider denoted, same.trans symbol_eq⟩

theorem expression_answers (answers : (reading tokens).Answers (.named rules (explained tokens))
      expression position (.ok matched)) :
    Explains tokens position (SumTree.Denotes 32) matched := by
  obtain ⟨tag, tagged, -, given⟩ := (Setting.answers_tagged_iff (by exact nofun)).mp answers
  cases tagged
  exact given

theorem products_answers (answers : (reading tokens).Answers (.named rules (explained tokens))
      products position (.ok matched)) :
    Explains tokens position (ProductTree.Denotes 32) matched := by
  obtain ⟨tag, tagged, -, given⟩ := (Setting.answers_tagged_iff (by exact nofun)).mp answers
  cases tagged
  exact given

theorem term_answers (answers : (reading tokens).Answers (.named rules (explained tokens))
      (term expression) position (.ok matched)) :
    Explains tokens position (TermTree.Denotes 32) matched := by
  obtain ⟨tag, tagged, -, given⟩ := (Setting.answers_tagged_iff (by exact nofun)).mp answers
  cases tagged
  exact given

theorem expression_explained (replies : (reading tokens).Replies (.named rules (explained tokens))
      expression position (.ok matched.symbol) matched.span.stop) :
    Explains tokens position (SumTree.Denotes 32) matched := by
  obtain ⟨body, answers, sameBody, stopsBody⟩ := Setting.Replies.of_recursive replies
  change (reading tokens).Answers _ sumChoice position (.ok body) at answers
  rw [sumChoice, computed_eq, computed_eq] at answers
  refine .operand ?_ sameBody stopsBody id
  rcases operates_of_level answers (fun _ => rfl) (fun _ => rfl) with added | subtracted |
    ⟨one, only, same, stops⟩
  · exact .operation added expression_answers products_answers (computing_computes 32 _)
      SumTree.Denotes.plus
  · exact .operation subtracted expression_answers products_answers (computing_computes 32 _)
      SumTree.Denotes.minus
  · exact .operand (products_answers only) same stops SumTree.Denotes.product

theorem products_explained (replies : (reading tokens).Replies (.named rules (explained tokens))
      products position (.ok matched.symbol) matched.span.stop) :
    Explains tokens position (ProductTree.Denotes 32) matched := by
  obtain ⟨body, answers, sameBody, stopsBody⟩ := Setting.Replies.of_recursive replies
  change (reading tokens).Answers _ productChoice position (.ok body) at answers
  rw [productChoice, computed_eq] at answers
  refine .operand ?_ sameBody stopsBody id
  rcases operates_of_level answers (fun _ => rfl) (fun _ => rfl) with multiplied | divided |
    ⟨one, only, same, stops⟩
  · exact .operation multiplied products_answers term_answers (computing_computes 32 _)
      ProductTree.Denotes.times
  · exact .operation divided products_answers term_answers (dividing_computes 32)
      ProductTree.Denotes.dividedBy
  · exact .operand (term_answers only) same stops ProductTree.Denotes.term

theorem term_explained (replies : (reading tokens).Replies (.named rules (explained tokens))
      (term expression) position (.ok matched.symbol) matched.span.stop) :
    Explains tokens position (TermTree.Denotes 32) matched := by
  obtain ⟨parser, member, one, answers, same, stops⟩ := Setting.Replies.of_choice replies
  refine .operand ?_ same stops id
  simp only [List.mem_cons, List.not_mem_nil, or_false] at member
  rcases member with rfl | rfl
  · obtain ⟨token, chosen, spelled⟩ := oneToken_answers answers
    cases token with
    | number n => exact ⟨_, n, spelled, .number n, (Option.some.inj chosen).symm⟩
    | _ => cases chosen
  · obtain ⟨front, close, opened, closing, front_eq, stopsToo⟩ := answers.of_both
    obtain ⟨sign, inner, opening, within, inner_eq, stopsInner⟩ := opened.of_both
    obtain ⟨spelled, value, stands, denotes, symbol_eq⟩ := expression_answers within
    rw [stopsInner] at closing
    have closed := just_answers closing
    rw [← stopsToo] at closed
    exact ⟨_, value, (just_answers opening).append (stands.append closed), .parens denotes,
      front_eq.trans (inner_eq.trans symbol_eq)⟩

theorem rules_explained (tokens : Array Token) :
    (reading tokens).Derives rules (explained tokens) where
  refused _ := trivial
  made key outcome round := by
    obtain ⟨result, stop, replies, forward, rfl⟩ := round
    cases result with
    | error mismatch => trivial
    | ok symbol =>
        let matched : Match Value := ⟨symbol, ⟨key.position, stop⟩⟩
        change Explains tokens key.position (denoted key.tag) matched
        unfold rules at replies
        unfold denoted
        split
        · next same =>
            rw [if_pos same] at replies
            exact expression_explained replies
        · next other =>
            rw [if_neg other] at replies
            split
            · next same =>
                rw [if_pos same] at replies
                exact products_explained replies
            · next otherToo =>
                rw [if_neg otherToo] at replies
                exact term_explained replies

theorem rules_cases (tag : Tag) :
    rules tag = expression ∨ rules tag = products ∨ rules tag = term expression := by
  unfold rules
  split
  · exact .inl rfl
  · split
    · exact .inr (.inl rfl)
    · exact .inr (.inr rfl)

theorem operands_linked {left operator right : Parser (Array Token) Int} (finish : Finish Int)
    (one : left.Linked rules) (sign : operator.Linked rules) (two : right.Linked rules) :
    (Parser.wrap none (some .general) (operands left operator right) finish).Linked rules :=
  .wrap _ finish (.both _ (.both _ one sign) two)

theorem just_linked (token : Token) : (just token).Linked rules := .terminal _ _

theorem rules_grammar (tokens : Array Token) :
    (reading tokens).Grammar rules (Parser.Linked rules)
      fun parser => parser.Linked rules ∨ False := by
  have expr : expression.Linked rules := .rule ⟨"expr"⟩
  have product : products.Linked rules := .rule ⟨"product"⟩
  have terms : (term expression).Linked rules := .rule ⟨"term"⟩
  refine Setting.grammar_of_rules (fun tag state => ?_) (fun tag _ _ _ => ?_) (fun {tag _} => ?_)
    nofun nofun
  · rcases rules_cases tag with same | same | same
    · rw [same]
      refine ⟨show sumChoice.Linked rules from .choice ?_, trivial⟩
      simp only [List.mem_cons, List.not_mem_nil, or_false]
      rintro parser (rfl | rfl | rfl)
      · exact operands_linked _ expr (just_linked .plus) product
      · exact operands_linked _ expr (just_linked .minus) product
      · exact product
    · rw [same]
      refine ⟨show productChoice.Linked rules from .choice ?_, trivial⟩
      simp only [List.mem_cons, List.not_mem_nil, or_false]
      rintro parser (rfl | rfl | rfl)
      · exact operands_linked _ product (just_linked .times) terms
      · exact operands_linked _ product (just_linked .dividedBy) terms
      · exact terms
    · rw [same, term, Parser.oneOfTagged, Parser.start]
      refine (tryAlternatives_over ?_).leads .inl
      simp only [List.mem_cons, List.not_mem_nil, or_false]
      rintro parser (rfl | rfl)
      · exact .terminal _ _
      · exact .both _ (.both _ (just_linked .opening) expr) (just_linked .closing)
  · rcases rules_cases tag with same | same | same <;> rw [same] <;> rfl
  · rcases rules_cases tag with same | same | same <;>
      · rw [same]
        rintro ⟨⟩
        rfl

/--
Evaluating tokens gives a value exactly if they spell a sum that has this value, with all its
intermediate results inside 32 bits and with a quotient for every division.
-/
theorem evaluate_eq_ok_iff (tokens : Array Token) (value : Int) :
    (∃ steps final, evaluate steps tokens = .done (.ok (.atom value)) final) ↔
      ∃ tree : SumTree, tree.tokens = tokens.toList ∧ tree.value? 32 = some value := by
  refine Setting.parse_eq_ok_iff.trans ?_
  constructor
  · rintro ⟨matched, middle, ends, same, stops⟩
    have answers := (rules_explained tokens).answers (rules_grammar tokens) (.rule ⟨"expr"⟩) ends
    obtain ⟨_, n, ⟨rest, here, stopsToo⟩, ⟨tree, rfl, valued⟩, symbol_eq⟩ :=
      expression_answers answers
    cases same.symm.trans symbol_eq
    refine ⟨tree, ?_, valued⟩
    -- Nothing is left after the tokens of the tree.
    have counted := congrArg List.length here
    rw [onward, List.drop_zero, List.length_append, Array.length_toList] at counted
    have whole : tokens.size = tree.tokens.length := by
      rw [← Nat.zero_add tree.tokens.length, ← stopsToo]
      exact stops.symm
    have nothing : rest = [] := List.eq_nil_of_length_eq_zero (by omega)
    rw [nothing, List.append_nil] at here
    exact here.symm
  · rintro ⟨tree, spelled, valued⟩
    have here : onward tokens 0 = tree.tokens ++ [] := by
      rw [List.append_nil, spelled]
      rfl
    have ahead := onward_append here
    have settles := sum_settles (sum_grown tree here nofun nofun valued)
      (le_size_of_onward tree.tokens_ne_nil here) (by rw [ahead]; nofun) (by rw [ahead]; nofun)
    have settlesOn := settles.settlesOn (show expression.tag = _ from rfl) rfl
    obtain ⟨final, ends⟩ := settlesOn.ends_fresh
    refine ⟨_, final, ends, rfl, ?_⟩
    rw [Nat.zero_add, spelled]
    rfl

end Packrat.Calculator.OverTokens
