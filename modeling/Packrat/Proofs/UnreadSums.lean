import Packrat.Proofs.CalculatorOverflow
import Packrat.Proofs.RepairedReading

/-!
# Sums that are not read

The calculator over texts stops short in every expression in which something is added or
subtracted, in parentheses or outside.  An expression reads its first product only, so that
parentheses around a sum are not closed where their expression ends, and they are no term.  A
product ends before such a term, a sum ends where one of its products does, and the whole
expression ends before an operator.

A product that is cut short may be added to what it does not fit to.  Such an overflow ends the
evaluation, and so the rules are followed in the repaired grammar, where every sum has a result.
-/

namespace Packrat.Calculator

theorem Level.Grown.repaired {ι : Type} [Input ι] {setting : Setting ι Int}
    {names : Tag → Parser ι Int} {level : Level setting names} {position middle : Nat}
    {left : Value} (repair : Result Int)
    (other : Level (setting.repaired repair) (repairedNames repair names))
    (tag : other.tag = level.tag) (next : other.next = level.next)
    (grown : level.Grown position left middle) : other.Grown position left middle := by
  obtain ⟨forward, ⟨rounds, few, grows⟩, value, stop, operand, within⟩ := grown
  refine ⟨forward, ⟨rounds, few, ?_⟩, value, stop, ?_, within⟩
  · rw [tag]
    exact (grows.repaired repair).mono fun _ _ => Setting.Settles.repaired repair
  · rw [next]
    exact operand.repaired repair

namespace OverText

/-- In the place of an overflow stands a symbol that no rule matches. -/
def repair : Result Int := .ok .unit

def repairedReading (text : String) : Setting Text Int := (reading text).repaired repair

def repairedRules : Tag → Parser Text Int := repairedNames repair rules

theorem resolve_sum (text : String) :
    (repairedReading text).arena.resolve ⟨"sum"⟩ 1 = .ok (sumRule.repaired repair) :=
  Arena.resolve_repaired repair _ 1

theorem resolve_product (text : String) :
    (repairedReading text).arena.resolve ⟨"product"⟩ 2 = .ok (productRule.repaired repair) :=
  Arena.resolve_repaired repair _ 2

def repairedSums (text : String) : Level (repairedReading text) repairedRules where
  tag := ⟨"sum"⟩
  itself := sum
  tagged := (sumLevel text).tagged
  named := (sumLevel text).named
  next := ⟨"product"⟩
  operand := product
  operand_tagged := (sumLevel text).operand_tagged
  operand_named := (sumLevel text).operand_named
  different := (sumLevel text).different
  first := .literal "+"
  second := .literal "-"
  finishFirst := Finish.repaired repair (computing 64 (· + ·))
  finishSecond := Finish.repaired repair (computing 64 (· - ·))
  first_fails _ := rfl
  second_fails _ := rfl
  reads reads := by
    refine .handle (resolve_sum text) ?_
    rw [sumRule, computed_eq, computed_eq]
    exact reads

def repairedProducts (text : String) : Level (repairedReading text) repairedRules where
  tag := ⟨"product"⟩
  itself := product
  tagged := (productLevel text).tagged
  named := (productLevel text).named
  next := ⟨"term"⟩
  operand := term.repaired repair
  operand_tagged := (productLevel text).operand_tagged
  operand_named := rfl
  different := (productLevel text).different
  first := .literal "*"
  second := .literal "/"
  finishFirst := Finish.repaired repair (computing 64 (· * ·))
  finishSecond := Finish.repaired repair (dividing 64)
  first_fails _ := rfl
  second_fails _ := rfl
  reads reads := by
    refine .handle (resolve_product text) ?_
    rw [productRule, computed_eq]
    exact reads

variable {text : String} {allowed : Answering Text Int} {position stop : Nat} {symbol : Value}

theorem sum_settles_error
    (operand : (repairedReading text).SettlesError repairedRules ⟨"product"⟩ position) :
    (repairedReading text).SettlesError repairedRules ⟨"sum"⟩ position := by
  refine (repairedSums text).settles_error operand fun fails => .handle (resolve_sum text) ?_
  rw [sumRule, computed_eq, computed_eq]
  exact fails

theorem product_settles_error
    (operand : (repairedReading text).SettlesError repairedRules ⟨"term"⟩ position) :
    (repairedReading text).SettlesError repairedRules ⟨"product"⟩ position := by
  refine (repairedProducts text).settles_error operand fun fails =>
    .handle (resolve_product text) ?_
  rw [productRule, computed_eq]
  exact fails

theorem computing_ne_error (bits : Nat) (operation : Int → Int → Int) (symbol : Value)
    (mismatch : Mismatch) : computing bits operation (.ok symbol) ≠ .ok (.error mismatch) := by
  intro failed
  simp only [computing, combine] at failed
  split at failed
  · split at failed
    · cases failed
    · cases failed
  · cases failed

theorem exists_result (operation : Int → Int → Int) (symbol : Value) : ∃ result,
    Finish.repaired repair (computing 64 operation) (.ok symbol) = .ok (.ok result) := by
  unfold Finish.repaired
  split
  · next finished computed =>
      cases finished with
      | ok result => exact ⟨result, rfl⟩
      | error mismatch => exact absurd computed (computing_ne_error 64 operation symbol mismatch)
  · exact ⟨.unit, rfl⟩

variable {token : Token} {tokens : List Token} {wanted : String} {c : Char}

theorem repaired_sign_matches (wanted : String) (single : wanted.toList = [c])
    (sign : token.sign? = some c) (tight : Tight text position (token :: tokens)) :
    ∃ stop, position < stop ∧ (∀ allowed,
      (repairedReading text).Matches allowed (.literal wanted) position (.text wanted) stop) ∧
      Loose text stop tokens := by
  obtain ⟨stop, forward, read, loose⟩ := sign_matches wanted single sign tight
  exact ⟨stop, forward, fun _ => (read fun _ _ _ => False).repaired repair nofun, loose⟩

theorem repaired_sign_misses (token : Token) (wanted : String) (single : wanted.toList = [c])
    (sign : token.sign? = some c) (tight : Tight text position tokens)
    (other : tokens.head? ≠ some token) :
    (repairedReading text).Misses allowed (.literal wanted) position := by
  have misses : (reading text).Misses (fun _ _ _ => False) (.literal wanted) position :=
    sign_misses wanted single sign tight other
  exact misses.repaired repair nofun

/-- A sum cannot go on where none of its signs follows. -/
theorem sums_stop (tight : Tight text position tokens) (noPlus : tokens.head? ≠ some .plus)
    (noMinus : tokens.head? ≠ some .minus) : (repairedSums text).Stops position :=
  ⟨.inl fun _ => repaired_sign_misses .plus "+" rfl rfl tight noPlus,
    .inl fun _ => repaired_sign_misses .minus "-" rfl rfl tight noMinus⟩

/-! ## Stalling -/

def operators : List Token := [.plus, .minus, .times, .dividedBy]

theorem sign_ne {signs : List Token} (sign : token ∈ signs) (other : Token)
    (missing : other ∉ signs) : token ≠ other := by
  rintro rfl
  exact missing sign

/-- A rule settles on a match up to one of the signs. -/
def EndsBefore (text : String) (tag : Tag) (signs : List Token) (position : Nat) : Prop :=
  ∃ symbol stop token tokens, position < stop ∧
    (repairedReading text).SettlesOk repairedRules tag position symbol stop ∧
    Tight text stop (token :: tokens) ∧ token ∈ signs

/-- A rule settles on a mismatch, or on a match up to one of the signs. -/
def Stalls (text : String) (tag : Tag) (signs : List Token) (position : Nat) : Prop :=
  (repairedReading text).SettlesError repairedRules tag position ∨
    EndsBefore text tag signs position

/--
The first product of a sum is not read, or it ends at a sign and the sum has grown to where it
cannot go on.
-/
inductive Broken (text : String) (position : Nat) : Prop where
  | unread : (repairedReading text).SettlesError repairedRules ⟨"product"⟩ position →
      Broken text position
  | cut {total : Value} {last : Nat} : EndsBefore text ⟨"product"⟩ operators position →
      (repairedSums text).Grown position total last →
      last ≤ Input.size (repairedReading text).input → (repairedSums text).Stops last →
      Broken text position

/-- An expression reads the first product of a broken sum at most. -/
theorem expression_stalls (broken : Broken text position) :
    Stalls text ⟨"expr"⟩ operators position := by
  let key : Key := ⟨position, ⟨"expr"⟩⟩
  let inExpression : Answering Text Int :=
    .named repairedRules (unansweredAt key ((repairedReading text).Settles repairedRules))
  have sumDiffers : (⟨"sum"⟩ : Tag) ≠ ⟨"expr"⟩ := by decide
  have productDiffers : (⟨"product"⟩ : Tag) ≠ ⟨"expr"⟩ := by decide
  have resolved : (repairedReading text).arena.resolve ⟨"expr"⟩ 0 = .ok sum :=
    Arena.resolve_repaired repair _ 0
  let sums := repairedSums text
  cases broken with
  | unread unread =>
      have noSum : (repairedReading text).Misses inExpression sum position :=
        (sum_settles_error unread).misses_unasked key rfl rfl sumDiffers
      have noProduct : (repairedReading text).Misses inExpression product position :=
        unread.misses_unasked key rfl rfl productDiffers
      refine .inl (.of_unasked (.handle resolved (.handle (resolve_sum text) ?_)))
      rw [sumRule, computed_eq, computed_eq]
      refine .choice fun other member => ?_
      simp only [Parser.repairedAll, List.mem_cons, List.not_mem_nil, or_false] at member
      rcases member with rfl | rfl | rfl
      · exact sums.operation_misses sums.first_fails noSum
      · exact sums.operation_misses sums.second_fails noSum
      · exact noProduct
  | @cut total last first grown inside stops =>
      obtain ⟨one, stop, token, tokens, forward, first, tight, sign⟩ := first
      have total : (repairedReading text).Matches inExpression sum position total last :=
        (grown.settles_of_stops inside stops).matches_unasked key rfl rfl sumDiffers
      have only : (repairedReading text).Matches inExpression product position one stop :=
        first.matches_unasked key rfl rfl productDiffers
      have noOperand (after : Nat)
          (fails : (repairedReading text).SettlesError repairedRules ⟨"product"⟩ after) :
          (repairedReading text).Misses inExpression product after :=
        fails.misses_unasked key rfl rfl productDiffers
      refine .inr ⟨one, stop, token, tokens, forward, .of_unasked (.handle resolved
        (.handle (resolve_sum text) ?_)), tight, sign⟩
      rw [sumRule, computed_eq, computed_eq]
      refine .choice [_, _] rfl ?_ only
      simp only [List.mem_cons, List.not_mem_nil, or_false, forall_eq_or_imp, forall_eq]
      exact ⟨stops.1.operation_misses sums.first_fails total noOperand,
        stops.2.operation_misses sums.second_fails total noOperand⟩

theorem term_settles_error (loose : Loose text position (.opening :: tokens))
    (inner : ∀ start, Loose text start tokens → Stalls text ⟨"expr"⟩ operators start) :
    (repairedReading text).SettlesError repairedRules ⟨"term"⟩ position := by
  let key : Key := ⟨position, ⟨"term"⟩⟩
  let inRepaired : Answering Text Int :=
    .named repairedRules (unansweredAt key ((repairedReading text).Settles repairedRules))
  have wider (parser : Parser Text Int) (place : Nat) (outcome : Outcome Value)
      (allowed : inTerm text position parser place outcome) :
      inRepaired (parser.repaired repair) place outcome := by
    obtain ⟨tag, tagged, named, different, settles⟩ := allowed
    exact named_repaired repair parser place outcome
      ⟨tag, tagged, named, different, settles.repaired repair⟩
  have different : (⟨"expr"⟩ : Tag) ≠ ⟨"term"⟩ := by decide
  obtain ⟨start, -, opening, tight⟩ : ∃ stop, position < stop ∧
      (reading text).Matches (inTerm text position) (padded (.literal "(")) position (.text "(")
        stop ∧ Tight text stop tokens := padded_sign_matches "(" rfl rfl loose
  have opened := opening.repaired repair wider
  have parentheses : (repairedReading text).Misses inRepaired
      (Parser.repaired repair (((padded (.literal "(")).ignoreThen expression).thenIgnore
        (padded (.literal ")")))) position := by
    rcases inner start tight.loose with fails | ⟨one, stop, token, rest, -, settles, before, sign⟩
    · exact .both_first (.both_second opened (fails.misses_unasked key rfl rfl different))
    · have other : (token :: rest).head? ≠ some .closing := head_ne (by rintro rfl; contradiction)
      have unclosed : (reading text).Misses (inTerm text position) (padded (.literal ")")) stop :=
        padded_misses before.loose fun start tight => sign_misses ")" rfl rfl tight other
      exact .both_second (.both opened (settles.matches_unasked key rfl rfl different))
        (unclosed.repaired repair wider)
  refine .of_unasked (.choice fun other member => ?_)
  simp only [Parser.repairedAll, List.mem_cons, List.not_mem_nil, or_false] at member
  rcases member with rfl | rfl
  · exact (padded_number_misses loose).repaired repair wider
  · exact parentheses

theorem first_ends (tree : SumTree) (flat : tree.Flat) {value : Int} {sign : Token}
    {rest : List Token} (loose : Loose text position (tree.tokens ++ sign :: rest))
    (signs : sign = .plus ∨ sign = .minus) (valued : tree.value? 64 = some value) :
    EndsBefore text ⟨"product"⟩ operators position := by
  have other (token : Token) (different : token ≠ .plus ∧ token ≠ .minus) :
      (sign :: rest).head? ≠ some token := by
    refine head_ne ?_
    rintro rfl
    exact signs.elim different.1 different.2
  obtain ⟨one, stop, -, forward, settles, tight⟩ := first_product_settles tree flat loose
    (fun n => other _ ⟨nofun, nofun⟩) (other _ ⟨nofun, nofun⟩) (other _ ⟨nofun, nofun⟩) valued
  obtain ⟨token, tokens, more, signsToo⟩ := tree.exists_more rest signs
  rw [more] at tight
  refine ⟨_, stop, token, tokens, forward, settles.repaired repair, tight, ?_⟩
  rcases signsToo with rfl | rfl
  · decide
  · decide

/-- A flat sum breaks at its end, where no sign of a sum follows. -/
theorem flat_breaks (tree : SumTree) (flat : tree.Flat) (sums : ¬ tree.Multiplicative)
    {value : Int} {rest : List Token} (loose : Loose text position (tree.tokens ++ rest))
    (ended : ∀ token, token ≠ .closing → rest.head? ≠ some token)
    (valued : tree.value? 64 = some value) : Broken text position := by
  obtain ⟨last, grown, tight⟩ := sum_grown tree flat loose (fun n => ended _ nofun)
    (ended _ nofun) (ended _ nofun) valued
  refine .cut ?_ (grown.repaired repair (repairedSums text) rfl rfl) tight.le_size
    (sums_stop tight (ended _ nofun) (ended _ nofun))
  cases tree with
  | product only => exact absurd flat sums
  | plus left right =>
      obtain ⟨one, leftValued, -⟩ := operation_eq_some_iff.mp valued
      rw [SumTree.tokens, List.append_assoc] at loose
      exact first_ends left flat.1 loose (.inl rfl) leftValued
  | minus left right =>
      obtain ⟨one, leftValued, -⟩ := operation_eq_some_iff.mp valued
      rw [SumTree.tokens, List.append_assoc] at loose
      exact first_ends left flat.1 loose (.inr rfl) leftValued

/-- A product ends before an operator whose right operand is not read. -/
theorem product_cut (left : ProductTree) (multiplicative : left.Multiplicative) {value : Int}
    {sign : Token} {rest : List Token} (loose : Loose text position (left.tokens ++ sign :: rest))
    (signs : sign = .times ∨ sign = .dividedBy) (valued : left.value? 64 = some value)
    (fails : ∀ after, Loose text after rest →
      (repairedReading text).SettlesError repairedRules ⟨"term"⟩ after) :
    EndsBefore text ⟨"product"⟩ [.times, .dividedBy] position := by
  have ended : Ended (sign :: rest) := by
    rcases signs with rfl | rfl
    · exact ended_of_sign (c := '*') rfl
    · exact ended_of_sign (c := '/') rfl
  obtain ⟨middle, grown, tight⟩ := product_grown left multiplicative loose ended valued
  have stops : (repairedProducts text).Stops middle := by
    rcases signs with rfl | rfl
    · obtain ⟨after, -, operator, loose⟩ := repaired_sign_matches "*" rfl rfl tight
      exact ⟨.inr ⟨_, after, operator, fails after loose⟩,
        .inl fun _ => repaired_sign_misses .dividedBy "/" rfl rfl tight nofun⟩
    · obtain ⟨after, -, operator, loose⟩ := repaired_sign_matches "/" rfl rfl tight
      exact ⟨.inl fun _ => repaired_sign_misses .times "*" rfl rfl tight nofun,
        .inr ⟨_, after, operator, fails after loose⟩⟩
  have grown := grown.repaired repair (repairedProducts text) rfl rfl
  refine ⟨_, middle, sign, rest, grown.forward, grown.settles_of_stops tight.le_size stops, tight,
    ?_⟩
  rcases signs with rfl | rfl
  · decide
  · decide

/-- A sum that has grown up to an operand that stalls breaks there. -/
theorem broken_of_stall {left : Value} {middle after : Nat}
    (first : EndsBefore text ⟨"product"⟩ operators position)
    (grown : (repairedSums text).Grown position left middle)
    (inside : middle ≤ Input.size (repairedReading text).input)
    (stalls : Stalls text ⟨"product"⟩ [.times, .dividedBy] after)
    (stops : (repairedReading text).SettlesError repairedRules ⟨"product"⟩ after →
      (repairedSums text).Stops middle)
    (grows : ∀ right last, (repairedReading text).SettlesOk repairedRules ⟨"product"⟩ after right
      last → ∃ total, (repairedSums text).Grown position total last) :
    Broken text position := by
  rcases stalls with fails | ⟨right, last, token, tokens, -, settles, tight, sign⟩
  · exact .cut first grown inside (stops fails)
  · obtain ⟨total, grownToo⟩ := grows right last settles
    have other := sign_ne sign
    exact .cut first grownToo tight.le_size
      (sums_stop tight (head_ne (other .plus (by decide))) (head_ne (other .minus (by decide))))

theorem sum_cut (left : SumTree) (flat : left.Flat) {value : Int} {sign : Token}
    {rest : List Token} (loose : Loose text position (left.tokens ++ sign :: rest))
    (signs : sign = .plus ∨ sign = .minus) (valued : left.value? 64 = some value)
    (stalls : ∀ after, Loose text after rest →
      Stalls text ⟨"product"⟩ [.times, .dividedBy] after) : Broken text position := by
  have first := first_ends left flat loose signs valued
  rcases signs with rfl | rfl
  · obtain ⟨middle, grown, tight⟩ := sum_grown left flat loose (ended_of_sign (c := '+') rfl)
      (head_ne (by decide)) (head_ne (by decide)) valued
    have grown := grown.repaired repair (repairedSums text) rfl rfl
    obtain ⟨after, passed, operator, loose⟩ := repaired_sign_matches "+" rfl rfl tight
    refine broken_of_stall first grown tight.le_size (stalls after loose) (fun fails => ?_)
      fun right last settles => ?_
    · exact ⟨.inr ⟨_, after, operator, fails⟩,
        .inl fun _ => repaired_sign_misses .minus "-" rfl rfl tight nofun⟩
    · obtain ⟨total, finished⟩ := exists_result (· + ·) (.pair (.atom value) right)
      exact ⟨total, grown.first operator settles finished (passed.trans_le settles.2)⟩
  · obtain ⟨middle, grown, tight⟩ := sum_grown left flat loose (ended_of_sign (c := '-') rfl)
      (head_ne (by decide)) (head_ne (by decide)) valued
    have grown := grown.repaired repair (repairedSums text) rfl rfl
    obtain ⟨after, passed, operator, loose⟩ := repaired_sign_matches "-" rfl rfl tight
    have noPlus (allowed : Answering Text Int) :
        (repairedReading text).Misses allowed (.literal "+") middle :=
      repaired_sign_misses .plus "+" rfl rfl tight nofun
    refine broken_of_stall first grown tight.le_size (stalls after loose) (fun fails => ?_)
      fun right last settles => ?_
    · exact ⟨.inl noPlus, .inr ⟨_, after, operator, fails⟩⟩
    · obtain ⟨total, finished⟩ := exists_result (· - ·) (.pair (.atom value) right)
      exact ⟨total, grown.second noPlus operator settles finished (passed.trans_le settles.2)⟩

/-- A product of which one operand has a sum in it stalls. -/
theorem operation_stalls {left : ProductTree} {right : TermTree} {one : Int} {sign : Token}
    {rest : List Token} (sums : ¬ (left.Multiplicative ∧ right.Multiplicative))
    (loose : Loose text position (left.tokens ++ sign :: rest))
    (signs : sign = .times ∨ sign = .dividedBy) (leftValued : left.value? 64 = some one)
    (leftStalls : ¬ left.Multiplicative → Stalls text ⟨"product"⟩ [.times, .dividedBy] position)
    (rightFails : ¬ right.Multiplicative → ∀ after, Loose text after rest →
      (repairedReading text).SettlesError repairedRules ⟨"term"⟩ after) :
    Stalls text ⟨"product"⟩ [.times, .dividedBy] position := by
  by_cases multiplicative : left.Multiplicative
  · refine .inr (product_cut left multiplicative loose signs leftValued ?_)
    exact rightFails fun all => sums ⟨multiplicative, all⟩
  · exact leftStalls multiplicative

theorem operation_breaks {left : SumTree} {right : ProductTree} {one : Int} {sign : Token}
    {rest : List Token} (sums : ¬ (left.Flat ∧ right.Multiplicative))
    (loose : Loose text position (left.tokens ++ sign :: rest))
    (signs : sign = .plus ∨ sign = .minus) (leftValued : left.value? 64 = some one)
    (leftBreaks : ¬ left.Flat → Broken text position)
    (rightStalls : ¬ right.Multiplicative → ∀ after, Loose text after rest →
      Stalls text ⟨"product"⟩ [.times, .dividedBy] after) : Broken text position := by
  by_cases flat : left.Flat
  · exact sum_cut left flat loose signs leftValued (rightStalls fun all => sums ⟨flat, all⟩)
  · exact leftBreaks flat

mutual

/-- A term with a sum in it is not read. -/
theorem term_fails (tree : TermTree) (sums : ¬ tree.Multiplicative) {value : Int} {position : Nat}
    {rest : List Token} (loose : Loose text position (tree.tokens ++ rest))
    (valued : tree.value? 64 = some value) :
    (repairedReading text).SettlesError repairedRules ⟨"term"⟩ position := by
  cases tree with
  | number n => exact absurd trivial sums
  | parens inner =>
      rw [TermTree.tokens, List.append_assoc] at loose
      refine term_settles_error loose fun start loose => expression_stalls ?_
      by_cases flat : inner.Flat
      · exact flat_breaks inner flat sums loose (fun _ other => head_ne other.symm) valued
      · exact sum_breaks inner flat loose valued

theorem product_stalls (tree : ProductTree) (sums : ¬ tree.Multiplicative) {value : Int}
    {position : Nat} {rest : List Token} (loose : Loose text position (tree.tokens ++ rest))
    (valued : tree.value? 64 = some value) :
    Stalls text ⟨"product"⟩ [.times, .dividedBy] position := by
  cases tree with
  | term only => exact .inl (product_settles_error (term_fails only sums loose valued))
  | times left right =>
      obtain ⟨one, leftValued, two, rightValued, -⟩ := operation_eq_some_iff.mp valued
      rw [ProductTree.tokens, List.append_assoc] at loose
      exact operation_stalls sums loose (.inl rfl) leftValued
        (fun sums => product_stalls left sums loose leftValued)
        fun sums after loose => term_fails right sums loose rightValued
  | dividedBy left right =>
      obtain ⟨one, leftValued, two, rightValued, -⟩ := operation_eq_some_iff.mp valued
      rw [ProductTree.tokens, List.append_assoc] at loose
      exact operation_stalls sums loose (.inr rfl) leftValued
        (fun sums => product_stalls left sums loose leftValued)
        fun sums after loose => term_fails right sums loose rightValued

/-- A sum with another sum in parentheses breaks. -/
theorem sum_breaks (tree : SumTree) (sums : ¬ tree.Flat) {value : Int} {position : Nat}
    {rest : List Token} (loose : Loose text position (tree.tokens ++ rest))
    (valued : tree.value? 64 = some value) : Broken text position := by
  cases tree with
  | product only =>
      rcases product_stalls only sums loose valued with
        fails | ⟨one, stop, token, tokens, forward, settles, tight, sign⟩
      · exact .unread fails
      · have other := sign_ne sign
        have operator : token ∈ operators := List.mem_cons_of_mem _ (List.mem_cons_of_mem _ sign)
        exact .cut ⟨one, stop, token, tokens, forward, settles, tight, operator⟩
          (.start settles forward) tight.le_size
          (sums_stop tight (head_ne (other .plus (by decide))) (head_ne (other .minus (by decide))))
  | plus left right =>
      obtain ⟨one, leftValued, two, rightValued, -⟩ := operation_eq_some_iff.mp valued
      rw [SumTree.tokens, List.append_assoc] at loose
      exact operation_breaks sums loose (.inl rfl) leftValued
        (fun sums => sum_breaks left sums loose leftValued)
        fun sums after loose => product_stalls right sums loose rightValued
  | minus left right =>
      obtain ⟨one, leftValued, two, rightValued, -⟩ := operation_eq_some_iff.mp valued
      rw [SumTree.tokens, List.append_assoc] at loose
      exact operation_breaks sums loose (.inr rfl) leftValued
        (fun sums => sum_breaks left sums loose leftValued)
        fun sums after loose => product_stalls right sums loose rightValued

end

theorem whole_stalls (tree : SumTree) (sums : ¬ tree.Multiplicative) {value : Int}
    (writes : Writes text tree.tokens) (valued : tree.value? 64 = some value) :
    Stalls text ⟨"expr"⟩ operators 0 := by
  obtain ⟨blanks, chars, written, blank, spells⟩ := writes
  have here := Text.onward_zero text
  rw [written] at here
  have loose : Loose text 0 (tree.tokens ++ []) := by
    rw [List.append_nil]
    exact ⟨blanks, chars, here, blank, spells⟩
  refine expression_stalls ?_
  by_cases flat : tree.Flat
  · exact flat_breaks tree flat sums loose nofun valued
  · exact sum_breaks tree flat loose valued

/-- On a fresh engine an expression has the outcome on which its repair settles, or it faults. -/
theorem outcome_of_repaired {outcome made : Outcome Value} {final : State Int}
    (settles : (repairedReading text).SettlesOn repairedRules expression 0 outcome)
    (ends : Ends (reading text) (.call expression) (.initial .standard) (.answered made) final) :
    made = outcome := by
  obtain ⟨last, repaired⟩ : ∃ last, Ends ((reading text).repaired repair)
      (.call (expression.repaired repair)) (.initial .standard) (.answered outcome) last :=
    settles.ends_fresh
  rcases Ends.of_repaired repair repaired with same | ⟨fault, last, faulted⟩
  · cases (ends.unique same).1
    rfl
  · cases (ends.unique faulted).1

/-- An expression with a sum does not match up to the end of the text. -/
theorem stop_ne_size (tree : SumTree) (sums : ¬ tree.Multiplicative) {value : Int}
    (writes : Writes text tree.tokens) (valued : tree.value? 64 = some value)
    {matched : Match Value} {final : State Int}
    (ends : Ends (reading text) (.call expression) (.initial .standard)
      (.answered (.ok matched)) final) :
    matched.span.stop ≠ Input.size (reading text).input := by
  have tagged : expression.tag = some ⟨"expr"⟩ := rfl
  have named : expression.core = repairedRules ⟨"expr"⟩ := rfl
  rcases whole_stalls tree sums writes valued with
    ⟨mismatch, fails⟩ | ⟨one, stop, token, tokens, -, settles, tight, -⟩
  · obtain ⟨_, answers⟩ := Setting.Misses.of_given tagged named fails
    cases outcome_of_repaired answers ends
  · cases outcome_of_repaired (settles.settlesOn tagged named) ends
    exact (tight.lt_size (List.cons_ne_nil _ _)).ne

/--
A text that spells an expression with a value is computed if nothing is added or subtracted in
it, in parentheses or outside.  Otherwise it is rejected, unless an operation overflows that a
part of the text spells.
-/
theorem evaluate_valued (text : String) (tree : SumTree) (value : Int)
    (writes : Writes text tree.tokens) (valued : tree.value? 64 = some value) :
    (tree.Multiplicative →
      ∃ steps final, evaluate steps text = .done (.ok (.atom value)) final) ∧
    (¬ tree.Multiplicative →
      (∃ steps error final, evaluate steps text = .done (.error error) final) ∨
        (∃ steps final, evaluate steps text = .faulted .overflow final) ∧
          HasOverflowing text) := by
  constructor
  · intro multiplicative
    exact (evaluate_flat text tree value multiplicative.flat writes valued).1 multiplicative
  · intro sums
    cases evaluate_concludes text with
    | computed done _ =>
        obtain ⟨matched, middle, ends, -, whole⟩ := Setting.parse_eq_ok_iff.mp ⟨_, _, done⟩
        exact absurd whole (stop_ne_size tree sums writes valued ends)
    | rejected done => exact .inl ⟨_, _, _, done⟩
    | overflowed faulted reason => exact .inr ⟨⟨_, _, faulted⟩, reason⟩

def quotient (one other : Int) : SumTree :=
  .product (.dividedBy (.term (.number one)) (.number other))

/-- A quotient is computed. -/
theorem evaluate_valued_quotient :
    ∃ steps final, evaluate steps "6/2" = .done (.ok (.atom 3)) final := by
  have writes : Writes "6/2" (quotient 6 2).tokens :=
    writes_operation .dividedBy rfl (spells_digit '6' (by decide) (by decide))
      (spells_digit '2' (by decide) (by decide))
  exact (evaluate_valued "6/2" (quotient 6 2) 3 writes (by decide)).1 ⟨trivial, trivial⟩

end OverText

end Packrat.Calculator
