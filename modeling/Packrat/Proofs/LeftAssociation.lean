import Packrat.Proofs.Arithmetic
import Packrat.Proofs.Reading

/-!
# Left associative operators

A level of a calculator has two operators of one rank and the operands of the next level.
Its rule is left recursive.  Growing starts with the first operand, and each round adds one
operator and one operand, as long as one of the operators follows.
-/

namespace Packrat.Calculator

variable {ι : Type} [Input ι]

def computing (bits : Nat) (operation : Int → Int → Int) : Finish Int
  | .ok symbol => combine bits operation symbol
  | .error mismatch => .ok (.error mismatch)

def dividing (bits : Nat) : Finish Int := fun result => .ok (result.bind (divide bits))

omit [Input ι] in
theorem computed_eq (bits : Nat) (operation : Int → Int → Int)
    (left operator right : Parser ι Int) :
    computed bits operation left operator right =
      .wrap none (some .general) (operands left operator right) (computing bits operation) := by
  unfold computed Parser.compute
  congr
  funext result
  cases result <;> rfl

/-- A finishing step computes a partial operation on integers. -/
def Computes (finish : Finish Int) (operation? : Int → Int → Option Int) : Prop :=
  ∀ {left right symbol}, finish (.ok (.pair (.atom left) (.atom right))) = .ok (.ok symbol) ↔
    ∃ value, operation? left right = some value ∧ symbol = .atom value

/-- Operands are computed if the result fits. -/
theorem computing_computes (bits : Nat) (operation : Int → Int → Int) :
    Computes (computing bits operation) fun left right => fitting? bits (operation left right) := by
  intro left right symbol
  simp only [computing, combine, fitting?]
  by_cases fits : Signed.fits bits (operation left right) = true
  · rw [if_pos fits, if_pos fits]
    simp only [Except.ok.injEq, Option.some.injEq, exists_eq_left']
    exact eq_comm
  · rw [if_neg fits, if_neg fits]
    simp only [reduceCtorEq, false_and, exists_false]

theorem dividing_computes (bits : Nat) : Computes (dividing bits) (Signed.divide? bits) := by
  intro left right symbol
  simp only [dividing, Except.bind, divide]
  cases Signed.divide? bits left right with
  | none => simp only [Except.ok.injEq, reduceCtorEq, false_and, exists_false]
  | some quotient =>
      simp only [Except.ok.injEq, Option.some.injEq, exists_eq_left']
      exact eq_comm

/-- A match of operands and an operator that has been finished. -/
def Operates (setting : Setting ι Int) (allowed : Answering ι Int)
    (left operator right : Parser ι Int) (finish : Finish Int) (position : Nat)
    (matched : Match Value) : Prop :=
  ∃ one sign two, setting.Answers allowed left position (.ok one) ∧
    setting.Answers allowed operator one.span.stop (.ok sign) ∧
    setting.Answers allowed right sign.span.stop (.ok two) ∧
    finish (.ok (.pair one.symbol two.symbol)) = .ok (.ok matched.symbol) ∧
    matched.span.stop = two.span.stop

section Operations

variable {setting : Setting ι Int} {allowed : Answering ι Int}
  {left operator right first second operand : Parser ι Int}
  {finish finishFirst finishSecond : Finish Int}
  {position : Nat} {matched : Match Value}

theorem Operates.of_answers (fails : ∀ mismatch, finish (.error mismatch) = .ok (.error mismatch))
    (answers : setting.Answers allowed
      (.wrap none (some .general) (operands left operator right) finish) position (.ok matched)) :
    Operates setting allowed left operator right finish position matched := by
  obtain ⟨both, answers, finished, stops⟩ :=
    answers.of_finished fun mismatch => ⟨mismatch, fails mismatch⟩
  obtain ⟨front, two, answers, right, pair_eq, stopsToo⟩ := answers.of_both
  obtain ⟨one, sign, left, operator, one_eq, stopsFront⟩ := answers.of_both
  rw [stopsFront] at right
  rw [pair_eq, one_eq] at finished
  exact ⟨one, sign, two, left, operator, right, finished, stops.trans stopsToo⟩

/-- A level matches by one of its operators or as its operand does. -/
theorem operates_of_level
    (whole : setting.Answers allowed (.oneOf [
      .wrap none (some .general) (operands left first right) finishFirst,
      .wrap none (some .general) (operands left second right) finishSecond,
      operand]) position (.ok matched))
    (failsFirst : ∀ mismatch, finishFirst (.error mismatch) = .ok (.error mismatch))
    (failsSecond : ∀ mismatch, finishSecond (.error mismatch) = .ok (.error mismatch)) :
    Operates setting allowed left first right finishFirst position matched ∨
      Operates setting allowed left second right finishSecond position matched ∨
      ∃ one, setting.Answers allowed operand position (.ok one) ∧
        matched.symbol = one.symbol ∧ matched.span.stop = one.span.stop := by
  obtain ⟨parser, member, one, answers, same, stops⟩ := whole.of_choice
  have renamed {left operator right : Parser ι Int} {finish : Finish Int}
      (operates : Operates setting allowed left operator right finish position one) :
      Operates setting allowed left operator right finish position matched := by
    unfold Operates at operates ⊢
    rwa [same, stops]
  simp only [List.mem_cons, List.not_mem_nil, or_false] at member
  rcases member with rfl | rfl | rfl
  · exact .inl (renamed (.of_answers failsFirst answers))
  · exact .inr (.inl (renamed (.of_answers failsSecond answers)))
  · exact .inr (.inr ⟨one, answers, same, stops⟩)

end Operations

/-- A level of two left associative operators, of which the first is tried first. -/
structure Level (setting : Setting ι Int) (names : Tag → Parser ι Int) where
  tag : Tag
  itself : Parser ι Int
  tagged : itself.tag = some tag
  named : itself.core = names tag
  next : Tag
  operand : Parser ι Int
  operand_tagged : operand.tag = some next
  operand_named : operand.core = names next
  different : next ≠ tag
  first : Parser ι Int
  second : Parser ι Int
  finishFirst : Finish Int
  finishSecond : Finish Int
  first_fails : ∀ mismatch, finishFirst (.error mismatch) = .ok (.error mismatch)
  second_fails : ∀ mismatch, finishSecond (.error mismatch) = .ok (.error mismatch)
  reads : ∀ {allowed : Answering ι Int} {position stop : Nat} {symbol : Value},
    setting.Reads allowed (.oneOf [
      .wrap none (some .general) (operands itself first operand) finishFirst,
      .wrap none (some .general) (operands itself second operand) finishSecond,
      operand]) position symbol stop →
    setting.Reads allowed (names tag) position symbol stop

namespace Level

variable {setting : Setting ι Int} {names : Tag → Parser ι Int} (level : Level setting names)
  {allowed : Answering ι Int} {operator : Parser ι Int} {finish : Finish Int}
  {position middle after stop : Nat} {left right value sign : Value} {rounds : Nat}

def operation (operator : Parser ι Int) (finish : Finish Int) : Parser ι Int :=
  .wrap none (some .general) (operands level.itself operator level.operand) finish

theorem operation_matches {result : Value}
    (one : setting.Matches allowed level.itself position left middle)
    (between : setting.Matches allowed operator middle sign after)
    (two : setting.Matches allowed level.operand after right stop)
    (finished : finish (.ok (.pair left right)) = .ok (.ok result)) :
    setting.Matches allowed (level.operation operator finish) position result stop :=
  .wrap (.both (.both one between) two) finished

theorem operation_misses (fails : ∀ mismatch, finish (.error mismatch) = .ok (.error mismatch))
    (misses : setting.Misses allowed level.itself position) :
    setting.Misses allowed (level.operation operator finish) position :=
  .wrap (.both_first (.both_first misses)) fun mismatch => ⟨mismatch, fails mismatch⟩

theorem operation_misses_operator
    (fails : ∀ mismatch, finish (.error mismatch) = .ok (.error mismatch))
    (one : setting.Matches allowed level.itself position left middle)
    (misses : setting.Misses allowed operator middle) :
    setting.Misses allowed (level.operation operator finish) position :=
  .wrap (.both_first (.both_second one misses)) fun mismatch => ⟨mismatch, fails mismatch⟩

/-- At a position stands no operator with an operand after it. -/
def Lacks (operator : Parser ι Int) (middle : Nat) : Prop :=
  (∀ allowed, setting.Misses allowed operator middle) ∨
    ∃ sign after, (∀ allowed, setting.Matches allowed operator middle sign after) ∧
      setting.SettlesError names level.next after

/-- The level cannot go on from a position by either of its operators. -/
def Stops (middle : Nat) : Prop := level.Lacks level.first middle ∧ level.Lacks level.second middle

theorem Lacks.operation_misses {level : Level setting names} (lacks : level.Lacks operator middle)
    (fails : ∀ mismatch, finish (.error mismatch) = .ok (.error mismatch))
    (one : setting.Matches allowed level.itself position left middle)
    (misses : ∀ after, setting.SettlesError names level.next after →
      setting.Misses allowed level.operand after) :
    setting.Misses allowed (level.operation operator finish) position := by
  rcases lacks with absent | ⟨sign, after, between, operand⟩
  · exact level.operation_misses_operator fails one (absent _)
  · exact .wrap (.both_second (.both one (between _)) (misses after operand)) fun mismatch =>
      ⟨mismatch, fails mismatch⟩

/-- In the first round the level reads its first operand. -/
theorem grows_first (operand : setting.SettlesOk names level.next position value stop) :
    setting.Grows names (setting.Settles names) ⟨position, level.tag⟩ 0
      (.ok ⟨value, ⟨position, stop⟩⟩) := by
  refine .first (Setting.Reads.round (level.reads (.choice [_, _] rfl ?_
    (operand.matches_growing _ _ level.operand_tagged level.operand_named level.different))))
  simp only [List.mem_cons, List.not_mem_nil, or_false, forall_eq_or_imp, forall_eq]
  exact ⟨level.operation_misses level.first_fails
      (.of_refused ⟨position, level.tag⟩ level.tagged level.named),
    level.operation_misses level.second_fails
      (.of_refused ⟨position, level.tag⟩ level.tagged level.named)⟩

theorem itself_matches (left : Value) (forward : position ≤ middle) : setting.Matches
    (.named names (answeredWith ⟨position, level.tag⟩ (.ok ⟨left, ⟨position, middle⟩⟩)
      (setting.Settles names))) level.itself position left middle :=
  .of_seed ⟨position, level.tag⟩ level.tagged level.named forward

/--
A level has grown up to a position: it has this seed after no more rounds than positions, and
its first operand ends there or before.
-/
structure Grown (position : Nat) (left : Value) (middle : Nat) : Prop where
  forward : position < middle
  grows : ∃ rounds, position + rounds < middle ∧
    setting.Grows names (setting.Settles names) ⟨position, level.tag⟩ rounds
      (.ok ⟨left, ⟨position, middle⟩⟩)
  operand : ∃ value stop, setting.SettlesOk names level.next position value stop ∧ stop ≤ middle

variable {level}

/-- Growing starts with the first operand. -/
theorem Grown.start (operand : setting.SettlesOk names level.next position value stop)
    (forward : position < stop) : level.Grown position value stop :=
  ⟨forward, ⟨0, forward, level.grows_first operand⟩, value, stop, operand, Nat.le_refl stop⟩

theorem Grown.next {result : Value} (grown : level.Grown position left middle)
    (reads : setting.Reads
      (.named names (answeredWith ⟨position, level.tag⟩ (.ok ⟨left, ⟨position, middle⟩⟩)
        (setting.Settles names))) (names level.tag) position result stop)
    (longer : middle < stop) : level.Grown position result stop := by
  obtain ⟨forward, ⟨rounds, few, grows⟩, value, last, operand, within⟩ := grown
  have next := grows.next reads.round
  rw [Outcome.grow, if_pos longer] at next
  exact ⟨forward.trans longer, ⟨rounds + 1, by omega, next⟩, value, last, operand,
    within.trans (Nat.le_of_lt longer)⟩

theorem Grown.first {result : Value} (grown : level.Grown position left middle)
    (between : ∀ allowed, setting.Matches allowed level.first middle sign after)
    (operand : setting.SettlesOk names level.next after right stop)
    (finished : level.finishFirst (.ok (.pair left right)) = .ok (.ok result))
    (longer : middle < stop) : level.Grown position result stop := by
  have itself := level.itself_matches left (Nat.le_of_lt grown.forward)
  refine grown.next (level.reads (.choice [] rfl nofun ?_)) longer
  exact level.operation_matches itself (between _)
    (operand.matches_growing _ _ level.operand_tagged level.operand_named level.different) finished

theorem Grown.second {result : Value} (grown : level.Grown position left middle)
    (other : ∀ allowed, setting.Misses allowed level.first middle)
    (between : ∀ allowed, setting.Matches allowed level.second middle sign after)
    (operand : setting.SettlesOk names level.next after right stop)
    (finished : level.finishSecond (.ok (.pair left right)) = .ok (.ok result))
    (longer : middle < stop) : level.Grown position result stop := by
  have itself := level.itself_matches left (Nat.le_of_lt grown.forward)
  refine grown.next (level.reads (.choice [_] rfl ?_ (level.operation_matches itself (between _)
    (operand.matches_growing _ _ level.operand_tagged level.operand_named level.different)
    finished))) longer
  simp only [List.mem_singleton, forall_eq]
  exact level.operation_misses_operator level.first_fails itself (other _)

/-- Where the level cannot go on, it settles on what it has grown to. -/
theorem Grown.settles_of_stops (grown : level.Grown position left middle)
    (inside : middle ≤ Input.size setting.input) (stops : level.Stops middle) :
    setting.SettlesOk names level.tag position left middle := by
  obtain ⟨forward, ⟨rounds, few, grows⟩, value, stop, operand, within⟩ := grown
  let seed : Outcome Value := .ok ⟨left, ⟨position, middle⟩⟩
  have itself := level.itself_matches left (Nat.le_of_lt forward)
  have matched := operand.matches_growing ⟨position, level.tag⟩ seed level.operand_tagged
    level.operand_named level.different
  have misses (after : Nat) (fails : setting.SettlesError names level.next after) :=
    fails.misses_growing ⟨position, level.tag⟩ seed level.operand_tagged level.operand_named
      level.different
  have reads := level.reads (.choice [_, _] rfl ?_ matched)
  · have stable : seed.grow (.ok ⟨value, ⟨position, stop⟩⟩) = seed :=
      if_neg (Nat.not_lt.mpr within)
    have enough : rounds ≤ Input.remaining setting.input position := by
      unfold Input.remaining
      omega
    have settled := grows.add reads.round stable
      (Input.remaining setting.input position - rounds)
    rw [Nat.add_sub_cancel' enough] at settled
    exact ⟨.of_grows settled, Nat.le_of_lt forward⟩
  · simp only [List.mem_cons, List.not_mem_nil, or_false, forall_eq_or_imp, forall_eq]
    exact ⟨stops.1.operation_misses level.first_fails itself misses,
      stops.2.operation_misses level.second_fails itself misses⟩

/-- Where no operator follows, the level settles on what it has grown to. -/
theorem Grown.settles (grown : level.Grown position left middle)
    (inside : middle ≤ Input.size setting.input)
    (noFirst : ∀ allowed, setting.Misses allowed level.first middle)
    (noSecond : ∀ allowed, setting.Misses allowed level.second middle) :
    setting.SettlesOk names level.tag position left middle :=
  grown.settles_of_stops inside ⟨.inl noFirst, .inl noSecond⟩

variable (level) in
/-- Without a first operand the level settles on a mismatch. -/
theorem settles_error (operand : setting.SettlesError names level.next position)
    (fails : ∀ {allowed}, setting.Fails allowed (.oneOf [
      level.operation level.first level.finishFirst,
      level.operation level.second level.finishSecond, level.operand]) position →
        setting.Fails allowed (names level.tag) position) :
    setting.SettlesError names level.tag position := by
  refine .of_growing fun mismatch => fails (.choice ?_)
  simp only [List.mem_cons, List.not_mem_nil, or_false, forall_eq_or_imp, forall_eq]
  exact ⟨level.operation_misses level.first_fails
      (.of_refused ⟨position, level.tag⟩ level.tagged level.named),
    level.operation_misses level.second_fails
      (.of_refused ⟨position, level.tag⟩ level.tagged level.named),
    operand.misses_growing _ _ level.operand_tagged level.operand_named level.different⟩

end Level

end Packrat.Calculator
