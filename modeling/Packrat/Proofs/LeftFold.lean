import Packrat.Proofs.PlainParsers

/-!
# Left folds by left recursion

A left recursive rule that reads itself, an operator and an item, or else an item alone, folds
the items from the left.  On a standard engine the rule descends into itself until it is refused
and grows on the way back: in the first round it reads an item, and every further round adds an
operator and an item, as long as both follow.  A list of the items takes the same steps in a
plain loop.  There are enough rounds for all of them, because every step of the list consumes
something, and the rounds that are left over change nothing.
-/

namespace Packrat

open Readable (IsBoundary)

variable {ι α : Type}

def Symbol.joined (f : Symbol α → Symbol α → Symbol α) : Symbol α → Symbol α
  | .pair one other => f one other
  | symbol => symbol

variable [Input ι] [Readable ι]

/-- What a left recursive rule of plain items and plain operators is made of. -/
structure LeftFold (ι α : Type) [Input ι] [Readable ι] where
  tag : Tag
  item : Parser ι α
  operator : Parser ι α
  item_plain : item.Plain
  operator_plain : operator.Plain
  join : Symbol α → Symbol α → Symbol α
  start : Symbol α → Symbol α

namespace LeftFold

/-- The first alternative of the rule, with the rule in the place of the given parser. -/
def longer (fold : LeftFold ι α) (itself : Parser ι α) : Parser ι α :=
  ((itself.thenIgnore fold.operator).followedBy fold.item).map (.joined fold.join)

/-- The rule that reads itself, an operator and an item, or an item alone. -/
def rule (fold : LeftFold ι α) : Parser ι α :=
  .recursive fold.tag (.oneOf [fold.longer (.self 0), fold.item.map fold.start])

def names (fold : LeftFold ι α) (_ : Tag) : Parser ι α := fold.rule

def step (fold : LeftFold ι α) : Parser ι α := fold.operator.ignoreThen fold.item

def list (fold : LeftFold ι α) : Parser ι α := fold.item.list fold.operator

def folded (fold : LeftFold ι α) (first : Symbol α) (rest : List (Symbol α)) : Symbol α :=
  rest.foldl fold.join (fold.start first)

theorem unfold_rule (fold : LeftFold ι α) :
    Parser.unfold fold.tag (.oneOf [fold.longer (.self 0), fold.item.map fold.start]) =
      .oneOf [fold.longer fold.rule, fold.item.map fold.start] := by
  simp only [Parser.unfold, longer, Parser.oneOf, Parser.map, Parser.followedBy,
    Parser.thenIgnore, Parser.replaceSelf, Parser.replaceSelfAll,
    fold.item_plain.replaceSelf_eq, fold.operator_plain.replaceSelf_eq, if_true, rule]

variable {fold : LeftFold ι α} {setting : Setting ι α} {allowed : Answering ι α}
  {position middle stop : Nat} {first left right symbol : Symbol α} {symbols : List (Symbol α)}

/-- Wherever an operator and then an item match, they consume something. -/
def Consumes (fold : LeftFold ι α) (setting : Setting ι α) : Prop :=
  ∀ {steps position : Nat} {matched : Match (Symbol α)} {final : State α},
    IsBoundary setting.input position →
    setting.runMatch steps fold.step ⟨position, .standard, []⟩ = .done (.ok matched) final →
    matched.span.isEmpty = false

def Adds (fold : LeftFold ι α) (setting : Setting ι α) (position : Nat) (symbol : Symbol α)
    (stop : Nat) : Prop :=
  ∃ sign after, setting.Matches .nothing fold.operator position sign after ∧
    setting.Matches .nothing fold.item after symbol stop ∧ position < stop

/-- No operator follows, or one that no item follows. -/
def Ends (fold : LeftFold ι α) (setting : Setting ι α) (position : Nat) : Prop :=
  setting.Misses .nothing fold.operator position ∨
    ∃ sign after, setting.Matches .nothing fold.operator position sign after ∧
      setting.Misses .nothing fold.item after

theorem Adds.advances (adds : fold.Adds setting position symbol stop) :
    setting.Advances allowed fold.step position symbol stop := by
  obtain ⟨sign, after, between, one, onward⟩ := adds
  exact ⟨.both between.anywhere one.anywhere, onward⟩

theorem Ends.misses (ends : fold.Ends setting position) :
    setting.Misses allowed fold.step position := by
  rcases ends with misses | ⟨sign, after, between, misses⟩
  · exact .both_first misses.anywhere
  · exact .both_second between.anywhere misses.anywhere

theorem chain_advances (chain : Setting.Chain (fold.Adds setting) position symbols stop) :
    Setting.Chain (setting.Advances allowed fold.step) position symbols stop := by
  induction chain with
  | nil position => exact .nil position
  | cons adds _ ih => exact .cons adds.advances ih

/-- Every step consumes something, so there are no more steps than positions. -/
theorem length_le_of_chain (chain : Setting.Chain (fold.Adds setting) position symbols stop) :
    position + symbols.length ≤ stop := by
  induction chain with
  | nil position => exact Nat.le_refl position
  | cons adds _ ih =>
      obtain ⟨-, -, -, -, onward⟩ := adds
      rw [List.length_cons]
      omega

theorem Consumes.forward (consumes : fold.Consumes setting)
    (boundary : IsBoundary setting.input position)
    (one : setting.Matches .nothing fold.step position symbol stop) : position < stop := by
  have settles : setting.SettlesOn fold.names fold.step position
      (.ok ⟨symbol, ⟨position, stop⟩⟩) := one.anywhere.1
  obtain ⟨steps, final, done, -⟩ := settles.runs Policy.standard_serving []
  have nonempty := consumes boundary done
  simp only [Span.isEmpty, beq_eq_false_iff_ne] at nonempty
  exact Nat.lt_of_le_of_ne one.2 nonempty

theorem exists_chain (consumes : fold.Consumes setting)
    (boundary : IsBoundary setting.input position) :
    ∃ symbols stop, Setting.Chain (fold.Adds setting) position symbols stop ∧
      fold.Ends setting stop ∧ IsBoundary setting.input stop := by
  generalize rooms : Input.size setting.input - position = room
  induction room using Nat.strongRecOn generalizing position with
  | ind room ih =>
    rcases fold.operator_plain.matches_or_misses boundary with
      ⟨sign, after, between, reached⟩ | misses
    · rcases fold.item_plain.matches_or_misses reached with
        ⟨symbol, middle, one, reached⟩ | misses
      · have onward := consumes.forward boundary (.both between one)
        have inside := Readable.le_size reached
        obtain ⟨symbols, stop, chain, rest⟩ := ih _ (by omega) reached rfl
        exact ⟨symbol :: symbols, stop, .cons ⟨sign, after, between, one, onward⟩ chain, rest⟩
      · exact ⟨[], position, .nil position, .inr ⟨sign, after, between, misses⟩, boundary⟩
    · exact ⟨[], position, .nil position, .inl misses, boundary⟩

theorem reads_longer (itself : setting.Matches allowed fold.rule position left middle)
    (adds : fold.Adds setting middle right stop) :
    setting.Reads allowed fold.rule position (fold.join left right) stop := by
  obtain ⟨sign, after, between, one, -⟩ := adds
  refine .recursive ?_
  rw [unfold_rule]
  exact .choice [] rfl nofun (.map (.both (.both itself between.anywhere) one.anywhere))

theorem longer_misses (misses : setting.Misses allowed fold.rule position) :
    setting.Misses allowed (fold.longer fold.rule) position :=
  .map (.both_first (.both_first misses))

theorem longer_misses_of_ends (itself : setting.Matches allowed fold.rule position left middle)
    (ends : fold.Ends setting middle) :
    setting.Misses allowed (fold.longer fold.rule) position := by
  rcases ends with misses | ⟨sign, after, between, misses⟩
  · exact .map (.both_first (.both_second itself misses.anywhere))
  · exact .map (.both_second (.both itself between.anywhere) misses.anywhere)

theorem reads_first (misses : setting.Misses allowed (fold.longer fold.rule) position)
    (one : setting.Matches .nothing fold.item position first middle) :
    setting.Reads allowed fold.rule position (fold.start first) middle := by
  refine .recursive ?_
  rw [unfold_rule]
  refine .choice [_] rfl ?_ (.map one.anywhere)
  simpa only [List.mem_singleton, forall_eq] using misses

theorem fails_first (itself : setting.Misses allowed fold.rule position)
    (misses : setting.Misses .nothing fold.item position) :
    setting.Fails allowed fold.rule position := by
  have both : setting.Misses allowed
      (.oneOf [fold.longer fold.rule, fold.item.map fold.start]) position := by
    refine .choice ?_
    simp only [List.mem_cons, List.not_mem_nil, or_false, forall_eq_or_imp, forall_eq]
    exact ⟨longer_misses itself, .map misses.anywhere⟩
  rw [← unfold_rule] at both
  obtain ⟨mismatch, answers⟩ := both
  exact ⟨mismatch, position, Setting.replies_recursive_iff.mpr ⟨_, answers, rfl, rfl⟩⟩

/-! ## Growing -/

variable {others : Key → Outcome (Symbol α) → Prop} {rounds : Nat}

/-- The steps of the list are rounds of the rule, each of which grows the seed. -/
theorem grows_chain (chain : Setting.Chain (fold.Adds setting) middle symbols stop)
    (forward : position ≤ middle)
    (grows : setting.Grows fold.names others ⟨position, fold.tag⟩ rounds
      (.ok ⟨left, ⟨position, middle⟩⟩)) :
    setting.Grows fold.names others ⟨position, fold.tag⟩ (rounds + symbols.length)
      (.ok ⟨symbols.foldl fold.join left, ⟨position, stop⟩⟩) := by
  induction chain generalizing rounds left with
  | nil middle => exact grows
  | @cons middle next stop symbol symbols adds _ ih =>
      obtain ⟨-, -, -, -, onward⟩ := id adds
      have itself : setting.Matches (.named fold.names (answeredWith ⟨position, fold.tag⟩
          (.ok ⟨left, ⟨position, middle⟩⟩) others)) fold.rule position left middle :=
        .of_seed ⟨position, fold.tag⟩ rfl rfl forward
      have longer := grows.next (Setting.Reads.round (reads_longer itself adds))
      rw [Outcome.grow, if_pos onward] at longer
      have grown := ih (forward.trans (Nat.le_of_lt onward)) longer
      rwa [List.length_cons, Nat.add_comm symbols.length, ← Nat.add_assoc]

/-- Where an item matches, the rule settles on the fold of all items of the list. -/
theorem settlesOk (one : setting.Matches .nothing fold.item position first middle)
    (chain : Setting.Chain (fold.Adds setting) middle symbols stop)
    (ends : fold.Ends setting stop) (inside : stop ≤ Input.size setting.input) :
    setting.SettlesOk fold.names fold.tag position (fold.folded first symbols) stop := by
  have few := length_le_of_chain chain
  have ahead : position ≤ stop := one.2.trans (by omega)
  have start : setting.Grows fold.names (setting.Settles fold.names) ⟨position, fold.tag⟩ 0
      (.ok ⟨fold.start first, ⟨position, middle⟩⟩) :=
    .first (Setting.Reads.round (reads_first (longer_misses
      (.of_refused ⟨position, fold.tag⟩ rfl rfl)) one))
  have grown := grows_chain chain one.2 start
  rw [Nat.zero_add] at grown
  -- One more round reads the first item alone, which is no longer than what has grown.
  have itself : setting.Matches (.named fold.names (answeredWith ⟨position, fold.tag⟩
      (.ok ⟨fold.folded first symbols, ⟨position, stop⟩⟩) (setting.Settles fold.names)))
      fold.rule position (fold.folded first symbols) stop :=
    .of_seed ⟨position, fold.tag⟩ rfl rfl ahead
  have last := reads_first (longer_misses_of_ends itself ends) one
  have within : middle ≤ stop := (Nat.le_add_right _ _).trans few
  have stable : Outcome.grow (.ok ⟨fold.folded first symbols, ⟨position, stop⟩⟩)
      (.ok ⟨fold.start first, ⟨position, middle⟩⟩) =
      .ok ⟨fold.folded first symbols, ⟨position, stop⟩⟩ :=
    if_neg (Nat.not_lt.mpr within)
  have settled := grown.add (Setting.Reads.round last) stable
    (Input.remaining setting.input position - symbols.length)
  have enough : symbols.length ≤ Input.remaining setting.input position := by
    unfold Input.remaining
    have := one.2
    omega
  rw [Nat.add_sub_cancel' enough] at settled
  exact ⟨.of_grows settled, ahead⟩

theorem settlesError (misses : setting.Misses .nothing fold.item position) :
    setting.SettlesError fold.names fold.tag position := by
  have fails (refusal : Mismatch) : ∃ mismatch, setting.Round fold.names
      (answeredWith ⟨position, fold.tag⟩ (.error refusal) (setting.Settles fold.names))
      ⟨position, fold.tag⟩ (.error mismatch) := by
    have itself : setting.Misses (.named fold.names (answeredWith ⟨position, fold.tag⟩
        (.error refusal) (setting.Settles fold.names))) fold.rule position :=
      .of_refused ⟨position, fold.tag⟩ rfl rfl
    have round : setting.Fails _ (fold.names fold.tag) position := fails_first itself misses
    exact round.round
  obtain ⟨mismatch, first⟩ := fails (DepthLimiter.refusal (Key.call setting.input _))
  obtain ⟨other, last⟩ := fails mismatch
  have settled := (Setting.Grows.first first).add last rfl
    (Input.remaining setting.input position)
  rw [Nat.zero_add] at settled
  exact ⟨mismatch, .of_grows settled⟩

/-- Where an item matches, the list takes it and then all steps. -/
theorem list_matches (one : setting.Matches .nothing fold.item position first middle)
    (chain : Setting.Chain (fold.Adds setting) middle symbols stop)
    (ends : fold.Ends setting stop) :
    setting.Matches allowed fold.list position (.list (first :: symbols)) stop :=
  .list_cons one.anywhere (chain_advances chain) ends.misses

end LeftFold

/--
A left recursive rule of plain items and operators, run on a fresh standard engine from any
boundary.  It matches exactly if an item matches there, and then it folds from the left the items
that the list takes, and ends where the list ends.
-/
theorem runMatch_leftFold (fold : LeftFold ι α) (setting : Setting ι α)
    (consumes : fold.Consumes setting) (position : Nat)
    (boundary : IsBoundary setting.input position) (journal : List Event) :
    ∃ items stop outcome,
      (∃ steps final, setting.runMatch steps fold.list ⟨position, .standard, journal⟩ =
        .done (.ok ⟨.list items, ⟨position, stop⟩⟩) final ∧ final.cursor = stop) ∧
      (∃ steps final, setting.runMatch steps fold.rule ⟨position, .standard, journal⟩ =
        .done outcome final ∧ final.cursor = outcome.landing position) ∧
      ((∃ matched, outcome = .ok matched) ↔
        ∃ steps one final, setting.runMatch steps fold.item ⟨position, .standard, journal⟩ =
          .done (.ok one) final) ∧
      ∀ matched, outcome = .ok matched → ∃ first rest, items = first :: rest ∧
        matched = ⟨fold.folded first rest, ⟨position, stop⟩⟩ := by
  have fresh : (Policy.standard : Policy α).Serving setting fold.names :=
    Policy.standard_serving
  rcases fold.item_plain.matches_or_misses boundary with ⟨first, middle, one, reached⟩ | misses
  · obtain ⟨rest, stop, chain, ends, inside⟩ := fold.exists_chain consumes reached
    have settles := LeftFold.settlesOk one chain ends (Readable.le_size inside)
    have list : setting.SettlesOn fold.names fold.list position
        (.ok ⟨.list (first :: rest), ⟨position, stop⟩⟩) :=
      (LeftFold.list_matches one chain ends).1
    have item : setting.SettlesOn fold.names fold.item position
        (.ok ⟨first, ⟨position, middle⟩⟩) := one.anywhere.1
    refine ⟨first :: rest, stop, _, list.runs fresh journal,
      (settles.settlesOn rfl rfl).runs fresh journal, ?_, ?_⟩
    · obtain ⟨steps, final, done, -⟩ := item.runs fresh journal
      exact ⟨fun _ => ⟨steps, _, final, done⟩, fun _ => ⟨_, rfl⟩⟩
    · rintro matched same
      exact ⟨first, rest, rfl, (Except.ok.inj same).symm⟩
  · obtain ⟨refusal, settles⟩ := LeftFold.settlesError misses
    obtain ⟨mismatch, rule⟩ : setting.Misses (.named fold.names (setting.Settles fold.names))
        fold.rule position := .of_given rfl rfl settles
    have list : setting.SettlesOn fold.names fold.list position
        (.ok ⟨.list [], ⟨position, position⟩⟩) := (Setting.Matches.list_nil misses.anywhere).1
    refine ⟨[], position, _, list.runs fresh journal, Setting.SettlesOn.runs rule fresh journal,
      ?_, nofun⟩
    constructor
    · rintro ⟨matched, same⟩
      cases same
    · rintro ⟨steps, one, final, done⟩
      obtain ⟨cause, answers⟩ := misses
      have matched := fold.item_plain.answers_of_run boundary done
      cases (matched.unique (fun _ _ _ _ given => given.elim) answers).1

theorem letter_plain (c : Char) : (letter c).Plain :=
  .terminal (Readable.sound (TokenTerminal.oneToken c.toString _))

def letterPairs : LeftFold (Array Char) Unit where
  tag := ⟨"pairs"⟩
  item := letter 'a'
  operator := letter ','
  item_plain := letter_plain 'a'
  operator_plain := letter_plain ','
  join := .pair
  start := id

theorem letter_reads {setting : Setting (Array Char) Unit}
    {allowed : Answering (Array Char) Unit} {c : Char} {position : Nat}
    {matched : Match (Symbol Unit)}
    (answers : setting.Answers allowed (letter c) position (.ok matched)) :
    matched.span.stop = position + 1 := by
  obtain ⟨length, found, stops⟩ := answers.of_terminal
  obtain ⟨symbol, -, same⟩ := Option.map_eq_some_iff.mp (Except.ok.inj found)
  cases same
  exact stops

theorem letterPairs_consumes (setting : Setting (Array Char) Unit) :
    letterPairs.Consumes setting := by
  intro steps position matched final boundary done
  have answers := (letterPairs.operator_plain.ignoreThen
    letterPairs.item_plain).answers_of_run boundary done
  obtain ⟨-, starts, -⟩ := (Setting.answers_ok_iff rfl).mp answers
  obtain ⟨comma, item, comma_answers, item_answers, -, stops⟩ := answers.of_both
  have comma_stops := letter_reads comma_answers
  have item_stops := letter_reads item_answers
  simp only [Span.isEmpty, beq_eq_false_iff_ne]
  omega

def danglingComma : Setting (Array Char) Unit := ⟨#['a', ',', 'a', ','], .empty⟩

/-- No letter follows the last comma, so that neither the list nor the rule reads it. -/
theorem runMatch_leftFold_letters :
    letterPairs.Consumes danglingComma ∧
    ∃ steps final, danglingComma.runMatch steps letterPairs.rule ⟨0, .standard, []⟩ =
      .done (.ok ⟨.pair (.character 'a') (.character 'a'), ⟨0, 3⟩⟩) final := by
  have list : ∃ steps final, danglingComma.runMatch steps letterPairs.list ⟨0, .standard, []⟩ =
      .done (.ok ⟨.list [.character 'a', .character 'a'], ⟨0, 3⟩⟩) final := ⟨40, _, rfl⟩
  have item : ∃ steps one final, danglingComma.runMatch steps letterPairs.item
      ⟨0, .standard, []⟩ = .done (.ok one) final := ⟨10, ⟨.character 'a', ⟨0, 1⟩⟩, _, rfl⟩
  refine ⟨letterPairs_consumes danglingComma, ?_⟩
  obtain ⟨items, stop, outcome, ⟨steps, final, listed, -⟩, ⟨stepsToo, finalToo, ruled, -⟩,
    matches_iff, folds⟩ := runMatch_leftFold letterPairs danglingComma
      (letterPairs_consumes danglingComma) 0 (Nat.zero_le 4) []
  obtain ⟨stepsList, finalList, listedToo⟩ := list
  cases Setting.outcome_unique listed listedToo
  obtain ⟨matched, rfl⟩ := matches_iff.mpr item
  obtain ⟨first, rest, same, rfl⟩ := folds matched rfl
  cases same
  exact ⟨stepsToo, finalToo, ruled⟩

end Packrat
