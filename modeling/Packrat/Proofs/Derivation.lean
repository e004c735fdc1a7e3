import Packrat.Proofs.SettledCalls

/-!
# What a standard engine can answer

A standard engine has every answer from the body of a rule, from a refusal, or from an
answer that it remembers.  A property of outcomes that refusals have, and that bodies pass
on from the calls they make, is therefore a property of all answers.  Nothing is assumed on
how rules are left recursive and whether they end.

The parsers of the grammar are given by a predicate that is closed under what bodies do.
-/

namespace Packrat

variable {ι α : Type} [Input ι]

def Move.Leads (within runs : Parser ι α → Prop) : Move ι α → Prop
  | .call parser pending => within parser ∧ pending.Over within fun _ => True
  | .become _ parser => runs parser
  | _ => True

def Control.Leads (within runs : Parser ι α → Prop) : Control ι α → Prop
  | .call parser => within parser
  | .body parser => runs parser
  | .move next => next.Leads within runs
  | .answer _ => True

omit [Input ι] in
theorem Move.Over.leads {within runs : Parser ι α → Prop} {move : Move ι α}
    (covers : move.Over within (fun _ => True) fun _ => True)
    (wider : ∀ {parser}, within parser → runs parser) : move.Leads within runs := by
  cases move with
  | call parser pending => exact covers
  | become events parser => exact wider covers.1
  | _ => trivial

/--
Parsers closed under what bodies do, in which tags name parsers and no body sees a policy.  More
bodies may run than those of the parsers that are called.
-/
structure Setting.Grammar (setting : Setting ι α) (names : Tag → Parser ι α)
    (within runs : Parser ι α → Prop) : Prop where
  following : ∀ {first second}, within first → within second → within (first.ignoreThen second)
  wider : ∀ {parser}, within parser → runs parser
  starts : ∀ {parser}, runs parser → ∀ state, (parser.start setting state).Leads within runs
  uniform : ∀ {parser}, runs parser → ∀ {state other : State α}, state.cursor = other.cursor →
    parser.start setting state = parser.start setting other
  named : ∀ {parser tag}, within parser → parser.tag = some tag → parser.core = names tag

/-- Refusals have given outcomes, and so has whatever bodies make of given outcomes. -/
structure Setting.Derives (setting : Setting ι α) (names : Tag → Parser ι α)
    (given : Key → Outcome (Symbol α) → Prop) : Prop where
  refused : ∀ key, given key (.error (DepthLimiter.refusal (key.call setting.input)))
  made : ∀ key outcome, setting.Round names given key outcome → given key outcome

def Memoizer.Holds (names : Tag → Parser ι α) (given : Key → Outcome (Symbol α) → Prop)
    (memo : Memoizer α) : Prop :=
  ∀ key remembered, memo.find? key = some remembered →
    ∃ outcome, given key outcome ∧ remembered = outcome.sealedAs (names key.tag).kind

omit [Input ι] in
theorem Memoizer.holds_empty {names : Tag → Parser ι α}
    {given : Key → Outcome (Symbol α) → Prop} : (empty : Memoizer α).Holds names given := by
  intro key remembered found
  rw [find?_empty] at found
  cases found

omit [Input ι] in
/-- What grows from given outcomes is given. -/
theorem Memoizer.Holds.grow {names : Tag → Parser ι α} {given : Key → Outcome (Symbol α) → Prop}
    {memo : Memoizer α} (holds : memo.Holds names given) {key : Key} {made : Outcome (Symbol α)}
    (fresh : given key made) : ∃ current value : Outcome (Symbol α), given key value ∧
      ((memo.find? key = none ∧ value = made) ∨
        (memo.find? key = some (current.sealedAs (names key.tag).kind) ∧
          value = current.grow made)) := by
  cases found : memo.find? key with
  | none => exact ⟨made, made, fresh, .inl ⟨rfl, rfl⟩⟩
  | some remembered =>
      obtain ⟨current, allowed, rfl⟩ := holds key remembered found
      refine ⟨current, _, ?_, .inr ⟨rfl, rfl⟩⟩
      rcases current.grow_eq_or made with same | ⟨same, -⟩
      · rwa [same]
      · rwa [same]

omit [Input ι] in
theorem Memoizer.Holds.stored {names : Tag → Parser ι α}
    {given : Key → Outcome (Symbol α) → Prop} {memo later : Memoizer α}
    (holds : memo.Holds names given) {key : Key} {value : Outcome (Symbol α)}
    (allowed : given key value)
    (stored : later.find? key = some (value.sealedAs (names key.tag).kind))
    (kept : ∀ other, other ≠ key → later.find? other = memo.find? other) :
    later.Holds names given := by
  intro other remembered found
  by_cases equal : other = key
  · subst equal
    cases stored.symm.trans found
    exact ⟨value, allowed, rfl⟩
  · rw [kept other equal] at found
    exact holds other remembered found

/-- A standard chain that remembers only what is given. -/
def Policy.Holding (names : Tag → Parser ι α) (given : Key → Outcome (Symbol α) → Prop)
    (policy : Policy α) : Prop :=
  ∃ limiter memo, policy.IsStandard limiter memo ∧ memo.Holds names given

omit [Input ι] in
theorem Policy.Holding.enter {names : Tag → Parser ι α}
    {given : Key → Outcome (Symbol α) → Prop} {policy : Policy α}
    (holding : policy.Holding names given) (call : Call) :
    (policy.enter call).policy.Holding names given := by
  obtain ⟨limiter, memo, standard, holds⟩ := holding
  obtain ⟨further, standardToo⟩ := standard.enter call
  exact ⟨further, memo, standardToo, holds⟩

/-- Parsers that are put together from the rules that tags name, without tags of their own. -/
inductive Parser.Linked (names : Tag → Parser ι α) : Parser ι α → Prop where
  | rule (tag : Tag) : Linked names (names tag)
  | terminal (expectation : String) (probe : Probe ι α) : Linked names (.terminal expectation probe)
  | wrap (kind : Option Kind) (finish : Finish α) {inner : Parser ι α} :
      Linked names inner → Linked names (.wrap none kind inner finish)
  | both (combine : Symbol α → Symbol α → Symbol α) {first second : Parser ι α} :
      Linked names first → Linked names second → Linked names (.both first second combine)
  | repetition (limit : CountLimit) {item : Parser ι α} :
      Linked names item → Linked names (.repetition none item limit)
  | separated {item separator : Parser ι α} :
      Linked names item → Linked names separator → Linked names (.separated none item separator)
  | choice {alternatives : List (Parser ι α)} :
      (∀ parser ∈ alternatives, Linked names parser) → Linked names (.choice none alternatives)

/--
Rules make a grammar with all that is put together from them, and with the parsers that handles
stand for.
-/
theorem Setting.grammar_of_rules {setting : Setting ι α} {names : Tag → Parser ι α}
    {held : Parser ι α → Prop}
    (starts : ∀ tag state, ((names tag).start setting state).Leads (Parser.Linked names)
      fun parser => parser.Linked names ∨ held parser)
    (uniform : ∀ tag (state other : State α), state.cursor = other.cursor →
      (names tag).start setting state = (names tag).start setting other)
    (named : ∀ {tag other}, (names tag).tag = some other → (names tag).core = names other)
    (startsHeld : ∀ parser, held parser → ∀ state, (parser.start setting state).Leads
      (Parser.Linked names) fun parser => parser.Linked names ∨ held parser)
    (uniformHeld : ∀ parser, held parser → ∀ (state other : State α),
      state.cursor = other.cursor → parser.start setting state = parser.start setting other) :
    setting.Grammar names (Parser.Linked names)
      fun parser => parser.Linked names ∨ held parser where
  following first second := .both _ first second
  wider := .inl
  starts runs state := by
    rcases runs with linked | isHeld
    · cases linked with
      | rule tag => exact starts tag state
      | terminal expectation probe =>
          exact (Parser.start_terminal_over setting state expectation probe).leads .inl
      | wrap kind finish inner => exact ⟨inner, trivial⟩
      | both combine first second => exact ⟨first, second⟩
      | repetition limit item => exact (continueRepetition_over item).leads .inl
      | separated item separator => exact ⟨item, item, separator⟩
      | choice alternatives => exact (tryAlternatives_over alternatives).leads .inl
    · exact startsHeld _ isHeld state
  uniform := by
    intro parser runs state other same
    rcases runs with linked | isHeld
    · cases linked with
      | rule tag => exact uniform tag _ _ same
      | _ => simp only [Parser.start, same]
    · exact uniformHeld _ isHeld _ _ same
  named := by
    intro parser tag linked tagged
    cases linked with
    | rule tag => exact named tagged
    | _ => cases tagged

section Derivation

variable {setting : Setting ι α} {names : Tag → Parser ι α}
  {within runs : Parser ι α → Prop}
  {given : Key → Outcome (Symbol α) → Prop} {parser : Parser ι α} {state middle final : State α}

/-- A call that the policies answer has a given outcome, sealed as its parser promises. -/
theorem answered_given (derives : setting.Derives names given)
    (named : ∀ tag, parser.tag = some tag → parser.core = names tag)
    (holding : state.policy.Holding names given) {answer : Outcome (Sealed α)}
    (answered : (setting.entry parser state).answer = some answer) :
    ∃ outcome : Outcome (Symbol α), answer = outcome.sealedAs parser.kind ∧
      parser.tag ≠ none ∧ Answering.named names given parser state.cursor outcome := by
  obtain ⟨limiter, memo, standard, holds⟩ := holding
  cases tagged : parser.tag with
  | none =>
      have untagged : (callAt setting.input state.cursor parser).key? = none := by
        rw [Call.key?, callAt, tagged]
        rfl
      rw [Setting.entry, (standard.enter_untagged untagged).1] at answered
      cases answered
  | some tag =>
      let key : Key := ⟨state.cursor, tag⟩
      have same : callAt setting.input state.cursor parser = key.call setting.input :=
        Key.callAt_eq setting.input tagged rfl
      have keyed := Key.key?_call setting.input key
      rw [← same] at keyed
      have core_eq := named tag tagged
      cases refuses : limiter.refuses key (callAt setting.input state.cursor parser).remaining with
      | true =>
          cases answered.symm.trans (standard.enter_refused keyed refuses).1
          refine ⟨.error _, rfl, Option.some_ne_none tag, tag, tagged, core_eq, ?_⟩
          rw [same]
          exact derives.refused key
      | false =>
          cases found : memo.find? key with
          | none => cases answered.symm.trans (standard.enter_open keyed refuses found).1
          | some remembered =>
              obtain ⟨outcome, allowed, rfl⟩ := holds key remembered found
              cases answered.symm.trans (standard.enter_remembered keyed refuses found).1
              have kind_eq : parser.kind = (names key.tag).kind := Parser.kind_eq_of_core core_eq
              rw [← kind_eq]
              exact ⟨outcome, rfl, Option.some_ne_none tag, tag, tagged, core_eq, allowed⟩

/--
A call that the policies have left to a body ends in a given outcome, sealed as its parser
promises.
-/
theorem executed_given (derives : setting.Derives names given)
    (named : ∀ tag, parser.tag = some tag → parser.core = names tag) {position : Nat}
    {result : Result α} {sealed : Outcome (Sealed α)}
    (replies : setting.Replies (.named names given) parser position result middle.cursor)
    (holding : middle.policy.Holding names given)
    (sealed_eq : sealResult (callAt setting.input position parser) parser.kind middle.cursor
      result = .ok sealed) :
    ∃ outcome : Outcome (Symbol α),
      (middle.policy.leave (callAt setting.input position parser) sealed).outcome =
        outcome.sealedAs parser.kind ∧
      setting.Answers (.named names given) parser position outcome ∧
      (middle.policy.leave (callAt setting.input position parser) sealed).policy.Holding names
        given := by
  obtain ⟨limiter, memo, standard, holds⟩ := holding
  have forward := forward_of_sealResult sealed_eq
  cases sealed_eq.symm.trans (sealResult_ofResult forward)
  let made : Outcome (Symbol α) := .ofResult position middle.cursor result
  cases tagged : parser.tag with
  | none =>
      have untagged : (callAt setting.input position parser).key? = none := by
        rw [Call.key?, callAt, tagged]
        rfl
      obtain ⟨returns, standardToo⟩ := standard.leave_untagged untagged (made.sealedAs parser.kind)
      exact ⟨made, returns, .executed tagged replies forward, limiter, memo, standardToo, holds⟩
  | some tag =>
      let key : Key := ⟨position, tag⟩
      have same : callAt setting.input position parser = key.call setting.input := by
        rw [callAt, tagged]
        rfl
      have keyed := Key.key?_call setting.input key
      rw [← same] at keyed
      have core_eq := named tag tagged
      have kind_eq : parser.kind = (names key.tag).kind := Parser.kind_eq_of_core core_eq
      have fresh : given key made := by
        refine derives.made key made ⟨result, middle.cursor, ?_, forward, rfl⟩
        rw [← core_eq]
        exact Yields.body_core.mpr replies
      obtain ⟨current, value, allowed, remembered⟩ := holds.grow fresh
      rw [← kind_eq] at remembered
      obtain ⟨returns, limiterToo, memoToo, standardToo, stored, kept⟩ :=
        leave_grows parser.kind standard keyed remembered
      rw [kind_eq] at stored
      have answers : setting.Answers (.named names given) parser position value :=
        (Setting.answers_tagged_iff (by rw [tagged]; exact Option.some_ne_none tag)).mpr
          ⟨tag, tagged, core_eq, allowed⟩
      exact ⟨value, returns, answers, limiterToo, memoToo, standardToo,
        holds.stored allowed stored kept⟩

/--
Whatever a control ends in on a standard engine, unless a rule of the engine is broken, it
yields where calls have given outcomes.
-/
theorem Ends.yields (grammar : setting.Grammar names within runs)
    (derives : setting.Derives names given) {control : Control ι α} {halt : Halt α}
    (ends : Ends setting control state halt final) (covered : control.Leads within runs)
    (holding : state.policy.Holding names given) (unfaulted : ∀ fault, halt ≠ .faulted fault) :
    Yields setting (.named names given) control state.cursor halt final.cursor ∧
      final.policy.Holding names given := by
  induction ends with
  | reply result state => exact ⟨.reply result, holding⟩
  | read symbol stop state => exact ⟨.read symbol stop, holding⟩
  | become _ ih =>
      obtain ⟨yields, holdingToo⟩ := ih covered holding unfaulted
      exact ⟨.become yields, holdingToo⟩
  | body _ ih =>
      obtain ⟨yields, holdingToo⟩ := ih (grammar.starts covered _) holding unfaulted
      exact ⟨.body (fun _ _ => grammar.uniform covered rfl) yields, holdingToo⟩
  | @resumed _ pending outcome _ _ _ _ _ _ callIh moveIh =>
      obtain ⟨called, holdingMid⟩ := callIh covered.1 holding nofun
      obtain ⟨moved, holdingToo⟩ :=
        moveIh ((Pending.resume_over grammar.following covered.2 outcome).leads grammar.wider)
          holdingMid unfaulted
      exact ⟨.resumed called moved, holdingToo⟩
  | @answered parser state _ answer =>
      obtain ⟨outcome, rfl, tagged, allowed⟩ :=
        answered_given derives (fun _ => grammar.named covered) holding answer
      rw [settle_sealedAs]
      exact ⟨.answered tagged allowed, holding.enter (callAt setting.input state.cursor parser)⟩
  | @executed parser state middle result sealed _ _ sealed_eq ih =>
      obtain ⟨replies, holdingMid⟩ :
          setting.Replies (.named names given) parser state.cursor result middle.cursor ∧
            middle.policy.Holding names given :=
        ih (grammar.wider covered)
          (holding.enter (callAt setting.input state.cursor parser)) nofun
      obtain ⟨outcome, returns, answers, holdingToo⟩ :=
        executed_given derives (fun _ => grammar.named covered) replies holdingMid sealed_eq
      rw [conclude_policy, conclude, returns, settle_sealedAs]
      exact ⟨answers, holdingToo⟩
  | abort fault state => exact absurd rfl (unfaulted fault)
  | lost => exact absurd rfl (unfaulted _)
  | unsealed => exact absurd rfl (unfaulted _)
  | broken => exact absurd rfl (unfaulted _)

/-- A run on a fresh standard engine has an outcome that its calls yield. -/
theorem Setting.Derives.answers (derives : setting.Derives names given)
    (grammar : setting.Grammar names within runs) (covered : within parser) {position : Nat}
    {journal : List Event} {outcome : Outcome (Symbol α)}
    (ends : Ends setting (.call parser) ⟨position, .standard, journal⟩ (.answered outcome)
      final) : setting.Answers (.named names given) parser position outcome := by
  obtain ⟨yields, -⟩ := ends.yields grammar derives covered
    ⟨.empty, .empty, ⟨.empty, rfl⟩, Memoizer.holds_empty⟩ nofun
  obtain ⟨_, same, stops, -⟩ := yields.of_call
  cases same
  rwa [stops] at yields

end Derivation

end Packrat
