import Packrat.Proofs.Derivation
import Packrat.Proofs.Localization

/-!
# Where parsers are called

The calls that a control makes are known from what its parsers can answer alone.  If a property
of parsers and positions is passed on from every rule to the calls that its body makes, then it
holds wherever a standard engine calls a parser, in alternatives that are given up later as well
as in those that match.  What becomes of an answer is an invariant of the stack: every waiting
body goes on well with any outcome that its call can have.
-/

namespace Packrat

variable {ι α : Type} [Input ι]

/--
A control that starts at a position calls a parser at another position, itself or in the body of
an untagged parser that it calls.
-/
inductive Asks (setting : Setting ι α) (allowed : Answering ι α) :
    Control ι α → Nat → Parser ι α → Nat → Prop where
  | call {parser : Parser ι α} {position : Nat} :
      Asks setting allowed (.call parser) position parser position
  | executed {parser other : Parser ι α} {position place : Nat} : parser.tag = none →
      Asks setting allowed (.body parser) position other place →
      Asks setting allowed (.call parser) position other place
  | body {parser other : Parser ι α} {move : Move ι α} {position place : Nat} :
      (∀ policy journal, parser.start setting ⟨position, policy, journal⟩ = move) →
      Asks setting allowed (.move move) position other place →
      Asks setting allowed (.body parser) position other place
  | become {events : List Event} {parser other : Parser ι α} {position place : Nat} :
      Asks setting allowed (.body parser) position other place →
      Asks setting allowed (.move (.become events parser)) position other place
  | first {parser other : Parser ι α} {pending : Pending ι α} {position place : Nat} :
      Asks setting allowed (.call parser) position other place →
      Asks setting allowed (.move (.call parser pending)) position other place
  | later {parser other : Parser ι α} {pending : Pending ι α} {outcome : Outcome (Symbol α)}
      {position middle place : Nat} :
      Yields setting allowed (.call parser) position (.answered outcome) middle →
      Asks setting allowed (.move (pending.resume outcome)) middle other place →
      Asks setting allowed (.move (.call parser pending)) position other place

def Setting.Invites (setting : Setting ι α) (allowed : Answering ι α)
    (welcome : Parser ι α → Nat → Prop) (control : Control ι α) (position : Nat) : Prop :=
  ∀ other place, Asks setting allowed control position other place → welcome other place

namespace Setting.Invites

variable {setting : Setting ι α} {allowed : Answering ι α} {welcome : Parser ι α → Nat → Prop}
  {parser inner first second item separator : Parser ι α} {position : Nat} {tag : Option Tag}

theorem tagged (isTagged : parser.tag ≠ none) (welcomed : welcome parser position) :
    setting.Invites allowed welcome (.call parser) position := by
  intro other place asks
  cases asks with
  | call => exact welcomed
  | executed untagged _ => exact absurd untagged isTagged

theorem untagged (welcomed : welcome parser position)
    (body : setting.Invites allowed welcome (.body parser) position) :
    setting.Invites allowed welcome (.call parser) position := by
  intro other place asks
  cases asks with
  | call => exact welcomed
  | executed _ asks => exact body other place asks

theorem body_of_start (move : Move ι α)
    (starts : ∀ policy journal, parser.start setting ⟨position, policy, journal⟩ = move)
    (moves : setting.Invites allowed welcome (.move move) position) :
    setting.Invites allowed welcome (.body parser) position := by
  intro other place asks
  cases asks with
  | body startsToo asks =>
      rw [← (startsToo .identity []).symm.trans (starts .identity [])] at moves
      exact moves other place asks

theorem move_reply {result : Result α} :
    setting.Invites allowed welcome (.move (.reply result)) position := by
  intro other place asks
  cases asks

theorem move_finished (finished : Except Fault (Result α)) :
    setting.Invites allowed welcome (.move (.ofFinished finished)) position := by
  intro other place asks
  cases finished <;> cases asks

theorem move_call {pending : Pending ι α}
    (called : setting.Invites allowed welcome (.call parser) position)
    (resumed : ∀ outcome, setting.Answers allowed parser position outcome →
      setting.Invites allowed welcome (.move (pending.resume outcome))
        (outcome.landing position)) :
    setting.Invites allowed welcome (.move (.call parser pending)) position := by
  intro other place asks
  cases asks with
  | first asks => exact called other place asks
  | later yields asks =>
      obtain ⟨outcome, same, rfl, answers⟩ := Yields.call_iff.mp yields
      cases same
      exact resumed _ answers other place asks

theorem terminal {expectation : String} {probe : Probe ι α} :
    setting.Invites allowed welcome (.body (.terminal expectation probe)) position := by
  refine body_of_start (Parser.start setting ⟨position, .identity, []⟩
    (.terminal expectation probe)) (fun _ _ => rfl) fun other place asks => ?_
  dsimp only [Parser.start] at asks
  split at asks
  · cases asks
  · cases asks
  · split at asks <;> cases asks

theorem wrap {kind : Option Kind} {finish : Finish α}
    (called : setting.Invites allowed welcome (.call inner) position) :
    setting.Invites allowed welcome (.body (.wrap tag kind inner finish)) position :=
  body_of_start _ (fun _ _ => rfl) (move_call called fun _ _ => move_finished _)

theorem both {combine : Symbol α → Symbol α → Symbol α}
    (one : setting.Invites allowed welcome (.call first) position)
    (two : ∀ matched, setting.Answers allowed first position (.ok matched) →
      setting.Invites allowed welcome (.call second) matched.span.stop) :
    setting.Invites allowed welcome (.body (.both first second combine)) position := by
  refine body_of_start _ (fun _ _ => rfl) (move_call one fun outcome answers => ?_)
  cases outcome with
  | error mismatch => exact move_reply
  | ok matched =>
      refine move_call (two matched answers) fun outcome _ => ?_
      cases outcome <;> exact move_reply

theorem choice {alternatives : List (Parser ι α)}
    (each : ∀ one ∈ alternatives, setting.Invites allowed welcome (.call one) position) :
    setting.Invites allowed welcome (.body (.choice tag alternatives)) position := by
  have tried (rest : List (Parser ι α))
      (each : ∀ one ∈ rest, setting.Invites allowed welcome (.call one) position) :
      setting.Invites allowed welcome (.move (tryAlternatives tag alternatives rest)) position := by
    induction rest with
    | nil => exact move_reply
    | cons one rest ih =>
        refine move_call (each one List.mem_cons_self) fun outcome _ => ?_
        cases outcome with
        | ok matched => exact move_reply
        | error mismatch => exact ih fun other member => each other (List.mem_cons_of_mem _ member)
  exact body_of_start _ (fun _ _ => rfl) (tried alternatives each)

theorem handle {name : Tag} {slot : Nat} (resolved : setting.arena.resolve name slot = .ok parser)
    (body : setting.Invites allowed welcome (.body parser) position) :
    setting.Invites allowed welcome (.body (.handle name slot)) position := by
  have becomes (policy : Policy α) (journal : List Event) :
      (Parser.handle name slot).start setting ⟨position, policy, journal⟩ =
        .become [] parser := by
    simp only [Parser.start, resolved]
  refine body_of_start _ becomes fun other place asks => ?_
  cases asks with
  | become asks => exact body other place asks

/--
A loop calls one parser again and again.  It makes welcome calls if it starts at a position of a
set that no match of the parser leaves.
-/
theorem loop (next : List (Symbol α) → Move ι α) (visited : Nat → Prop)
    (turns : ∀ taken, (∃ result, next taken = .reply result) ∨
      ∃ pending, next taken = .call item pending ∧ ∀ outcome,
        (∃ result, pending.resume outcome = .reply result) ∨
        ∃ matched more, outcome = .ok matched ∧ pending.resume outcome = next more)
    (called : ∀ position, visited position →
      setting.Invites allowed welcome (.call item) position)
    (moves : ∀ position matched, visited position →
      setting.Answers allowed item position (.ok matched) → visited matched.span.stop)
    (taken : List (Symbol α)) (here : visited position) :
    setting.Invites allowed welcome (.move (next taken)) position := by
  -- Nothing bounds the number of turns, so the induction is on how the call is come to.
  intro other place asks
  generalize same : (Control.move (next taken) : Control ι α) = control at asks
  induction asks generalizing taken with
  | call => cases same
  | executed => cases same
  | body => cases same
  | become =>
      rcases turns taken with ⟨result, ends⟩ | ⟨pending, calls, -⟩
      · cases same.symm.trans (congrArg Control.move ends)
      · cases same.symm.trans (congrArg Control.move calls)
  | first asks _ =>
      rcases turns taken with ⟨result, ends⟩ | ⟨pending, calls, -⟩
      · cases same.symm.trans (congrArg Control.move ends)
      · cases same.symm.trans (congrArg Control.move calls)
        exact called _ here _ _ asks
  | @later _ _ _ outcome _ _ _ yields asks ih =>
      rcases turns taken with ⟨result, ends⟩ | ⟨pending, calls, resumes⟩
      · cases same.symm.trans (congrArg Control.move ends)
      · cases same.symm.trans (congrArg Control.move calls)
        obtain ⟨_, same, rfl, answers⟩ := Yields.call_iff.mp yields
        cases same
        rcases resumes outcome with ⟨result, ends⟩ | ⟨matched, more, rfl, goesOn⟩
        · rw [ends] at asks
          cases asks
        · exact ih more (moves _ matched here answers) (congrArg Control.move goesOn.symm)

theorem repetition {limit : CountLimit} (visited : Nat → Prop)
    (called : ∀ position, visited position →
      setting.Invites allowed welcome (.call item) position)
    (moves : ∀ position matched, visited position →
      setting.Answers allowed item position (.ok matched) → visited matched.span.stop)
    (here : visited position) :
    setting.Invites allowed welcome (.body (.repetition tag item limit)) position := by
  refine body_of_start (continueRepetition tag item limit []) (fun _ _ => rfl) ?_
  refine loop (continueRepetition tag item limit) visited (fun taken => ?_) called moves [] here
  unfold continueRepetition
  split
  · refine .inr ⟨_, rfl, fun outcome => ?_⟩
    cases outcome with
    | error mismatch => exact .inl ⟨_, rfl⟩
    | ok matched =>
        simp only [Pending.resume]
        split
        · exact .inl ⟨_, rfl⟩
        · exact .inr ⟨matched, _, rfl, rfl⟩
  · exact .inl ⟨_, rfl⟩

/-- A list calls its item and then a separator and an item at positions that it has come to. -/
theorem separated (visited : Nat → Prop)
    (called : setting.Invites allowed welcome (.call item) position)
    (moves : ∀ matched, setting.Answers allowed item position (.ok matched) →
      visited matched.span.stop)
    (calledNext : ∀ position, visited position →
      setting.Invites allowed welcome (.call (separator.ignoreThen item)) position)
    (movesNext : ∀ position matched, visited position →
      setting.Answers allowed (separator.ignoreThen item) position (.ok matched) →
        visited matched.span.stop) :
    setting.Invites allowed welcome (.body (.separated tag item separator)) position := by
  refine body_of_start _ (fun _ _ => rfl) (move_call called fun outcome answers => ?_)
  cases outcome with
  | error mismatch => exact move_reply
  | ok matched =>
      refine loop (continueList item separator) visited (fun taken => ?_) calledNext movesNext
        [matched.symbol] (moves matched answers)
      refine .inr ⟨_, rfl, fun outcome => ?_⟩
      cases outcome with
      | error mismatch => exact .inl ⟨_, rfl⟩
      | ok matched =>
          simp only [Pending.resume]
          split
          · exact .inl ⟨_, rfl⟩
          · exact .inr ⟨matched, _, rfl, rfl⟩

end Setting.Invites

/-! ## What the stack expects -/

section Stacks

variable {setting : Setting ι α} {names : Tag → Parser ι α} {within runs : Parser ι α → Prop}
  {given : Key → Outcome (Symbol α) → Prop} {welcome : Parser ι α → Nat → Prop}

/--
What has to hold if the innermost control ends at a position.  A waiting body makes welcome calls
only, and however it ends, the rest of the stack expects it.  A body that has replied has made an
answer of its call, and the rest of the stack expects all answers of the call.
-/
def Setting.Expects (setting : Setting ι α) (within : Parser ι α → Prop) (allowed : Answering ι α)
    (welcome : Parser ι α → Nat → Prop) : List (Frame ι α) → Halt α → Nat → Prop
  | .waiting pending :: stack, .answered outcome, position =>
      setting.Invites allowed welcome (.move (pending.resume outcome)) position ∧
        ∀ halt stop, Yields setting allowed (.move (pending.resume outcome)) position halt stop →
          setting.Expects within allowed welcome stack halt stop
  | .active call kind :: stack, .replied result, stop =>
      ∃ parser, within parser ∧ callAt setting.input call.position parser = call ∧
        parser.kind = kind ∧ setting.Replies allowed parser call.position result stop ∧
        ∀ outcome, setting.Answers allowed parser call.position outcome →
          setting.Expects within allowed welcome stack (.answered outcome)
            (outcome.landing call.position)
  | _, _, _ => True

def Setting.Proceeds (setting : Setting ι α) (within : Parser ι α → Prop)
    (allowed : Answering ι α) (welcome : Parser ι α → Nat → Prop) (stack : List (Frame ι α)) :
    Control ι α → Nat → Prop
  | .answer outcome, position =>
      setting.Expects within allowed welcome stack (.answered outcome) position
  | control, position =>
      setting.Invites allowed welcome control position ∧
        ∀ halt stop, Yields setting allowed control position halt stop →
          setting.Expects within allowed welcome stack halt stop

structure Config.Led (within runs : Parser ι α → Prop) (config : Config ι α) : Prop where
  control : config.control.Leads within runs
  stack : ∀ pending, .waiting pending ∈ config.stack → pending.Over within fun _ => True

theorem Config.Led.step (grammar : setting.Grammar names within runs) {config next : Config ι α}
    (led : config.Led within runs) (edge : config.step setting = .next next) :
    next.Led within runs := by
  obtain ⟨control, stack⟩ := led
  cases edge_of_step edge with
  | answered answer => exact ⟨trivial, stack⟩
  | started missing =>
      refine ⟨grammar.wider control, fun pending member => stack pending ?_⟩
      exact (List.mem_cons.mp member).resolve_left nofun
  | ended finishes sealed =>
      exact ⟨trivial, fun pending member => stack pending (List.mem_cons_of_mem _ member)⟩
  | begun => exact ⟨grammar.starts control _, stack⟩
  | called =>
      refine ⟨control.1, fun pending member => ?_⟩
      rcases List.mem_cons.mp member with same | member
      · cases same
        exact control.2
      · exact stack pending member
  | replaced => exact ⟨control, stack⟩
  | @resumed outcome pending rest _ =>
      have covered := stack pending List.mem_cons_self
      refine ⟨(Pending.resume_over grammar.following covered outcome).leads grammar.wider, ?_⟩
      exact fun other member => stack other (List.mem_cons_of_mem _ member)

/-- A configuration of a grammar all of whose calls, past ones and future ones, are welcome. -/
structure Config.Guided (setting : Setting ι α) (names : Tag → Parser ι α)
    (within runs : Parser ι α → Prop) (given : Key → Outcome (Symbol α) → Prop)
    (welcome : Parser ι α → Nat → Prop) (config : Config ι α) : Prop where
  led : config.Led within runs
  holding : config.state.policy.Holding names given
  calls : ∀ call ∈ config.calls, ∃ parser, welcome parser call.position
  proceeds : setting.Proceeds within (.named names given) welcome config.stack config.control
    config.state.cursor

/-- What is welcome is passed on from rules to the calls that their bodies make. -/
def Setting.PassesOn (setting : Setting ι α) (within : Parser ι α → Prop) (allowed : Answering ι α)
    (welcome : Parser ι α → Nat → Prop) : Prop :=
  ∀ parser position, within parser → parser.tag ≠ none → welcome parser position →
    setting.Invites allowed welcome (.body parser) position

/-- When a body ends, the policies return an outcome that the rest of the stack expects. -/
theorem Config.Guided.concludes (grammar : setting.Grammar names within runs)
    (derives : setting.Derives names given) {move : Move ι α} {call : Call} {kind : Kind}
    {stack : List (Frame ι α)} {state after : State α} {result : Result α}
    {made : Outcome (Sealed α)}
    (guided : Config.Guided setting names within runs given welcome
      ⟨.move move, .active call kind :: stack, state⟩)
    (finishes : Finishes state move result after)
    (sealed : sealResult call kind after.cursor result = .ok made) :
    ∃ outcome : Outcome (Symbol α),
      (after.policy.leave call made).outcome = outcome.sealedAs kind ∧
      (after.policy.leave call made).policy.Holding names given ∧
      setting.Expects within (.named names given) welcome stack (.answered outcome)
        (outcome.landing call.position) := by
  have yields : Yields setting (.named names given) (.move move) state.cursor
      (.replied result) after.cursor := by
    cases finishes with
    | reply result => exact .reply result
    | read symbol stop => exact .read symbol stop
  obtain ⟨parser, isWithin, same, rfl, replies, expects⟩ := guided.proceeds.2 _ _ yields
  have holding := guided.holding
  rw [← finishes.keeps.1] at holding
  rw [← same] at sealed
  obtain ⟨outcome, returns, answers, holdingToo⟩ :=
    executed_given derives (fun _ => grammar.named isWithin) replies holding sealed
  rw [same] at returns holdingToo
  exact ⟨outcome, returns, holdingToo, expects outcome answers⟩

theorem Config.Guided.step (grammar : setting.Grammar names within runs)
    (derives : setting.Derives names given)
    (passesOn : setting.PassesOn within (.named names given) welcome) {config next : Config ι α}
    (guided : config.Guided setting names within runs given welcome)
    (edge : config.step setting = .next next) :
    next.Guided setting names within runs given welcome := by
  obtain ⟨led, holding, calls, proceeds⟩ := guided
  have ledNext := led.step grammar edge
  cases edge_of_step edge with
  | @answered parser stack state _ answer =>
      obtain ⟨outcome, rfl, tagged, allowed⟩ :=
        answered_given derives (fun _ => grammar.named led.control) holding answer
      refine ⟨ledNext, ?_, calls, ?_⟩
      · rw [settle_policy]
        exact holding.enter _
      · -- What the policies answer is one of the answers that the stack has expected of the call.
        rw [settle_sealedAs]
        exact proceeds.2 _ _ (.answered tagged allowed)
  | @started parser stack state missing =>
      have welcomed : welcome parser state.cursor := proceeds.1 _ _ .call
      refine ⟨ledNext, holding.enter _, List.forall_mem_cons.mpr ⟨⟨parser, welcomed⟩, calls⟩, ?_,
        fun halt stop yields => ?_⟩
      · by_cases untagged : parser.tag = none
        · exact fun other place asks => proceeds.1 other place (.executed untagged asks)
        · exact passesOn parser _ led.control untagged welcomed
      · cases halt with
        | replied result =>
            exact ⟨parser, led.control, rfl, rfl, yields, fun outcome => proceeds.2 _ _⟩
        | _ => trivial
  | ended finishes sealed =>
      obtain ⟨outcome, returns, holdingToo, expects⟩ :=
        Guided.concludes grammar derives ⟨led, holding, calls, proceeds⟩ finishes sealed
      refine ⟨ledNext, ?_, fun other member => calls other (List.mem_cons_of_mem _ member), ?_⟩
      · rw [conclude_policy]
        exact holdingToo
      · rw [conclude, returns, settle_sealedAs]
        exact expects
  | @begun parser _ state =>
      have uniform (policy : Policy α) (journal : List Event) :
          parser.start setting ⟨state.cursor, policy, journal⟩ = parser.start setting state :=
        grammar.uniform led.control rfl
      refine ⟨ledNext, holding, calls, fun other place asks => ?_, fun halt stop yields => ?_⟩
      · exact proceeds.1 other place (.body uniform asks)
      · exact proceeds.2 halt stop (.body uniform yields)
  | called =>
      refine ⟨ledNext, holding, calls, fun other place asks => proceeds.1 other place (.first asks),
        fun halt stop yields => ?_⟩
      obtain ⟨outcome, rfl, rfl, answers⟩ := Yields.call_iff.mp yields
      exact ⟨fun other place asks => proceeds.1 other place (.later answers asks),
        fun halt stop yields => proceeds.2 halt stop (.resumed answers yields)⟩
  | replaced =>
      exact ⟨ledNext, holding, calls, fun other place asks => proceeds.1 other place (.become asks),
        fun halt stop yields => proceeds.2 halt stop (.become yields)⟩
  | resumed => exact ⟨ledNext, holding, calls, proceeds⟩

theorem Config.guided_call {parser : Parser ι α} {state : State α} (covered : within parser)
    (holding : state.policy.Holding names given)
    (invites : setting.Invites (.named names given) welcome (.call parser) state.cursor) :
    Config.Guided setting names within runs given welcome ⟨.call parser, [], state⟩ where
  led := ⟨covered, fun _ none => absurd none List.not_mem_nil⟩
  holding := holding
  calls _ none := absurd none List.not_mem_nil
  proceeds := ⟨invites, fun _ _ _ => trivial⟩

theorem Outcome.error_of_failsAs {kind : Kind} {outcome : Outcome (Symbol α)}
    (fails : (outcome.sealedAs kind).FailsAs kind) :
    ∃ mismatch, outcome.sealedAs kind = .error mismatch := by
  cases outcome with
  | error mismatch => exact ⟨mismatch, rfl⟩
  | ok matched => exact absurd rfl fails

/-- What happens in a step happens to a welcome call, and calls fail by mismatches only. -/
theorem Config.Guided.deed (grammar : setting.Grammar names within runs)
    (derives : setting.Derives names given) {config next : Config ι α}
    (guided : config.Guided setting names within runs given welcome)
    (edge : config.step setting = .next next) {deed : Deed α}
    (happens : config.deed? setting = some deed) :
    (∃ parser, welcome parser deed.call.position) ∧
      (deed.Fails → ∃ mismatch, deed.outcome? = some (.error mismatch)) := by
  cases edge_of_step edge with
  | @answered parser _ state _ answer =>
      cases (deed?_of_answer answer).symm.trans happens
      obtain ⟨outcome, rfl, -⟩ :=
        answered_given derives (fun _ => grammar.named guided.led.control) guided.holding answer
      refine ⟨⟨parser, guided.proceeds.1 _ _ .call⟩, fun fails => ?_⟩
      exact (Outcome.error_of_failsAs fails).imp fun _ same => congrArg some same
  | @started parser _ state missing =>
      cases (deed?_of_no_answer missing).symm.trans happens
      exact ⟨⟨parser, guided.proceeds.1 _ _ .call⟩, False.elim⟩
  | ended finishes sealed =>
      cases (deed?_of_finishes finishes sealed).symm.trans happens
      obtain ⟨outcome, returns, -⟩ := guided.concludes grammar derives finishes sealed
      refine ⟨guided.calls _ List.mem_cons_self, fun fails => ?_⟩
      simp only [Deed.Fails, Deed.outcome?, returns] at fails ⊢
      exact (Outcome.error_of_failsAs fails).imp fun _ same => congrArg some same
  | begun => cases happens
  | called => cases happens
  | replaced => cases happens
  | resumed => cases happens

theorem Config.Guided.history (grammar : setting.Grammar names within runs)
    (derives : setting.Derives names given)
    (passesOn : setting.PassesOn within (.named names given) welcome) {config : Config ι α}
    (guided : config.Guided setting names within runs given welcome) (steps : Nat) :
    ∀ deed ∈ config.history setting steps, (∃ parser, welcome parser deed.call.position) ∧
      (deed.Fails → ∃ mismatch, deed.outcome? = some (.error mismatch)) := by
  induction steps generalizing config with
  | zero => exact fun deed none => absurd none List.not_mem_nil
  | succ steps ih =>
      intro deed member
      rw [Config.history] at member
      cases progress : config.step setting with
      | next next =>
          rw [progress] at member
          rcases List.mem_append.mp member with later | now
          · exact ih (guided.step grammar derives passesOn progress) deed later
          · exact guided.deed grammar derives progress (Option.mem_toList.mp now)
      | halt halt state =>
          rw [progress] at member
          exact absurd member List.not_mem_nil

/-- Whatever happens in a parse happens to welcome calls. -/
theorem Setting.parseHistory_guided (grammar : setting.Grammar names within runs)
    (derives : setting.Derives names given)
    (passesOn : setting.PassesOn within (.named names given) welcome) {parser : Parser ι α}
    (covered : within parser) (coversEnd : within .endOfInput)
    (invites : setting.Invites (.named names given) welcome (.call parser) 0)
    (ends : ∀ matched, setting.Answers (.named names given) parser 0 (.ok matched) →
      welcome .endOfInput matched.span.stop) (steps : Nat) :
    ∀ deed ∈ setting.parseHistory steps parser, (∃ one, welcome one deed.call.position) ∧
      (deed.Fails → ∃ mismatch, deed.outcome? = some (.error mismatch)) := by
  have fresh : (Policy.standard : Policy α).Holding names given :=
    ⟨.empty, .empty, ⟨.empty, rfl⟩, Memoizer.holds_empty⟩
  have start : Config.Guided setting names within runs given welcome
      ⟨.call parser, [], .initial .standard⟩ := Config.guided_call covered fresh invites
  have first := start.history grammar derives passesOn steps
  unfold parseHistory
  split
  · next matched middle done =>
      obtain ⟨yields, holding⟩ := (Setting.runMatch_eq_done_iff.mp ⟨steps, done⟩).yields grammar
        derives covered fresh nofun
      obtain ⟨outcome, same, stops, answers⟩ := Yields.call_iff.mp yields
      cases same
      have welcomed : welcome .endOfInput middle.cursor := by
        rw [stops]
        exact ends matched answers
      have second := (Config.guided_call coversEnd holding (.untagged welcomed .terminal)).history
        grammar derives passesOn steps
      exact List.forall_mem_append.mpr ⟨second, first⟩
  · exact first

end Stacks

end Packrat
