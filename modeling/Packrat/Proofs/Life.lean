import Packrat.Proofs.NaturalSemantics

/-!
# The life of an engine

An engine lives through a sequence of runs.  Between two runs its cursor may be moved and its
grammar may change.  A moment of this life is a configuration of the machine together with the
arena that is in use, and the history of a moment lists the deeds that led to it: calls that
the policies answered, bodies that started and bodies that ended.

`Config.Edge` lists what a step of the machine can do.  `Turn` says what this does to the
policies and to the active calls, with one case for every kind of deed.  What every turn keeps
holds at every moment of a life (`Lives.keeps`).
-/

namespace Packrat

variable {ι α : Type}

/-- Something that happens to a call. -/
inductive Deed (α : Type) where
  /-- The policies answer the call, and no body runs. -/
  | answered (call : Call) (kind : Kind) (outcome : Outcome (Sealed α))
  | started (call : Call)
  /-- The body of the call has made an outcome, and the policies return another or the same. -/
  | ended (call : Call) (kind : Kind) (made outcome : Outcome (Sealed α))

namespace Deed

def call : Deed α → Call
  | answered call _ _ => call
  | started call => call
  | ended call _ _ _ => call

def outcome? : Deed α → Option (Outcome (Sealed α))
  | answered _ _ outcome => some outcome
  | started _ => none
  | ended _ _ _ outcome => some outcome

end Deed

/-- The calls whose bodies run after a history, innermost first; the latest deed comes first. -/
def openCalls : List (Deed α) → List Call
  | [] => []
  | .answered _ _ _ :: earlier => openCalls earlier
  | .started call :: earlier => call :: openCalls earlier
  | .ended _ _ _ _ :: earlier => (openCalls earlier).tail

/-- Every body that ends is the innermost of those that run. -/
def Bracketed : List (Deed α) → Prop
  | [] => True
  | .ended call _ _ _ :: earlier => (openCalls earlier).head? = some call ∧ Bracketed earlier
  | _ :: earlier => Bracketed earlier

def activeCalls : List (Frame ι α) → List Call
  | [] => []
  | .active call _ :: rest => call :: activeCalls rest
  | .waiting _ :: rest => activeCalls rest

namespace Config

variable [Input ι]

def calls (config : Config ι α) : List Call := activeCalls config.stack

def endDeed? (result : Result α) (stack : List (Frame ι α)) (state : State α) :
    Option (Deed α) :=
  match stack with
  | .active call kind :: _ =>
      match sealResult call kind state.cursor result with
      | .ok made => some (.ended call kind made (state.policy.leave call made).outcome)
      | .error _ => none
  | _ => none

def deed? (setting : Setting ι α) : Config ι α → Option (Deed α)
  | ⟨.call parser, _, state⟩ =>
      let call := callAt setting.input state.cursor parser
      match (state.policy.enter call).answer with
      | some outcome => some (.answered call parser.kind outcome)
      | none => some (.started call)
  | ⟨.move (.reply result), stack, state⟩ => endDeed? result stack state
  | ⟨.move (.read symbol stop), stack, state⟩ =>
      endDeed? (.ok symbol) stack (state.moveTo stop)
  | _ => none

end Config

/-! ## The steps of the machine -/

inductive Finishes (state : State α) : Move ι α → Result α → State α → Prop where
  | reply (result : Result α) : Finishes state (.reply result) result state
  | read (symbol : Symbol α) (stop : Nat) :
      Finishes state (.read symbol stop) (.ok symbol) (state.moveTo stop)

theorem Finishes.keeps {state after : State α} {move : Move ι α} {result : Result α}
    (finishes : Finishes state move result after) :
    after.policy = state.policy ∧ after.journal = state.journal := by
  cases finishes <;> exact ⟨rfl, rfl⟩

/-- All that a step of the machine can do. -/
inductive Config.Edge [Input ι] (setting : Setting ι α) : Config ι α → Config ι α → Prop where
  | answered {parser : Parser ι α} {stack : List (Frame ι α)} {state : State α}
      {outcome : Outcome (Sealed α)} :
      (setting.entry parser state).answer = some outcome →
      Edge setting ⟨.call parser, stack, state⟩
        ⟨.answer (settle (callAt setting.input state.cursor parser) parser.kind outcome
            (setting.entered parser state)).1, stack,
          (settle (callAt setting.input state.cursor parser) parser.kind outcome
            (setting.entered parser state)).2⟩
  | started {parser : Parser ι α} {stack : List (Frame ι α)} {state : State α} :
      (setting.entry parser state).answer = none →
      Edge setting ⟨.call parser, stack, state⟩
        ⟨.body parser,
          .active (callAt setting.input state.cursor parser) parser.kind :: stack,
          setting.entered parser state⟩
  | ended {move : Move ι α} {call : Call} {kind : Kind} {stack : List (Frame ι α)}
      {state after : State α} {result : Result α} {made : Outcome (Sealed α)} :
      Finishes state move result after →
      sealResult call kind after.cursor result = .ok made →
      Edge setting ⟨.move move, .active call kind :: stack, state⟩
        ⟨.answer (conclude call kind made after).1, stack, (conclude call kind made after).2⟩
  | begun {parser : Parser ι α} {stack : List (Frame ι α)} {state : State α} :
      Edge setting ⟨.body parser, stack, state⟩ ⟨.move (parser.start setting state), stack, state⟩
  | called {parser : Parser ι α} {pending : Pending ι α} {stack : List (Frame ι α)}
      {state : State α} :
      Edge setting ⟨.move (.call parser pending), stack, state⟩
        ⟨.call parser, .waiting pending :: stack, state⟩
  | replaced {events : List Event} {parser : Parser ι α} {stack : List (Frame ι α)}
      {state : State α} :
      Edge setting ⟨.move (.become events parser), stack, state⟩
        ⟨.body parser, stack, state.record events⟩
  | resumed {outcome : Outcome (Symbol α)} {pending : Pending ι α} {stack : List (Frame ι α)}
      {state : State α} :
      Edge setting ⟨.answer outcome, .waiting pending :: stack, state⟩
        ⟨.move (pending.resume outcome), stack, state⟩

section Edges

variable [Input ι] {setting : Setting ι α}

theorem Config.edge_of_endBody {move : Move ι α} {result : Result α} {stack : List (Frame ι α)}
    {state after : State α} {next : Config ι α} (finishes : Finishes state move result after)
    (same : endBody result stack after = .next next) :
    Edge setting ⟨.move move, stack, state⟩ next := by
  match stack with
  | [] => cases same
  | .waiting _ :: _ => cases same
  | .active call kind :: rest =>
      cases sealed : sealResult call kind after.cursor result with
      | error fault =>
          simp only [endBody, sealed] at same
          cases same
      | ok made =>
          simp only [endBody, sealed, endCall_eq] at same
          cases same
          exact .ended finishes sealed

theorem Config.edge_of_step {config next : Config ι α} (same : config.step setting = .next next) :
    Edge setting config next := by
  obtain ⟨control, stack, state⟩ := config
  cases control with
  | call parser =>
      cases same
      cases answer : (setting.entry parser state).answer with
      | some outcome =>
          rw [beginCall_of_answer setting parser stack state answer]
          exact .answered answer
      | none =>
          rw [beginCall_of_no_answer setting parser stack state answer]
          exact .started answer
  | body parser =>
      cases same
      exact .begun
  | move move =>
      cases move with
      | reply result => exact edge_of_endBody (.reply result) same
      | read symbol stop => exact edge_of_endBody (.read symbol stop) same
      | call parser pending =>
          cases same
          exact .called
      | become events parser =>
          cases same
          exact .replaced
      | abort fault => cases same
  | answer outcome =>
      match stack with
      | [] => cases same
      | .active _ _ :: _ => cases same
      | .waiting pending :: rest =>
          cases same
          exact .resumed

theorem Config.deed?_of_answer {parser : Parser ι α} {stack : List (Frame ι α)} {state : State α}
    {outcome : Outcome (Sealed α)}
    (answer : (setting.entry parser state).answer = some outcome) :
    deed? setting ⟨.call parser, stack, state⟩ =
      some (.answered (callAt setting.input state.cursor parser) parser.kind outcome) := by
  simp only [Setting.entry] at answer
  simp only [deed?, answer]

theorem Config.deed?_of_no_answer {parser : Parser ι α} {stack : List (Frame ι α)}
    {state : State α} (missing : (setting.entry parser state).answer = none) :
    deed? setting ⟨.call parser, stack, state⟩ =
      some (.started (callAt setting.input state.cursor parser)) := by
  simp only [Setting.entry] at missing
  simp only [deed?, missing]

theorem Config.deed?_of_finishes {move : Move ι α} {call : Call} {kind : Kind}
    {stack : List (Frame ι α)} {state after : State α} {result : Result α}
    {made : Outcome (Sealed α)} (finishes : Finishes state move result after)
    (sealed : sealResult call kind after.cursor result = .ok made) :
    deed? setting ⟨.move move, .active call kind :: stack, state⟩ =
      some (.ended call kind made (after.policy.leave call made).outcome) := by
  cases finishes <;> simp only [deed?, endDeed?, sealed]

end Edges

def Outcome.StartsAt {σ : Type} (position : Nat) (outcome : Outcome σ) : Prop :=
  ∀ matched, outcome = .ok matched → matched.span.start = position

/-- What a step does to the policies and the active calls, with the deed if there is one. -/
inductive Turn [Input ι] (input : ι) :
    Policy α → List Call → Option (Deed α) → Policy α → List Call → Prop where
  | quiet {policy : Policy α} {calls : List Call} : Turn input policy calls none policy calls
  | answered {policy : Policy α} {calls : List Call} {call : Call} {kind : Kind}
      {outcome : Outcome (Sealed α)} :
      call.remaining = Input.remaining input call.position →
      (policy.enter call).answer = some outcome →
      Turn input policy calls (some (.answered call kind outcome)) (policy.enter call).policy
        calls
  | started {policy : Policy α} {calls : List Call} {call : Call} :
      call.remaining = Input.remaining input call.position →
      (policy.enter call).answer = none →
      Turn input policy calls (some (.started call)) (policy.enter call).policy (call :: calls)
  | ended {policy : Policy α} {calls : List Call} {call : Call} {kind : Kind}
      {made : Outcome (Sealed α)} :
      made.StartsAt call.position →
      Turn input policy (call :: calls)
        (some (.ended call kind made (policy.leave call made).outcome))
        (policy.leave call made).policy calls

section Turns

variable [Input ι] {setting : Setting ι α}

theorem span_of_sealResult {call : Call} {kind : Kind} {cursor : Nat} {result : Result α}
    {matched : Match (Sealed α)} (sealed : sealResult call kind cursor result = .ok (.ok matched)) :
    matched.span = ⟨call.position, cursor⟩ := by
  cases result with
  | error mismatch => cases sealed
  | ok symbol =>
      simp only [sealResult, Span.between] at sealed
      split at sealed
      · next span same =>
          split at same
          · cases same
            cases sealed
            rfl
          · cases same
      · cases sealed

theorem sealResult_startsAt {call : Call} {kind : Kind} {cursor : Nat} {result : Result α}
    {made : Outcome (Sealed α)} (sealed : sealResult call kind cursor result = .ok made) :
    made.StartsAt call.position := by
  rintro matched rfl
  rw [span_of_sealResult sealed]

/-- Every step makes a turn. -/
theorem Config.turn {config next : Config ι α} (edge : config.step setting = .next next) :
    Turn setting.input config.state.policy config.calls (config.deed? setting)
      next.state.policy next.calls := by
  cases edge_of_step edge with
  | answered answer =>
      rw [deed?_of_answer answer, settle_policy]
      exact .answered rfl answer
  | started missing =>
      rw [deed?_of_no_answer missing]
      exact .started rfl missing
  | ended finishes sealed =>
      rw [deed?_of_finishes finishes sealed, conclude_policy, finishes.keeps.1]
      exact .ended (sealResult_startsAt sealed)
  | begun => exact .quiet
  | called => exact .quiet
  | replaced => exact .quiet
  | resumed => exact .quiet

end Turns

/-! ## Lives -/

/-- What an engine is doing, and the arena in which its grammar finds the parsers of handles. -/
structure Moment (ι α : Type) where
  arena : Arena ι α
  config : Config ι α

namespace Moment

def birth (policy : Policy α) (arena : Arena ι α) (parser : Parser ι α) : Moment ι α :=
  ⟨arena, ⟨.call parser, [], .initial policy⟩⟩

def policy (moment : Moment ι α) : Policy α := moment.config.state.policy

end Moment

section Lives

variable [Input ι]

/--
The moments of an engine from a first one on, each with the history since then.  Steps follow
one another until a run has its answer; then another run may start, after the cursor was moved
and with other definitions.
-/
inductive Lives (input : ι) (first : Moment ι α) : List (Deed α) → Moment ι α → Prop where
  | here : Lives input first [] first
  | step {history : List (Deed α)} {moment : Moment ι α} {next : Config ι α} :
      Lives input first history moment →
      moment.config.step ⟨input, moment.arena⟩ = .next next →
      Lives input first ((moment.config.deed? ⟨input, moment.arena⟩).toList ++ history)
        ⟨moment.arena, next⟩
  | again {history : List (Deed α)} {arena : Arena ι α} {outcome : Outcome (Symbol α)}
      {state : State α} (arenaToo : Arena ι α) (parser : Parser ι α) (position : Nat) :
      Lives input first history ⟨arena, ⟨.answer outcome, [], state⟩⟩ →
      Lives input first history ⟨arenaToo, ⟨.call parser, [], state.moveTo position⟩⟩

variable {input : ι} {first middle last : Moment ι α} {history later : List (Deed α)}

theorem Lives.trans (lives : Lives input first history middle)
    (on : Lives input middle later last) : Lives input first (later ++ history) last := by
  induction on with
  | here => exact lives
  | step _ edge ih =>
      rw [List.append_assoc]
      exact ih.step edge
  | again arena parser position _ ih => exact ih.again arena parser position

/-- What holds of the first moment and is kept by every turn holds of every moment. -/
theorem Lives.keeps (lives : Lives input first history last)
    (holds : List (Deed α) → Policy α → List Call → Prop)
    (start : holds [] first.policy first.config.calls)
    (turn : ∀ {history policy policyToo calls callsToo deed?}, holds history policy calls →
      Turn input policy calls deed? policyToo callsToo →
      holds (deed?.toList ++ history) policyToo callsToo) :
    holds history last.policy last.config.calls := by
  induction lives with
  | here => exact start
  | step _ edge ih => exact turn ih (Config.turn edge)
  | again _ _ _ _ ih => exact ih

/-- The history tells which calls are active, and it is always the innermost that ends. -/
theorem Lives.open_calls (lives : Lives input first history last)
    (idle : first.config.calls = []) :
    openCalls history = last.config.calls ∧ Bracketed history := by
  refine lives.keeps (fun history _ calls => openCalls history = calls ∧ Bracketed history)
    ⟨idle.symm, trivial⟩ ?_
  intro history policy policyToo calls callsToo deed? ⟨same, bracketed⟩ turn
  cases turn with
  | quiet => exact ⟨same, bracketed⟩
  | answered _ _ => exact ⟨same, bracketed⟩
  | started _ _ => exact ⟨congrArg (List.cons _) same, bracketed⟩
  | ended _ =>
      exact ⟨congrArg List.tail same, (congrArg List.head? same).trans rfl, bracketed⟩

end Lives

def Stacked : (forCall : Bool) → List (Frame ι α) → Prop
  | true, [] => True
  | true, .waiting _ :: rest => Stacked false rest
  | false, .active _ _ :: rest => Stacked true rest
  | _, _ => False

def Control.ofCall : Control ι α → Bool
  | .call _ => true
  | .answer _ => true
  | _ => false

namespace Config

/-- The stack waits for what the control is about. -/
def Stands (config : Config ι α) : Prop := Stacked config.control.ofCall config.stack

variable [Input ι]

theorem Stands.step {setting : Setting ι α} {config next : Config ι α} (stands : config.Stands)
    (edge : config.step setting = .next next) : next.Stands := by
  cases edge_of_step edge <;> exact stands

/-- A run has its answer on an empty stack. -/
theorem Stands.answered {setting : Setting ι α} {config : Config ι α} (stands : config.Stands)
    {outcome : Outcome (Symbol α)} {final : State α}
    (halted : config.step setting = .halt (.answered outcome) final) :
    config = ⟨.answer outcome, [], final⟩ := by
  obtain ⟨control, stack, state⟩ := config
  have replies {result : Result α} {state : State α}
      (ended : endBody result stack state = .halt (.answered outcome) final) : False := by
    cases stack with
    | nil => cases ended
    | cons frame rest =>
        cases frame with
        | waiting pending => cases ended
        | active call kind =>
            simp only [endBody] at ended
            split at ended <;> cases ended
  cases control with
  | call parser => cases halted
  | body parser => cases halted
  | move move =>
      cases move with
      | reply result => exact (replies halted).elim
      | read symbol stop => exact (replies halted).elim
      | call parser pending => cases halted
      | become events parser => cases halted
      | abort fault => cases halted
  | answer other =>
      cases stack with
      | nil =>
          cases halted
          rfl
      | cons frame rest =>
          cases frame with
          | active call kind => exact stands.elim
          | waiting pending => cases halted

def history (setting : Setting ι α) : Nat → Config ι α → List (Deed α)
  | 0, _ => []
  | steps + 1, config =>
      match config.step setting with
      | .next next => history setting steps next ++ (config.deed? setting).toList
      | .halt _ _ => []

end Config

section Runs

variable [Input ι] {setting : Setting ι α} {first : Moment ι α} {earlier : List (Deed α)}

/-- A run of the machine that halts is a part of a life. -/
theorem Lives.run {config : Config ι α}
    (lives : Lives setting.input first earlier ⟨setting.arena, config⟩) (stands : config.Stands)
    {steps : Nat} {halt : Halt α} {final : State α}
    (ended : Config.run setting steps config = some (halt, final)) :
    ∃ last : Config ι α, last.Stands ∧ last.step setting = .halt halt final ∧
      Lives setting.input first (Config.history setting steps config ++ earlier)
        ⟨setting.arena, last⟩ := by
  induction steps generalizing config earlier with
  | zero => cases ended
  | succ steps ih =>
      rw [Config.run_succ] at ended
      cases progress : config.step setting with
      | next next =>
          rw [progress] at ended
          obtain ⟨last, stands, halted, lives⟩ :=
            ih (lives.step progress) (stands.step progress) ended
          refine ⟨last, stands, halted, ?_⟩
          rw [Config.history, progress, List.append_assoc]
          exact lives
      | halt other state =>
          rw [progress] at ended
          cases ended
          refine ⟨config, stands, progress, ?_⟩
          rw [Config.history, progress]
          exact lives

theorem Lives.run_done {parser : Parser ι α} {state final : State α} {steps : Nat}
    {outcome : Outcome (Symbol α)}
    (lives : Lives setting.input first earlier ⟨setting.arena, ⟨.call parser, [], state⟩⟩)
    (done : setting.runMatch steps parser state = .done outcome final) :
    Lives setting.input first (Config.history setting steps ⟨.call parser, [], state⟩ ++ earlier)
      ⟨setting.arena, ⟨.answer outcome, [], final⟩⟩ := by
  have ended : Config.run setting steps ⟨.call parser, [], state⟩ =
      some (.answered outcome, final) := by
    rw [Setting.runMatch] at done
    split at done <;> cases done
    assumption
  obtain ⟨last, stands, halted, lives⟩ := lives.run trivial ended
  rw [stands.answered halted] at lives
  exact lives

end Runs

section Failing

variable [Input ι] {first : Moment ι α} {earlier : List (Deed α)}

theorem Lives.fails (setting : Setting ι α) {tag : Tag} {state : State α} {call : Call}
    (lives : Lives setting.input first earlier
      ⟨setting.arena, ⟨.call (.oneOfTagged tag []), [], state⟩⟩)
    (unanswered : (state.policy.enter call).answer = none)
    (same : callAt setting.input state.cursor (.oneOfTagged tag [] : Parser ι α) = call) :
    ∃ outcome final, final.policy =
        ((state.policy.enter call).policy.leave call (.error (.bare tag))).policy ∧
      Lives setting.input first
        (.ended call .general (.error (.bare tag))
            ((state.policy.enter call).policy.leave call (.error (.bare tag))).outcome ::
          .started call :: earlier)
        ⟨setting.arena, ⟨.answer outcome, [], final⟩⟩ := by
  subst same
  have begins := Config.beginCall_of_no_answer setting (.oneOfTagged tag []) [] state unanswered
  have started := lives.step (congrArg Progress.next begins)
  rw [Config.deed?_of_no_answer unanswered] at started
  let call := callAt setting.input state.cursor (.oneOfTagged tag [] : Parser ι α)
  let entered := setting.entered (.oneOfTagged tag []) state
  have ends : Config.endCall call .general (.error (.bare (some tag))) [] entered =
      (⟨.answer (conclude call .general (.error (.bare (some tag))) entered).1, [],
        (conclude call .general (.error (.bare (some tag))) entered).2⟩ : Config ι α) :=
    Config.endCall_eq _ _ _ _ _
  exact ⟨_, _, conclude_policy _ _ _ _, (started.step rfl).step (congrArg Progress.next ends)⟩

def hopelessItem : Parser (Array Char) Unit := .oneOfTagged ⟨"item"⟩ []

def hopelessCall : Call := ⟨0, some ⟨"item"⟩, 1⟩

end Failing

end Packrat
