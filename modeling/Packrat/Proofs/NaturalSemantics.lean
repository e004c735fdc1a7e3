import Mathlib.Logic.Relation
import Packrat.Engine

/-!
# Natural semantics of the machine

The machine runs parsers on an explicit stack.  `Ends` describes the same runs without
one: it relates a control and the state in which it starts to the way it ends and the
state that it leaves behind.  On any stack the machine comes to the point where the
ending is delivered to that stack, and on an empty stack it halts exactly as `Ends` says.
-/

namespace Packrat

variable {ι α : Type}

/-- Where the cursor stands after a call from a position has ended with an outcome. -/
def Outcome.landing {σ : Type} (position : Nat) : Outcome σ → Nat
  | .ok matched => matched.span.stop
  | .error _ => position

@[simp]
theorem settle_cursor (call : Call) (kind : Kind) (outcome : Outcome (Sealed α))
    (state : State α) :
    (settle call kind outcome state).2.cursor =
      (settle call kind outcome state).1.landing call.position := by
  unfold settle
  split
  · rfl
  · split <;> rfl

@[simp]
theorem settle_policy (call : Call) (kind : Kind) (outcome : Outcome (Sealed α))
    (state : State α) : (settle call kind outcome state).2.policy = state.policy := by
  unfold settle
  split
  · rfl
  · split <;> rfl

/-- A body that went back is the only one whose outcome is not sealed. -/
theorem fault_of_sealResult {call : Call} {kind : Kind} {cursor : Nat} {result : Result α}
    {fault : Fault} (broken : sealResult call kind cursor result = .error fault) :
    fault = .reversedSpan := by
  cases result with
  | error mismatch => cases broken
  | ok symbol =>
      simp only [sealResult, Span.between] at broken
      split at broken
      · cases broken
      · next backward =>
          split at backward
          · cases backward
          · cases backward
            cases broken
            rfl

def conclude (call : Call) (kind : Kind) (outcome : Outcome (Sealed α)) (state : State α) :
    Outcome (Symbol α) × State α :=
  let exit := state.policy.leave call outcome
  settle call kind exit.outcome
    (State.record ⟨state.cursor, exit.policy, state.journal⟩ exit.events)

@[simp]
theorem conclude_policy (call : Call) (kind : Kind) (outcome : Outcome (Sealed α))
    (state : State α) :
    (conclude call kind outcome state).2.policy = (state.policy.leave call outcome).policy :=
  settle_policy _ _ _ _

theorem Config.endCall_eq (call : Call) (kind : Kind) (outcome : Outcome (Sealed α))
    (stack : List (Frame ι α)) (state : State α) :
    endCall call kind outcome stack state =
      ⟨.answer (conclude call kind outcome state).1, stack,
        (conclude call kind outcome state).2⟩ := by
  cases state
  rfl

variable [Input ι]

namespace Setting

def entry (setting : Setting ι α) (parser : Parser ι α) (state : State α) : Entry α :=
  state.policy.enter (callAt setting.input state.cursor parser)

def entered (setting : Setting ι α) (parser : Parser ι α) (state : State α) : State α :=
  State.record ⟨state.cursor, (setting.entry parser state).policy, state.journal⟩
    (setting.entry parser state).events

end Setting

namespace Config

theorem beginCall_of_answer (setting : Setting ι α) (parser : Parser ι α)
    (stack : List (Frame ι α)) (state : State α) {outcome : Outcome (Sealed α)}
    (answer : (setting.entry parser state).answer = some outcome) :
    beginCall setting parser stack state =
      ⟨.answer (settle (callAt setting.input state.cursor parser) parser.kind outcome
          (setting.entered parser state)).1, stack,
        (settle (callAt setting.input state.cursor parser) parser.kind outcome
          (setting.entered parser state)).2⟩ := by
  cases state
  simp only [Setting.entry] at answer
  simp only [beginCall, answer, Setting.entered, Setting.entry]

theorem beginCall_of_no_answer (setting : Setting ι α) (parser : Parser ι α)
    (stack : List (Frame ι α)) (state : State α)
    (answer : (setting.entry parser state).answer = none) :
    beginCall setting parser stack state =
      ⟨.body parser,
        .active (callAt setting.input state.cursor parser) parser.kind :: stack,
        setting.entered parser state⟩ := by
  cases state
  simp only [Setting.entry] at answer
  simp only [beginCall, answer, Setting.entered, Setting.entry]

end Config

/-- A control that is started in a state on a stack of its own ends and leaves a state. -/
inductive Ends (setting : Setting ι α) :
    Control ι α → State α → Halt α → State α → Prop where
  | reply (result : Result α) (state : State α) :
      Ends setting (.move (.reply result)) state (.replied result) state
  | read (symbol : Symbol α) (stop : Nat) (state : State α) :
      Ends setting (.move (.read symbol stop)) state (.replied (.ok symbol))
        (state.moveTo stop)
  | abort (fault : Fault) (state : State α) :
      Ends setting (.move (.abort fault)) state (.faulted fault) state
  | become {events : List Event} {parser : Parser ι α} {state final : State α}
      {halt : Halt α} :
      Ends setting (.body parser) (state.record events) halt final →
      Ends setting (.move (.become events parser)) state halt final
  | body {parser : Parser ι α} {state final : State α} {halt : Halt α} :
      Ends setting (.move (parser.start setting state)) state halt final →
      Ends setting (.body parser) state halt final
  | resumed {parser : Parser ι α} {pending : Pending ι α} {outcome : Outcome (Symbol α)}
      {state middle final : State α} {halt : Halt α} :
      Ends setting (.call parser) state (.answered outcome) middle →
      Ends setting (.move (pending.resume outcome)) middle halt final →
      Ends setting (.move (.call parser pending)) state halt final
  | lost {parser : Parser ι α} {pending : Pending ι α} {fault : Fault}
      {state final : State α} :
      Ends setting (.call parser) state (.faulted fault) final →
      Ends setting (.move (.call parser pending)) state (.faulted fault) final
  | answered {parser : Parser ι α} {state : State α} {outcome : Outcome (Sealed α)} :
      (setting.entry parser state).answer = some outcome →
      Ends setting (.call parser) state
        (.answered (settle (callAt setting.input state.cursor parser) parser.kind outcome
          (setting.entered parser state)).1)
        (settle (callAt setting.input state.cursor parser) parser.kind outcome
          (setting.entered parser state)).2
  | executed {parser : Parser ι α} {state middle : State α} {result : Result α}
      {outcome : Outcome (Sealed α)} :
      (setting.entry parser state).answer = none →
      Ends setting (.body parser) (setting.entered parser state) (.replied result) middle →
      sealResult (callAt setting.input state.cursor parser) parser.kind middle.cursor
        result = .ok outcome →
      Ends setting (.call parser) state
        (.answered (conclude (callAt setting.input state.cursor parser) parser.kind outcome
          middle).1)
        (conclude (callAt setting.input state.cursor parser) parser.kind outcome middle).2
  | unsealed {parser : Parser ι α} {state middle : State α} {result : Result α}
      {fault : Fault} :
      (setting.entry parser state).answer = none →
      Ends setting (.body parser) (setting.entered parser state) (.replied result) middle →
      sealResult (callAt setting.input state.cursor parser) parser.kind middle.cursor
        result = .error fault →
      Ends setting (.call parser) state (.faulted fault) middle
  | broken {parser : Parser ι α} {state final : State α} {fault : Fault} :
      (setting.entry parser state).answer = none →
      Ends setting (.body parser) (setting.entered parser state) (.faulted fault) final →
      Ends setting (.call parser) state (.faulted fault) final

/-! ## Runs of the machine -/

namespace Config

def Reaches (setting : Setting ι α) : Config ι α → Config ι α → Prop :=
  Relation.ReflTransGen fun config next => config.step setting = .next next

def deliver (setting : Setting ι α) (stack : List (Frame ι α)) :
    Halt α → State α → Progress ι α
  | .answered outcome, state => step setting ⟨.answer outcome, stack, state⟩
  | .replied result, state => endBody result stack state
  | .faulted fault, state => .halt (.faulted fault) state

/-- The end of a run that goes on for a number of steps, if that is enough. -/
def endAfter (setting : Setting ι α) (steps : Nat) : Progress ι α → Option (Halt α × State α)
  | .next config => run setting steps config
  | .halt halt state => some (halt, state)

theorem run_succ (setting : Setting ι α) (steps : Nat) (config : Config ι α) :
    run setting (steps + 1) config = endAfter setting steps (config.step setting) := by
  rw [run]
  cases config.step setting <;> rfl

theorem endAfter_step_of_run {setting : Setting ι α} {steps : Nat} {config : Config ι α}
    {ending : Halt α × State α} (ended : run setting steps config = some ending) :
    ∃ rest, steps = rest + 1 ∧ endAfter setting rest (config.step setting) = some ending := by
  cases steps with
  | zero => cases ended
  | succ rest => exact ⟨rest, rfl, (run_succ setting rest config).symm.trans ended⟩

/-- More steps do not change the end of a run that has ended. -/
theorem run_add (setting : Setting ι α) (extra : Nat) {steps : Nat} {config : Config ι α}
    {ending : Halt α × State α} (ended : run setting steps config = some ending) :
    run setting (steps + extra) config = some ending := by
  induction steps generalizing config with
  | zero => cases ended
  | succ steps ih =>
      rw [Nat.add_right_comm, run_succ]
      rw [run_succ] at ended
      cases progress : config.step setting with
      | next config =>
          rw [progress] at ended
          exact ih ended
      | halt halt state =>
          rw [progress] at ended
          exact ended

/-- A run ends in one way only. -/
theorem run_unique (setting : Setting ι α) {first second : Nat} {config : Config ι α}
    {ending other : Halt α × State α} (ended : run setting first config = some ending)
    (endedToo : run setting second config = some other) : ending = other := by
  have one := run_add setting second ended
  have two := run_add setting first endedToo
  rw [Nat.add_comm] at two
  exact Option.some.inj (one.symm.trans two)

/-- The run goes on from every configuration that it reaches. -/
theorem run_of_reaches {setting : Setting ι α} {config next : Config ι α}
    (reaches : Reaches setting config next) {steps : Nat} {ending : Halt α × State α}
    (ended : run setting steps next = some ending) :
    ∃ steps, run setting steps config = some ending := by
  induction reaches using Relation.ReflTransGen.head_induction_on with
  | refl => exact ⟨steps, ended⟩
  | head edge _ ih =>
      obtain ⟨steps, ended⟩ := ih
      refine ⟨steps + 1, ?_⟩
      rw [run_succ, edge]
      exact ended

end Config

open Config

/-- On any stack the machine comes to the point where the ending is delivered. -/
theorem Ends.reaches {setting : Setting ι α} {control : Control ι α} {state final : State α}
    {halt : Halt α} (ends : Ends setting control state halt final)
    (stack : List (Frame ι α)) :
    ∃ config, Reaches setting ⟨control, stack, state⟩ config ∧
      config.step setting = deliver setting stack halt final := by
  induction ends generalizing stack with
  | reply result state => exact ⟨_, .refl, rfl⟩
  | read symbol stop state => exact ⟨_, .refl, rfl⟩
  | abort fault state => exact ⟨_, .refl, rfl⟩
  | become _ ih =>
      obtain ⟨config, reaches, delivered⟩ := ih stack
      exact ⟨config, reaches.head rfl, delivered⟩
  | body _ ih =>
      obtain ⟨config, reaches, delivered⟩ := ih stack
      exact ⟨config, reaches.head rfl, delivered⟩
  | @resumed _ pending _ _ _ _ _ _ _ callIh moveIh =>
      obtain ⟨config, reaches, delivered⟩ := callIh (.waiting pending :: stack)
      obtain ⟨last, reachesLast, deliveredLast⟩ := moveIh stack
      exact ⟨last, (reaches.tail delivered |>.trans reachesLast).head rfl, deliveredLast⟩
  | @lost _ pending _ _ _ _ ih =>
      obtain ⟨config, reaches, delivered⟩ := ih (.waiting pending :: stack)
      exact ⟨config, reaches.head rfl, delivered⟩
  | answered answer =>
      refine ⟨_, .single ?_, rfl⟩
      exact congrArg Progress.next (beginCall_of_answer setting _ stack _ answer)
  | @executed parser state _ _ _ answer _ sealed ih =>
      obtain ⟨config, reaches, delivered⟩ :=
        ih (.active (callAt setting.input state.cursor parser) parser.kind :: stack)
      have first : Reaches setting ⟨.call parser, stack, state⟩ _ :=
        .single (congrArg Progress.next (beginCall_of_no_answer setting parser stack state answer))
      refine ⟨_, (first.trans reaches).tail ?_, rfl⟩
      rw [delivered]
      simp only [deliver, endBody, sealed, endCall_eq]
  | @unsealed parser state _ _ _ answer _ sealed ih =>
      obtain ⟨config, reaches, delivered⟩ :=
        ih (.active (callAt setting.input state.cursor parser) parser.kind :: stack)
      have first : Reaches setting ⟨.call parser, stack, state⟩ _ :=
        .single (congrArg Progress.next (beginCall_of_no_answer setting parser stack state answer))
      refine ⟨config, first.trans reaches, ?_⟩
      rw [delivered]
      simp only [deliver, endBody, sealed]
  | @broken parser state _ _ answer _ ih =>
      obtain ⟨config, reaches, delivered⟩ :=
        ih (.active (callAt setting.input state.cursor parser) parser.kind :: stack)
      have first : Reaches setting ⟨.call parser, stack, state⟩ _ :=
        .single (congrArg Progress.next (beginCall_of_no_answer setting parser stack state answer))
      exact ⟨config, first.trans reaches, delivered⟩

def Halt.Suits : Control ι α → Halt α → Prop
  | .call _, .replied _ => False
  | .body _, .answered _ => False
  | .move _, .answered _ => False
  | _, _ => True

theorem Ends.suits {setting : Setting ι α} {control : Control ι α} {state final : State α}
    {halt : Halt α} (ends : Ends setting control state halt final) : halt.Suits control := by
  induction ends with
  | become _ ih => cases ‹Halt α› <;> trivial
  | body _ ih => cases ‹Halt α› <;> trivial
  | resumed _ _ _ ih => cases ‹Halt α› <;> trivial
  | _ => trivial

/--
A run of the machine that has ended started with an ending of its control, which was then
delivered to the stack.
-/
theorem ends_of_run {setting : Setting ι α} {steps : Nat} {control : Control ι α}
    {stack : List (Frame ι α)} {state : State α} {ending : Halt α × State α}
    (started : ∀ outcome, control ≠ .answer outcome)
    (ended : run setting steps ⟨control, stack, state⟩ = some ending) :
    ∃ halt middle rest, Ends setting control state halt middle ∧ rest < steps ∧
      endAfter setting rest (deliver setting stack halt middle) = some ending := by
  induction steps using Nat.strongRecOn generalizing control stack state ending with
  | ind steps ih =>
    obtain ⟨left, rfl, ended⟩ := endAfter_step_of_run ended
    cases control with
    | answer outcome => exact absurd rfl (started outcome)
    | body parser =>
        obtain ⟨halt, middle, rest, ends, fewer, delivered⟩ :=
          ih left (Nat.lt_succ_self left) (by simp) ended
        exact ⟨halt, middle, rest, .body ends, by omega, delivered⟩
    | call parser =>
        change run setting left (beginCall setting parser stack state) = some ending at ended
        cases answer : (setting.entry parser state).answer with
        | some outcome =>
            rw [beginCall_of_answer setting parser stack state answer] at ended
            obtain ⟨rest, rfl, delivered⟩ := endAfter_step_of_run ended
            exact ⟨_, _, rest, .answered answer, by omega, delivered⟩
        | none =>
            rw [beginCall_of_no_answer setting parser stack state answer] at ended
            obtain ⟨halt, middle, rest, ends, fewer, delivered⟩ :=
              ih left (Nat.lt_succ_self left) (by simp) ended
            cases halt with
            | answered outcome => exact ends.suits.elim
            | faulted fault => exact ⟨_, _, rest, .broken answer ends, by omega, delivered⟩
            | replied result =>
                cases sealed : sealResult (callAt setting.input state.cursor parser)
                    parser.kind middle.cursor result with
                | error fault =>
                    simp only [deliver, endBody, sealed] at delivered
                    exact ⟨_, _, rest, .unsealed answer ends sealed, by omega, delivered⟩
                | ok outcome =>
                    simp only [deliver, endBody, sealed, endCall_eq, endAfter] at delivered
                    obtain ⟨rest, rfl, delivered⟩ := endAfter_step_of_run delivered
                    exact ⟨_, _, rest, .executed answer ends sealed, by omega, delivered⟩
    | move move =>
        cases move with
        | reply result => exact ⟨_, _, left, .reply result state, by omega, ended⟩
        | read symbol stop => exact ⟨_, _, left, .read symbol stop state, by omega, ended⟩
        | abort fault => exact ⟨_, _, left, .abort fault state, by omega, ended⟩
        | become events parser =>
            obtain ⟨halt, middle, rest, ends, fewer, delivered⟩ :=
              ih left (Nat.lt_succ_self left) (by simp) ended
            exact ⟨halt, middle, rest, .become ends, by omega, delivered⟩
        | call parser pending =>
            obtain ⟨halt, middle, rest, ends, fewer, delivered⟩ :=
              ih left (Nat.lt_succ_self left) (by simp) ended
            cases halt with
            | replied result => exact ends.suits.elim
            | faulted fault => exact ⟨_, _, rest, .lost ends, by omega, delivered⟩
            | answered outcome =>
                obtain ⟨halt, final, last, endsToo, fewerToo, deliveredToo⟩ :=
                  ih rest (by omega) (by simp) delivered
                exact ⟨halt, final, last, .resumed ends endsToo, by omega, deliveredToo⟩

/-- What an empty stack makes of an ending that suits the control is that ending. -/
theorem Ends.run {setting : Setting ι α} {control : Control ι α} {state final : State α}
    {halt : Halt α} (ends : Ends setting control state halt final) :
    ∃ steps, Config.run setting steps ⟨control, [], state⟩ = some (halt, final) := by
  obtain ⟨config, reaches, delivered⟩ := ends.reaches []
  have ended : Config.run setting 1 config = some (halt, final) := by
    rw [run_succ, delivered]
    cases halt <;> rfl
  exact run_of_reaches reaches ended

/-- On an empty stack the machine halts as the control ends. -/
theorem ends_iff_run {setting : Setting ι α} {control : Control ι α} {state final : State α}
    {halt : Halt α} (started : ∀ outcome, control ≠ .answer outcome) :
    Ends setting control state halt final ↔
      ∃ steps, Config.run setting steps ⟨control, [], state⟩ = some (halt, final) := by
  constructor
  · exact Ends.run
  · rintro ⟨steps, ended⟩
    obtain ⟨other, middle, rest, ends, -, delivered⟩ := ends_of_run started ended
    have same : some (other, middle) = some (halt, final) := by
      rw [← delivered]
      cases other <;> rfl
    cases same
    exact ends

/-- A control ends in one way only. -/
theorem Ends.unique {setting : Setting ι α} {control : Control ι α} {state final : State α}
    {halt : Halt α} (ends : Ends setting control state halt final) {other : Halt α}
    {last : State α} (endsToo : Ends setting control state other last) :
    halt = other ∧ final = last := by
  obtain ⟨_, ended⟩ := ends.run
  obtain ⟨_, endedToo⟩ := endsToo.run
  have same := run_unique setting ended endedToo
  exact ⟨congrArg Prod.fst same, congrArg Prod.snd same⟩

/-- Calling a parser is done with an outcome exactly if the call ends with it. -/
theorem Setting.runMatch_eq_done_iff {setting : Setting ι α} {parser : Parser ι α}
    {state final : State α} {outcome : Outcome (Symbol α)} :
    (∃ steps, setting.runMatch steps parser state = .done outcome final) ↔
      Ends setting (.call parser) state (.answered outcome) final := by
  rw [ends_iff_run (by simp)]
  refine exists_congr fun steps => ?_
  rw [runMatch]
  split <;> simp_all

end Packrat
