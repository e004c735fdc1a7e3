import Packrat.Engine
import Packrat.Proofs.Boundary
import Packrat.Proofs.Composition
import Packrat.Proofs.NaturalSemantics
import Packrat.Proofs.PolicyLaws

/-!
# The extent of a match

A call either fails and leaves the cursor where it started or covers the input from
there to the new cursor, which is a boundary again.  Answers of the memo table keep this
promise because the table only ever remembers outcomes that kept it.  `Config.Sound` is
the invariant of the machine that says so for the cursor, the memo tables and the whole
stack at once; every step preserves it.
-/

namespace Packrat

open Readable (IsBoundary)

variable {ι α : Type} [Input ι] [Readable ι]

/-- A match starts at the position and ends on a boundary that does not come before it. -/
def Outcome.Fits {σ : Type} (input : ι) (position : Nat) : Outcome σ → Prop
  | .ok matched =>
      matched.span.start = position ∧ position ≤ matched.span.stop ∧
        IsBoundary input matched.span.stop
  | .error _ => True

def Memoizer.Sound (input : ι) (memo : Memoizer α) : Prop :=
  ∀ (key : Key) (outcome : Outcome (Sealed α)), memo.find? key = some outcome →
    outcome.Fits input key.position

/-- The cursor is on a boundary and all that the policies remember fits. -/
structure State.Sound (input : ι) (state : State α) : Prop where
  boundary : IsBoundary input state.cursor
  remembers : state.policy.Remembers (Memoizer.Sound input)

theorem Policy.Fresh.remembers {policy : Policy α} (fresh : policy.Fresh) (input : ι) :
    policy.Remembers (Memoizer.Sound input) := by
  refine Policy.remembers_of_fresh ?_ fresh
  intro key outcome found
  rw [Memoizer.find?_empty] at found
  cases found

theorem Outcome.Fits.boundary {σ : Type} {input : ι} {position : Nat} {outcome : Outcome σ}
    (fits : outcome.Fits input position) (start : IsBoundary input position) :
    IsBoundary input (outcome.landing position) := by
  cases outcome with
  | error mismatch => exact start
  | ok matched => exact fits.2.2

theorem Outcome.Fits.le_landing {σ : Type} {input : ι} {position : Nat} {outcome : Outcome σ}
    (fits : outcome.Fits input position) : position ≤ outcome.landing position := by
  cases outcome with
  | error mismatch => exact Nat.le_refl position
  | ok matched => exact fits.2.1

theorem settle_fits {input : ι} {call : Call} {kind : Kind} {outcome : Outcome (Sealed α)}
    (fits : outcome.Fits input call.position) (state : State α) :
    (settle call kind outcome state).1.Fits input call.position := by
  cases outcome with
  | error mismatch => trivial
  | ok matched =>
      simp only [settle]
      split
      · exact fits
      · trivial

/-- A settled call leaves the cursor on a boundary and the policies as they are. -/
theorem settle_sound {input : ι} {call : Call} {kind : Kind} {outcome : Outcome (Sealed α)}
    {state : State α} (fits : outcome.Fits input call.position)
    (start : IsBoundary input call.position)
    (remembers : state.policy.Remembers (Memoizer.Sound input)) :
    (settle call kind outcome state).2.Sound input := by
  constructor
  · rw [settle_cursor]
    exact (settle_fits fits state).boundary start
  · rw [settle_policy]
    exact remembers

section Calls

variable {input : ι} {call : Call} {policy : Policy α}

theorem Memoizer.Sound.found {memo : Memoizer α} (sound : memo.Sound input) {key : Key}
    {outcome : Outcome (Sealed α)} (tagged : call.key? = some key)
    (found : memo.find? key = some outcome) : outcome.Fits input call.position := by
  rw [← Call.position_of_key? tagged]
  exact sound key outcome found

theorem Memoizer.Sound.insert {memo : Memoizer α} (sound : memo.Sound input) {key : Key}
    {outcome : Outcome (Sealed α)} (fits : outcome.Fits input key.position) :
    (memo.insert key outcome).Sound input := by
  intro other remembered found
  rw [Memoizer.find?_insert] at found
  split at found
  · next same =>
      cases found
      rw [← same]
      exact fits
  · exact sound other remembered found

theorem Memoizer.Sound.stored {memo : Memoizer α} (sound : memo.Sound input) {key : Key}
    {outcome : Outcome (Sealed α)} (tagged : call.key? = some key)
    (fits : outcome.Fits input call.position) : (memo.insert key outcome).Sound input := by
  refine sound.insert ?_
  rw [Call.position_of_key? tagged]
  exact fits

/-- Policies that remember what fits answer a call with an outcome that fits. -/
theorem enter_sound (remembers : policy.Remembers (Memoizer.Sound input)) :
    (policy.enter call).policy.Remembers (Memoizer.Sound input) ∧
      ∀ outcome, (policy.enter call).answer = some outcome →
        outcome.Fits input call.position := by
  refine Policy.enter_remembers (Outcome.Fits input call.position)
    (fun sound tagged => sound.found tagged) (fun sound tagged => sound.stored tagged)
    remembers ?_
  exact Policy.limits_of_all (fun _ _ _ _ => trivial) policy

/-- Policies that remember what fits return an outcome that fits. -/
theorem leave_sound (remembers : policy.Remembers (Memoizer.Sound input))
    {outcome : Outcome (Sealed α)} (fits : outcome.Fits input call.position) :
    (policy.leave call outcome).policy.Remembers (Memoizer.Sound input) ∧
      (policy.leave call outcome).outcome.Fits input call.position :=
  Policy.leave_remembers (Outcome.Fits input call.position)
    (fun sound tagged => sound.found tagged) (fun sound tagged => sound.stored tagged)
    remembers fits

end Calls

/-! ## The invariant of the machine -/

/-- A finishing step that breaks no rule of the engine. -/
def Finish.Regular (complete : Finish α) : Prop :=
  ∀ result fault, complete result = .error fault → fault = .overflow

/--
The pieces of the vocabulary: its terminals, regular finishing steps, all tags and the
events of counters.
-/
def Pieces.vocabulary : Pieces ι α where
  terminal := Readable.IsTerminal
  finish := Finish.Regular
  tag _ := True
  event := Event.IsCounted

def Parser.Regular (parser : Parser ι α) : Prop := parser.Composed .vocabulary

mutual

/-- A stack that waits for the end of a call from a position; the run started at `origin`. -/
inductive CallStack (input : ι) (origin : Nat) : Nat → List (Frame ι α) → Prop where
  | empty : CallStack input origin origin []
  | waiting {position : Nat} {pending : Pending ι α} {stack : List (Frame ι α)} :
      pending.Over Parser.Regular Finish.Regular → BodyStack input origin position stack →
      CallStack input origin position (.waiting pending :: stack)

/-- A stack that waits for the end of a body with the cursor at a position. -/
inductive BodyStack (input : ι) (origin : Nat) : Nat → List (Frame ι α) → Prop where
  | active {position : Nat} {call : Call} {stack : List (Frame ι α)} (kind : Kind) :
      call.position ≤ position → IsBoundary input call.position →
      CallStack input origin call.position stack →
      BodyStack input origin position (.active call kind :: stack)

end

theorem BodyStack.mono {input : ι} {origin position further : Nat}
    {stack : List (Frame ι α)} (body : BodyStack input origin position stack)
    (forward : position ≤ further) : BodyStack input origin further stack := by
  cases body with
  | active kind before start callStack =>
      exact .active kind (Nat.le_trans before forward) start callStack

def Move.Bounded (input : ι) (cursor : Nat) : Move ι α → Prop
  | .read _ stop => cursor ≤ stop ∧ IsBoundary input stop
  | .abort fault => fault = .overflow
  | _ => True

structure Move.Sound (input : ι) (cursor : Nat) (move : Move ι α) : Prop where
  covered : move.Over Parser.Regular Finish.Regular Event.IsCounted
  bounded : move.Bounded input cursor

def Control.Sound (input : ι) (origin : Nat) (stack : List (Frame ι α)) (cursor : Nat) :
    Control ι α → Prop
  | .call parser => parser.Regular ∧ CallStack input origin cursor stack
  | .body parser => parser.Regular ∧ BodyStack input origin cursor stack
  | .move next => next.Sound input cursor ∧ BodyStack input origin cursor stack
  | .answer outcome => ∃ position, outcome.Fits input position ∧
      cursor = outcome.landing position ∧ CallStack input origin position stack

/-- The invariant of a run that calls a regular parser at a position. -/
structure Config.Sound (input : ι) (origin : Nat) (config : Config ι α) : Prop where
  state : config.state.Sound input
  control : config.control.Sound input origin config.stack config.state.cursor

def Halt.Sound (input : ι) (origin : Nat) (halt : Halt α) (state : State α) : Prop :=
  match halt with
  | .answered outcome => outcome.Fits input origin ∧ state.cursor = outcome.landing origin
  | .replied _ => False
  | .faulted fault => fault = .overflow

def Progress.Sound (input : ι) (origin : Nat) : Progress ι α → Prop
  | .next config => config.Sound input origin
  | .halt ending state => ending.Sound input origin state ∧ state.Sound input

section Steps

variable {setting : Setting ι α} {origin : Nat}

theorem Parser.Regular.ignoreThen {first second : Parser ι α} (regular : first.Regular)
    (regularToo : second.Regular) : (first.ignoreThen second).Regular :=
  Parser.Composed.ignoreThen regular regularToo

/-- The body of a regular parser starts with a sound move. -/
theorem Parser.Regular.start_sound (arena : setting.arena.Composed .vocabulary)
    {parser : Parser ι α} (regular : parser.Regular) {state : State α}
    (boundary : IsBoundary setting.input state.cursor) :
    (parser.start setting state).Sound setting.input state.cursor := by
  refine ⟨Parser.Composed.start arena regular state, ?_⟩
  cases regular with
  | terminal known =>
      obtain ⟨found, reads, reaches⟩ := Readable.reads known boundary
      rw [Parser.start, reads]
      cases found with
      | none => trivial
      | some found =>
          have stop := reaches found.1 found.2 rfl
          simp only [if_pos (Readable.le_size stop)]
          exact ⟨Nat.le_add_right _ _, stop⟩
  | repetition limit _ _ =>
      rw [Parser.start, continueRepetition]
      split <;> trivial
  | choice _ alternatives => cases ‹List (Parser ι α)› <;> trivial
  | handle slot _ =>
      rw [Parser.start]
      split <;> trivial
  | _ => trivial

theorem Pending.resume_sound {pending : Pending ι α}
    (covered : pending.Over Parser.Regular Finish.Regular) (outcome : Outcome (Symbol α))
    (input : ι) (cursor : Nat) : (pending.resume outcome).Sound input cursor := by
  refine ⟨Pending.resume_over Parser.Regular.ignoreThen covered outcome, ?_⟩
  cases pending with
  | finish complete =>
      rw [Pending.resume]
      cases finished : complete (outcome.map Match.symbol) with
      | ok result => trivial
      | error fault => exact covered _ fault finished
  | alternative tag alternatives rest =>
      cases outcome with
      | ok matched => trivial
      | error mismatch => cases rest <;> trivial
  | iteration tag item limit taken =>
      cases outcome with
      | ok matched =>
          simp only [Pending.resume, continueRepetition]
          split
          · trivial
          · split <;> trivial
      | error mismatch => trivial
  | nextItem item separator taken =>
      cases outcome with
      | ok matched =>
          simp only [Pending.resume]
          split <;> trivial
      | error mismatch => trivial
  | _ => cases outcome <;> trivial

theorem Config.beginCall_sound {parser : Parser ι α} (regular : parser.Regular)
    {stack : List (Frame ι α)} {state : State α} (sound : state.Sound setting.input)
    (waits : CallStack setting.input origin state.cursor stack) :
    (beginCall setting parser stack state).Sound setting.input origin := by
  let call := callAt setting.input state.cursor parser
  obtain ⟨remembers, fits⟩ : (state.policy.enter call).policy.Remembers _ ∧ _ :=
    enter_sound sound.remembers
  cases answer : (setting.entry parser state).answer with
  | some outcome =>
      rw [beginCall_of_answer setting parser stack state answer]
      have fitting := fits outcome answer
      refine ⟨settle_sound fitting sound.boundary remembers, ?_⟩
      exact ⟨state.cursor, settle_fits fitting _, settle_cursor _ _ _ _, waits⟩
  | none =>
      rw [beginCall_of_no_answer setting parser stack state answer]
      exact ⟨⟨sound.boundary, remembers⟩, regular,
        .active parser.kind (Nat.le_refl state.cursor) sound.boundary waits⟩

/-- A body ends in a sound way. -/
theorem Config.endBody_sound {stack : List (Frame ι α)} {state : State α}
    (sound : state.Sound setting.input)
    (waits : BodyStack setting.input origin state.cursor stack) (result : Result α) :
    (endBody result stack state).Sound setting.input origin := by
  cases waits with
  | @active _ call stack kind forward start waits =>
      have fitting : ∃ outcome, sealResult call kind state.cursor result = .ok outcome ∧
          outcome.Fits setting.input call.position := by
        cases result with
        | error mismatch => exact ⟨.error mismatch, rfl, trivial⟩
        | ok symbol =>
            refine ⟨.ok ⟨⟨kind, symbol⟩, ⟨call.position, state.cursor⟩⟩, ?_, rfl, forward,
              sound.boundary⟩
            simp only [sealResult, Span.between, if_pos forward]
      obtain ⟨outcome, sealed, fits⟩ := fitting
      obtain ⟨remembers, fitsToo⟩ := leave_sound sound.remembers fits
      simp only [endBody, sealed, endCall_eq]
      refine ⟨settle_sound fitsToo start remembers, ?_⟩
      exact ⟨call.position, settle_fits fitsToo _, settle_cursor _ _ _ _, waits⟩

/-- Every step preserves the invariant. -/
theorem Config.Sound.step (arena : setting.arena.Composed .vocabulary) {config : Config ι α}
    (sound : config.Sound setting.input origin) :
    (config.step setting).Sound setting.input origin := by
  obtain ⟨control, stack, state⟩ := config
  obtain ⟨state_sound, control_sound⟩ := sound
  cases control with
  | call parser =>
      obtain ⟨regular, waits⟩ := control_sound
      exact beginCall_sound regular state_sound waits
  | body parser =>
      obtain ⟨regular, waits⟩ := control_sound
      exact ⟨state_sound, regular.start_sound arena state_sound.boundary, waits⟩
  | move move =>
      obtain ⟨⟨covered, bounded⟩, waits⟩ := control_sound
      cases move with
      | reply result => exact endBody_sound state_sound waits result
      | read symbol stop =>
          have moved : (state.moveTo stop).Sound setting.input :=
            ⟨bounded.2, state_sound.remembers⟩
          exact endBody_sound moved (waits.mono bounded.1) _
      | call parser pending => exact ⟨state_sound, covered.1, .waiting covered.2 waits⟩
      | become events parser =>
          exact ⟨⟨state_sound.boundary, state_sound.remembers⟩, covered.1, waits⟩
      | abort fault => exact ⟨bounded, state_sound⟩
  | answer outcome =>
      obtain ⟨position, fits, lands, waits⟩ := control_sound
      cases waits with
      | empty => exact ⟨⟨fits, lands⟩, state_sound⟩
      | waiting covered waits =>
          refine ⟨state_sound, Pending.resume_sound covered outcome _ _, waits.mono ?_⟩
          rw [lands]
          exact fits.le_landing

end Steps

theorem Config.Sound.start {input : ι} {parser : Parser ι α} (regular : parser.Regular)
    {state : State α} (sound : state.Sound input) :
    Config.Sound input state.cursor ⟨.call parser, [], state⟩ :=
  ⟨sound, regular, .empty⟩

/-- A run keeps the invariant. -/
theorem Config.Sound.reaches {setting : Setting ι α}
    (arena : setting.arena.Composed .vocabulary) {origin : Nat} {config next : Config ι α}
    (sound : config.Sound setting.input origin) (reaches : Reaches setting config next) :
    next.Sound setting.input origin := by
  induction reaches with
  | refl => exact sound
  | tail _ edge ih =>
      have after := ih.step arena
      rw [edge] at after
      exact after

/-- A run that starts with the invariant halts in a sound way. -/
theorem Config.Sound.run {setting : Setting ι α} (arena : setting.arena.Composed .vocabulary)
    {origin steps : Nat} {config : Config ι α} (sound : config.Sound setting.input origin)
    {halt : Halt α} {final : State α}
    (ended : Config.run setting steps config = some (halt, final)) :
    halt.Sound setting.input origin final ∧ final.Sound setting.input := by
  induction steps generalizing config with
  | zero => cases ended
  | succ steps ih =>
      have after := sound.step arena
      rw [run_succ] at ended
      cases progress : config.step setting with
      | next config =>
          rw [progress] at ended after
          exact ih after ended
      | halt halt state =>
          rw [progress] at ended after
          cases ended
          exact after

/-- What the end of a call says about its outcome and the state that it leaves behind. -/
theorem Ends.call_sound {setting : Setting ι α} (arena : setting.arena.Composed .vocabulary)
    {parser : Parser ι α} (regular : parser.Regular) {state final : State α} {halt : Halt α}
    (sound : state.Sound setting.input) (ends : Ends setting (.call parser) state halt final) :
    halt.Sound setting.input state.cursor final ∧ final.Sound setting.input := by
  obtain ⟨steps, ended⟩ := ends.run
  exact (Config.Sound.start regular sound).run arena ended

/--
The states of an engine: the fresh one, and all that calls of regular parsers from a
reachable state pass through.
-/
inductive Reachable (input : ι) : State α → Prop where
  | fresh {policy : Policy α} :
      IsBoundary input 0 → policy.Fresh → Reachable input (.initial policy)
  | through {arena : Arena ι α} {parser : Parser ι α} {state : State α}
      {config : Config ι α} :
      Reachable input state → arena.Composed .vocabulary → parser.Regular →
      Config.Reaches ⟨input, arena⟩ ⟨.call parser, [], state⟩ config →
      Reachable input config.state

theorem Reachable.sound {input : ι} {state : State α} (reachable : Reachable input state) :
    state.Sound input := by
  induction reachable with
  | fresh start fresh => exact ⟨start, fresh.remembers _⟩
  | @through arena _ _ _ _ composed regular reaches ih =>
      have started := Config.Sound.start regular ih
      exact (started.reaches (show (Setting.mk input arena).arena.Composed _ from composed)
        reaches).state

/--
A call from a position fails with the cursor there, or it matches from there to the new cursor
and inside the input.  No rule of the engine is broken.
-/
def Run.KeepsExtent (input : ι) (position : Nat) : Run α (Outcome (Symbol α)) → Prop
  | .done (.error _) final => final.cursor = position
  | .done (.ok matched) final =>
      matched.span.start = position ∧ final.cursor = matched.span.stop ∧
        position ≤ matched.span.stop ∧ matched.span.stop ≤ Input.size input
  | .faulted fault _ => fault = .overflow
  | .unfinished => True

/--
Calling a regular parser in a reachable state either fails with the cursor where it was or
matches from there to the new cursor, inside the input.  No rule of the engine is broken,
and the cursor never leaves the boundaries of the input on the way.
-/
theorem runMatch_extent (setting : Setting ι α) (arena : setting.arena.Composed .vocabulary)
    (parser : Parser ι α) (regular : parser.Regular) (state : State α)
    (reachable : Reachable setting.input state) (steps : Nat) :
    (setting.runMatch steps parser state).KeepsExtent setting.input state.cursor ∧
    ∀ config, Config.Reaches setting ⟨.call parser, [], state⟩ config →
      IsBoundary setting.input config.state.cursor := by
  have started := Config.Sound.start regular reachable.sound
  constructor
  · cases ended : Config.run setting steps ⟨.call parser, [], state⟩ with
    | none =>
        rw [Setting.runMatch, ended]
        trivial
    | some ending =>
        obtain ⟨halt, final⟩ := ending
        obtain ⟨halted, -⟩ := started.run arena ended
        rw [Setting.runMatch, ended]
        cases halt with
        | replied result => exact halted.elim
        | faulted fault => exact halted
        | answered outcome =>
            obtain ⟨fits, lands⟩ := halted
            cases outcome with
            | error mismatch => exact lands
            | ok matched => exact ⟨fits.1, lands, fits.2.1, Readable.le_size fits.2.2⟩
  · intro config reaches
    exact (started.reaches arena reaches).state.boundary

theorem runMatch_extent_letters :
    ((Setting.mk #['a', 'a'] .empty).runMatch 80 (.recursive ⟨"letters"⟩ letters)
      (.initial .standard)).KeepsExtent #['a', 'a'] 0 := by
  have admitted (c : Char) : (letter c).Composed .vocabulary :=
    .terminal (TokenTerminal.oneToken _ _)
  exact (runMatch_extent (Setting.mk #['a', 'a'] .empty) (Arena.empty_composed _) _
    (.recursive trivial (letters_composed admitted)) _
    (.fresh (Nat.zero_le 2) Policy.standard_fresh) 80).1

end Packrat
