import Packrat.Proofs.Life
import Packrat.Proofs.PolicyLaws

/-!
# Where calls can end

Whatever a grammar is made of, a call ends where it started or further on, and inside the
input.  Nothing but a terminal moves the cursor forward, and a terminal never reads past the
end; the memo tables know no other matches, because every outcome that they store was made by
a body that has just ended.  `Config.Covering` is the invariant of the machine that says so,
with the calls on the stack one after the other in the input.
-/

namespace Packrat

variable {ι α : Type} [Input ι]

structure Input.Ahead (input : ι) (position stop : Nat) : Prop where
  forward : position ≤ stop
  inside : stop ≤ max (Input.size input) position

namespace Input.Ahead

variable {input : ι} {first middle last : Nat}

theorem refl (input : ι) (position : Nat) : Ahead input position position :=
  ⟨Nat.le_refl position, Nat.le_max_right _ _⟩

theorem trans (ahead : Ahead input first middle) (further : Ahead input middle last) :
    Ahead input first last := by
  obtain ⟨forward, inside⟩ := ahead
  obtain ⟨forwardToo, insideToo⟩ := further
  exact ⟨by omega, by omega⟩

theorem remaining_add (ahead : Ahead input first last) :
    Input.remaining input last + (last - first) = Input.remaining input first := by
  obtain ⟨forward, inside⟩ := ahead
  unfold Input.remaining
  omega

end Input.Ahead

/-- A match starts at the position and ends ahead of it. -/
def Outcome.Covers {σ : Type} (input : ι) (position : Nat) (outcome : Outcome σ) : Prop :=
  ∀ matched, outcome = .ok matched →
    matched.span.start = position ∧ Input.Ahead input position matched.span.stop

namespace Outcome.Covers

variable {σ : Type} {input : ι} {position : Nat}

theorem error (input : ι) (position : Nat) (mismatch : Mismatch) :
    Outcome.Covers (σ := σ) input position (.error mismatch) := nofun

theorem landing {outcome : Outcome σ} (covers : outcome.Covers input position) :
    Input.Ahead input position (outcome.landing position) := by
  cases outcome with
  | error mismatch => exact .refl input position
  | ok matched => exact (covers matched rfl).2

end Outcome.Covers

theorem settle_covers {input : ι} {call : Call} {outcome : Outcome (Sealed α)}
    (covers : outcome.Covers input call.position) (kind : Kind) (state : State α) :
    (settle call kind outcome state).1.Covers input call.position := by
  cases outcome with
  | error mismatch => exact .error _ _ mismatch
  | ok matched =>
      simp only [settle]
      split
      · intro settled same
        cases same
        exact covers matched rfl
      · exact .error _ _ _

theorem sealResult_covers {input : ι} {call : Call} {kind : Kind} {cursor : Nat}
    {result : Result α} {made : Outcome (Sealed α)}
    (ahead : Input.Ahead input call.position cursor)
    (sealed : sealResult call kind cursor result = .ok made) :
    made.Covers input call.position := by
  rintro matched rfl
  rw [span_of_sealResult sealed]
  exact ⟨rfl, ahead⟩

def Memoizer.Covering (input : ι) (memo : Memoizer α) : Prop :=
  ∀ key outcome, memo.find? key = some outcome → outcome.Covers input key.position

def Policy.Covering (input : ι) (policy : Policy α) : Prop :=
  policy.Remembers (Memoizer.Covering input)

namespace Policy.Covering

variable {input : ι} {policy : Policy α} {call : Call}

theorem of_fresh (fresh : policy.Fresh) (input : ι) : policy.Covering input := by
  refine remembers_of_fresh (fun key outcome found => ?_) fresh
  rw [Memoizer.find?_empty] at found
  cases found

theorem found {memo : Memoizer α} {key : Key} {outcome : Outcome (Sealed α)}
    (covering : memo.Covering input) (tagged : call.key? = some key)
    (remembered : memo.find? key = some outcome) : outcome.Covers input call.position := by
  rw [← Call.position_of_key? tagged]
  exact covering key outcome remembered

theorem stored {memo : Memoizer α} {key : Key} {outcome : Outcome (Sealed α)}
    (covering : memo.Covering input) (tagged : call.key? = some key)
    (covers : outcome.Covers input call.position) :
    (memo.insert key outcome).Covering input := by
  intro other remembered given
  rw [Memoizer.find?_insert] at given
  split at given
  · next same =>
      cases given
      rw [← same, Call.position_of_key? tagged]
      exact covers
  · exact covering other remembered given

theorem enter (covering : policy.Covering input) (call : Call) :
    (policy.enter call).policy.Covering input ∧
      ∀ outcome, (policy.enter call).answer = some outcome →
        outcome.Covers input call.position := by
  refine enter_remembers (fun outcome => outcome.Covers input call.position) found stored
    covering ?_
  exact limits_of_all (fun _ _ _ _ => .error _ _ _) policy

theorem leave (covering : policy.Covering input) {outcome : Outcome (Sealed α)}
    (covers : outcome.Covers input call.position) :
    (policy.leave call outcome).policy.Covering input ∧
      (policy.leave call outcome).outcome.Covers input call.position :=
  leave_remembers (fun outcome => outcome.Covers input call.position) found stored
    covering covers

end Policy.Covering

def Move.Ahead (input : ι) (cursor : Nat) : Move ι α → Prop
  | .read _ stop => Input.Ahead input cursor stop
  | _ => True

theorem Parser.start_ahead (setting : Setting ι α) (state : State α) (parser : Parser ι α) :
    (parser.start setting state).Ahead setting.input state.cursor := by
  cases parser with
  | terminal expectation probe =>
      rw [start]
      split
      · trivial
      · trivial
      · split
        · next inside => exact ⟨Nat.le_add_right _ _, Nat.le_trans inside (Nat.le_max_left _ _)⟩
        · trivial
  | repetition tag item limit =>
      rw [start, continueRepetition]
      split <;> trivial
  | choice tag alternatives => cases alternatives <;> trivial
  | handle tag slot =>
      rw [start]
      split <;> trivial
  | _ => trivial

theorem Pending.resume_ahead (input : ι) (cursor : Nat) (pending : Pending ι α)
    (outcome : Outcome (Symbol α)) : (pending.resume outcome).Ahead input cursor := by
  cases pending with
  | finish complete =>
      rw [resume]
      cases complete (outcome.map Match.symbol) <;> trivial
  | alternative tag alternatives rest =>
      cases outcome with
      | ok matched => trivial
      | error mismatch => cases rest <;> trivial
  | iteration tag item limit taken =>
      cases outcome with
      | ok matched =>
          simp only [resume, continueRepetition]
          split
          · trivial
          · split <;> trivial
      | error mismatch => trivial
  | nextItem item separator taken =>
      cases outcome with
      | ok matched =>
          simp only [resume]
          split <;> trivial
      | error mismatch => trivial
  | _ => cases outcome <;> trivial

def Control.Ahead (input : ι) (cursor : Nat) : Control ι α → Prop
  | .move next => next.Ahead input cursor
  | _ => True

/-! ## Runs -/

def Halt.Covers (input : ι) (position : Nat) : Halt α → Prop
  | .answered outcome => outcome.Covers input position
  | _ => True

/-- Whatever ends does so ahead, and policies that remember what covers go on doing so. -/
theorem Ends.covers {setting : Setting ι α} {control : Control ι α} {state final : State α}
    {halt : Halt α} (ends : Ends setting control state halt final)
    (ahead : control.Ahead setting.input state.cursor)
    (covering : state.policy.Covering setting.input) :
    halt.Covers setting.input state.cursor ∧
      Input.Ahead setting.input state.cursor final.cursor ∧
      final.policy.Covering setting.input := by
  induction ends with
  | reply result state => exact ⟨trivial, .refl _ _, covering⟩
  | read symbol stop state => exact ⟨trivial, ahead, covering⟩
  | abort fault state => exact ⟨trivial, .refl _ _, covering⟩
  | become _ ih => exact ih trivial covering
  | @body parser state _ _ _ ih => exact ih (parser.start_ahead setting state) covering
  | @resumed _ pending outcome _ middle _ halt _ rest callIh moveIh =>
      obtain ⟨-, before, covering⟩ := callIh trivial covering
      obtain ⟨covers, after, covering⟩ :=
        moveIh (pending.resume_ahead _ middle.cursor outcome) covering
      refine ⟨?_, before.trans after, covering⟩
      cases halt with
      | answered outcome => exact rest.suits.elim
      | _ => trivial
  | lost _ ih =>
      obtain ⟨-, after, covering⟩ := ih trivial covering
      exact ⟨trivial, after, covering⟩
  | @answered parser state outcome answer =>
      obtain ⟨covering, covers⟩ := covering.enter (callAt setting.input state.cursor parser)
      have settled := settle_covers (covers outcome answer) parser.kind
        (setting.entered parser state)
      refine ⟨settled, ?_, ?_⟩
      · rw [settle_cursor]
        exact settled.landing
      · rw [settle_policy]
        exact covering
  | @executed parser state middle result outcome _ _ sealed ih =>
      obtain ⟨covering, -⟩ := covering.enter (callAt setting.input state.cursor parser)
      obtain ⟨-, after, covering⟩ := ih trivial covering
      obtain ⟨covering, covers⟩ := covering.leave (sealResult_covers after sealed)
      refine ⟨settle_covers covers _ _, ?_, ?_⟩
      · rw [conclude, settle_cursor]
        exact (settle_covers covers _ _).landing
      · rw [conclude_policy]
        exact covering
  | @unsealed parser state _ _ _ _ _ _ ih =>
      obtain ⟨covering, -⟩ := covering.enter (callAt setting.input state.cursor parser)
      obtain ⟨-, after, covering⟩ := ih trivial covering
      exact ⟨trivial, after, covering⟩
  | @broken parser state _ _ _ _ ih =>
      obtain ⟨covering, -⟩ := covering.enter (callAt setting.input state.cursor parser)
      obtain ⟨-, after, covering⟩ := ih trivial covering
      exact ⟨trivial, after, covering⟩

/-- The calls on a stack follow one another in the input, up to the cursor. -/
inductive Stepwise (input : ι) : Nat → List (Frame ι α) → Prop where
  | empty {cursor : Nat} : Stepwise input cursor []
  | waiting {cursor : Nat} {pending : Pending ι α} {stack : List (Frame ι α)} :
      Stepwise input cursor stack → Stepwise input cursor (.waiting pending :: stack)
  | active {cursor : Nat} {call : Call} {kind : Kind} {stack : List (Frame ι α)} :
      Input.Ahead input call.position cursor → Stepwise input call.position stack →
      Stepwise input cursor (.active call kind :: stack)

theorem Stepwise.mono {input : ι} {cursor further : Nat} {stack : List (Frame ι α)}
    (stepwise : Stepwise input cursor stack) (ahead : Input.Ahead input cursor further) :
    Stepwise input further stack := by
  induction stepwise with
  | empty => exact .empty
  | waiting _ ih => exact .waiting (ih ahead)
  | active before below _ => exact .active (before.trans ahead) below

/-- The invariant of the machine: what is remembered, what is read and where the calls are. -/
structure Config.Covering (input : ι) (config : Config ι α) : Prop where
  policy : config.state.policy.Covering input
  control : config.control.Ahead input config.state.cursor
  stack : Stepwise input config.state.cursor config.stack

/-- Every step keeps the invariant. -/
theorem Config.Covering.step {setting : Setting ι α} {config next : Config ι α}
    (covering : config.Covering setting.input) (same : config.step setting = .next next) :
    next.Covering setting.input := by
  obtain ⟨remembers, ahead, stepwise⟩ := covering
  cases Config.edge_of_step same with
  | @answered parser _ state outcome answer =>
      obtain ⟨covering, covers⟩ := remembers.enter (callAt setting.input state.cursor parser)
      refine ⟨?_, trivial, ?_⟩
      · rw [settle_policy]
        exact covering
      · rw [settle_cursor]
        exact stepwise.mono (settle_covers (covers outcome answer) _ _).landing
  | @started parser _ state _ =>
      obtain ⟨covering, -⟩ := remembers.enter (callAt setting.input state.cursor parser)
      exact ⟨covering, trivial, .active (.refl _ _) stepwise⟩
  | @ended move call kind stack state after _ made finishes sealed =>
      cases stepwise with
      | active before below =>
          have read : Input.Ahead setting.input state.cursor after.cursor := by
            cases finishes with
            | reply result => exact .refl _ _
            | read symbol stop => exact ahead
          rw [← finishes.keeps.1] at remembers
          obtain ⟨covering, covers⟩ :=
            remembers.leave (sealResult_covers (before.trans read) sealed)
          refine ⟨?_, trivial, ?_⟩
          · rw [conclude_policy]
            exact covering
          · rw [conclude, settle_cursor]
            exact below.mono (settle_covers covers _ _).landing
  | @begun parser _ state => exact ⟨remembers, parser.start_ahead setting state, stepwise⟩
  | called => exact ⟨remembers, trivial, .waiting stepwise⟩
  | replaced => exact ⟨remembers, trivial, stepwise⟩
  | @resumed outcome pending _ state =>
      cases stepwise with
      | waiting below => exact ⟨remembers, pending.resume_ahead _ _ outcome, below⟩

theorem Config.Covering.reaches {setting : Setting ι α} {config next : Config ι α}
    (covering : config.Covering setting.input)
    (reaches : Config.Reaches setting config next) : next.Covering setting.input := by
  induction reaches with
  | refl => exact covering
  | tail _ same ih => exact ih.step same

theorem Lives.covering {input : ι} {policy : Policy α} {arena : Arena ι α}
    {parser : Parser ι α} {history : List (Deed α)} {moment : Moment ι α}
    (lives : Lives input (.birth policy arena parser) history moment) (fresh : policy.Fresh) :
    moment.config.Covering input := by
  induction lives with
  | here => exact ⟨.of_fresh fresh input, trivial, .empty⟩
  | step _ same ih => exact ih.step same
  | again _ _ _ _ ih => exact ⟨ih.policy, trivial, .empty⟩

end Packrat
