import Packrat.Proofs.Composition
import Packrat.Proofs.NaturalSemantics

/-!
# Plain evaluation

`Evaluates` is the meaning of parsers without policies: a control that starts at a position
ends in some way at another position.  The answers of some calls may be given in advance;
all other calls are executed, and the height of an evaluation bounds how deep they are
nested.  With no answers given, plain evaluation is what the identity policy computes.
-/

namespace Packrat

variable {ι α : Type}

def Outcome.unsealed (outcome : Outcome (Sealed α)) : Outcome (Symbol α) :=
  outcome.map fun matched => matched.map Sealed.symbol

/-- A call settles on the outcome of its own body. -/
theorem settle_sealed {call : Call} {kind : Kind} {cursor : Nat} {result : Result α}
    {outcome : Outcome (Sealed α)} (sealed : sealResult call kind cursor result = .ok outcome)
    (state : State α) :
    settle call kind outcome state =
      (outcome.unsealed, state.moveTo (outcome.landing call.position)) := by
  cases result with
  | error mismatch =>
      cases sealed
      rfl
  | ok symbol =>
      simp only [sealResult] at sealed
      split at sealed
      · cases sealed
        simp only [settle, if_pos]
        rfl
      · cases sealed

/-- A call concludes with the outcome of its own body if the policies return it. -/
theorem conclude_sealed {call : Call} {kind : Kind} {cursor : Nat} {result : Result α}
    {outcome : Outcome (Sealed α)} (sealed : sealResult call kind cursor result = .ok outcome)
    {state : State α} (returns : (state.policy.leave call outcome).outcome = outcome) :
    conclude call kind outcome state =
      (outcome.unsealed,
        (State.record ⟨state.cursor, (state.policy.leave call outcome).policy, state.journal⟩
          (state.policy.leave call outcome).events).moveTo (outcome.landing call.position)) := by
  rw [conclude, returns, settle_sealed sealed]

def State.plain (position : Nat) : State α := ⟨position, .identity, []⟩

def unanswered : Call → Option (Outcome (Symbol α)) := fun _ => none

variable [Input ι]

/--
A control that starts at a position ends in some way at another position, where some
answers are given and the other calls are nested no deeper than a height.
-/
inductive Evaluates (setting : Setting ι α) (given : Call → Option (Outcome (Symbol α))) :
    Nat → Control ι α → Nat → Halt α → Nat → Prop where
  | reply {height position : Nat} (result : Result α) :
      Evaluates setting given height (.move (.reply result)) position (.replied result) position
  | read {height position : Nat} (symbol : Symbol α) (stop : Nat) :
      Evaluates setting given height (.move (.read symbol stop)) position
        (.replied (.ok symbol)) stop
  | become {height position stop : Nat} {events : List Event} {parser : Parser ι α}
      {halt : Halt α} :
      Evaluates setting given height (.body parser) position halt stop →
      Evaluates setting given height (.move (.become events parser)) position halt stop
  | body {height position stop : Nat} {parser : Parser ι α} {halt : Halt α} :
      Evaluates setting given height (.move (parser.start setting (.plain position))) position
        halt stop →
      Evaluates setting given height (.body parser) position halt stop
  | resumed {height position middle stop : Nat} {parser : Parser ι α} {pending : Pending ι α}
      {outcome : Outcome (Symbol α)} {halt : Halt α} :
      Evaluates setting given height (.call parser) position (.answered outcome) middle →
      Evaluates setting given height (.move (pending.resume outcome)) middle halt stop →
      Evaluates setting given height (.move (.call parser pending)) position halt stop
  | answered {height position : Nat} {parser : Parser ι α} {outcome : Outcome (Symbol α)} :
      given (callAt setting.input position parser) = some outcome →
      Evaluates setting given height (.call parser) position (.answered outcome)
        (outcome.landing position)
  | executed {height position middle : Nat} {parser : Parser ι α} {result : Result α}
      {outcome : Outcome (Sealed α)} :
      given (callAt setting.input position parser) = none →
      Evaluates setting given height (.body parser) position (.replied result) middle →
      sealResult (callAt setting.input position parser) parser.kind middle result =
        .ok outcome →
      Evaluates setting given (height + 1) (.call parser) position (.answered outcome.unsealed)
        (outcome.landing position)

namespace Evaluates

variable {setting : Setting ι α} {given : Call → Option (Outcome (Symbol α))}
  {height position stop : Nat} {control : Control ι α} {halt : Halt α}

theorem mono (evaluates : Evaluates setting given height control position halt stop)
    {larger : Nat} (le : height ≤ larger) :
    Evaluates setting given larger control position halt stop := by
  induction evaluates generalizing larger with
  | reply result => exact .reply result
  | read symbol stop => exact .read symbol stop
  | become _ ih => exact .become (ih le)
  | body _ ih => exact .body (ih le)
  | resumed _ _ callIh moveIh => exact .resumed (callIh le) (moveIh le)
  | answered answer => exact .answered answer
  | executed missing _ sealed ih =>
      cases larger with
      | zero => cases le
      | succ larger => exact .executed missing (ih (Nat.le_of_succ_le_succ le)) sealed

/-- The way in which an evaluation ends does not depend on the height. -/
theorem unique (evaluates : Evaluates setting given height control position halt stop)
    {other last : Nat} {haltToo : Halt α}
    (evaluatesToo : Evaluates setting given other control position haltToo last) :
    halt = haltToo ∧ stop = last := by
  induction evaluates generalizing other last haltToo with
  | reply result =>
      cases evaluatesToo
      exact ⟨rfl, rfl⟩
  | read symbol stop =>
      cases evaluatesToo
      exact ⟨rfl, rfl⟩
  | become _ ih =>
      cases evaluatesToo with
      | become evaluatesToo => exact ih evaluatesToo
  | body _ ih =>
      cases evaluatesToo with
      | body evaluatesToo => exact ih evaluatesToo
  | resumed _ _ callIh moveIh =>
      cases evaluatesToo with
      | resumed calledToo movedToo =>
          obtain ⟨same, rfl⟩ := callIh calledToo
          cases same
          exact moveIh movedToo
  | answered answer =>
      cases evaluatesToo with
      | answered answerToo =>
          cases answer.symm.trans answerToo
          exact ⟨rfl, rfl⟩
      | executed missing _ _ => cases answer.symm.trans missing
  | executed missing _ sealed ih =>
      cases evaluatesToo with
      | answered answer => cases missing.symm.trans answer
      | executed _ bodyToo sealedToo =>
          obtain ⟨same, rfl⟩ := ih bodyToo
          cases same
          cases sealed.symm.trans sealedToo
          exact ⟨rfl, rfl⟩

end Evaluates

theorem Parser.start_plain (setting : Setting ι α) (parser : Parser ι α) (position : Nat)
    (journal : List Event) :
    parser.start setting ⟨position, .identity, journal⟩ =
      parser.start setting (.plain position) := by
  cases parser <;> rfl

theorem conclude_plain {call : Call} {kind : Kind} {cursor : Nat} {result : Result α}
    {outcome : Outcome (Sealed α)} (sealed : sealResult call kind cursor result = .ok outcome)
    (journal : List Event) :
    conclude call kind outcome ⟨cursor, .identity, journal⟩ =
      (outcome.unsealed, ⟨outcome.landing call.position, .identity, journal⟩) :=
  conclude_sealed sealed rfl

/-- What ends under the identity policy evaluates in the same way. -/
theorem Ends.evaluates {setting : Setting ι α} {control : Control ι α} {state final : State α}
    {halt : Halt α} (ends : Ends setting control state halt final)
    (unfaulted : ∀ fault, halt ≠ .faulted fault) (plain : state.policy = .identity) :
    final.policy = .identity ∧
      ∃ height, Evaluates setting unanswered height control state.cursor halt final.cursor := by
  induction ends with
  | reply result state => exact ⟨plain, 0, .reply result⟩
  | read symbol stop state => exact ⟨plain, 0, .read symbol stop⟩
  | abort fault state => exact absurd rfl (unfaulted fault)
  | become _ ih =>
      obtain ⟨kept, height, evaluates⟩ := ih unfaulted plain
      exact ⟨kept, height, .become evaluates⟩
  | @body parser state _ _ _ ih =>
      obtain ⟨kept, height, evaluates⟩ := ih unfaulted plain
      obtain ⟨position, policy, journal⟩ := state
      cases plain
      rw [Parser.start_plain] at evaluates
      exact ⟨kept, height, .body evaluates⟩
  | resumed _ _ callIh moveIh =>
      obtain ⟨between, callHeight, called⟩ := callIh nofun plain
      obtain ⟨kept, moveHeight, moved⟩ := moveIh unfaulted between
      exact ⟨kept, max callHeight moveHeight,
        .resumed (called.mono (Nat.le_max_left _ _)) (moved.mono (Nat.le_max_right _ _))⟩
  | @answered parser state outcome answer =>
      obtain ⟨position, policy, journal⟩ := state
      cases plain
      cases answer
  | @executed parser state middle result outcome _ _ sealed ih =>
      obtain ⟨position, policy, journal⟩ := state
      cases plain
      obtain ⟨kept, height, evaluates⟩ := ih nofun rfl
      obtain ⟨cursor, policyToo, later⟩ := middle
      cases kept
      have concluded := conclude_plain sealed later
      refine ⟨?_, height + 1, ?_⟩
      · exact congrArg (fun ending => ending.2.policy) concluded
      · rw [concluded]
        exact .executed rfl evaluates sealed
  | _ => exact absurd rfl (unfaulted _)

/-- What evaluates ends in the same way under the identity policy. -/
theorem Evaluates.ends_plainly {setting : Setting ι α} {height position stop : Nat}
    {control : Control ι α} {halt : Halt α}
    (evaluates : Evaluates setting unanswered height control position halt stop)
    (journal : List Event) :
    ∃ later, Ends setting control ⟨position, .identity, journal⟩ halt
      ⟨stop, .identity, later⟩ := by
  induction evaluates generalizing journal with
  | reply result => exact ⟨journal, .reply result _⟩
  | read symbol stop => exact ⟨journal, .read symbol stop _⟩
  | @become _ position _ events _ _ _ ih =>
      obtain ⟨later, ends⟩ :=
        ih (State.record ⟨position, .identity, journal⟩ events : State α).journal
      exact ⟨later, .become ends⟩
  | body _ ih =>
      obtain ⟨later, ends⟩ := ih journal
      refine ⟨later, .body ?_⟩
      rw [Parser.start_plain]
      exact ends
  | resumed _ _ callIh moveIh =>
      obtain ⟨between, called⟩ := callIh journal
      obtain ⟨later, moved⟩ := moveIh between
      exact ⟨later, .resumed called moved⟩
  | answered answer => cases answer
  | @executed _ position middle parser result outcome _ _ sealed ih =>
      obtain ⟨later, ends⟩ := ih journal
      have concluded := conclude_plain sealed later
      refine ⟨later, ?_⟩
      have ended : Ends setting (.call parser) ⟨position, .identity, journal⟩ _ _ :=
        .executed rfl ends sealed
      rw [concluded] at ended
      exact ended

end Packrat
