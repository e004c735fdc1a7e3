import Packrat.Proofs.FarthestFailures
import Packrat.Proofs.MemoGrowth
import Packrat.Proofs.Services

/-!
# Observers do not interfere

Some policies only watch: they never answer a call and pass every outcome on as it is.  They may
be put into a chain and taken out of it at any place, and a chain may be regrouped, without any
effect on what is parsed.  `Policy.Rearranged` relates chains that differ in this way.  Engines
with such chains take every step together (`Config.Alike.step`), and so they do all the same
when they are given the same tasks.
-/

namespace Packrat

variable {ι α : Type}

def Event.isObservation : Event → Bool
  | .newFarthest _ _ => true
  | .entered _ _ => true
  | .left _ _ _ => true
  | _ => false

namespace Policy

/-- The policy only watches: it traces failures, records calls, or does nothing at all. -/
def Observes : Policy α → Prop
  | .identity => True
  | .tracer _ => True
  | .recorder _ => True
  | _ => False

/--
The chains differ in how they are grouped.  If `inserting` holds, they may also differ in
observers, which are put in or left out at any place.
-/
inductive Rearranged (inserting : Prop) : Policy α → Policy α → Prop where
  | refl (policy : Policy α) : Rearranged inserting policy policy
  | symm {policy other : Policy α} :
      Rearranged inserting policy other → Rearranged inserting other policy
  | trans {policy middle other : Policy α} :
      Rearranged inserting policy middle → Rearranged inserting middle other →
      Rearranged inserting policy other
  | chain {outer outerToo inner innerToo : Policy α} :
      Rearranged inserting outer outerToo → Rearranged inserting inner innerToo →
      Rearranged inserting (.chain outer inner) (.chain outerToo innerToo)
  | regroup (first second third : Policy α) :
      Rearranged inserting (.chain first (.chain second third))
        (.chain (.chain first second) third)
  | outside {observer : Policy α} (policy : Policy α) :
      inserting → observer.Observes → Rearranged inserting policy (.chain observer policy)
  | inside {observer : Policy α} (policy : Policy α) :
      inserting → observer.Observes → Rearranged inserting policy (.chain policy observer)

section Remains

variable {inserting : Prop} {policy other : Policy α}

def limiters : Policy α → List DepthLimiter
  | .depthLimiter limiter => [limiter]
  | .chain outer inner => outer.limiters ++ inner.limiters
  | _ => []

theorem Observes.remembers_nothing {observer : Policy α} (observes : observer.Observes) :
    observer.memoTables = [] ∧ observer.limiters = [] := by
  cases observer with
  | depthLimiter limiter => exact observes.elim
  | memoizer memo => exact observes.elim
  | chain outer inner => exact observes.elim
  | _ => exact ⟨rfl, rfl⟩

/-- What is computed from the parts of a chain, in order, is the same for rearranged chains. -/
theorem Rearranged.view_eq {β : Type} {view : Policy α → β}
    (rearranged : policy.Rearranged inserting other)
    (chain : ∀ outer outerToo inner innerToo, view outer = view outerToo →
      view inner = view innerToo → view (.chain outer inner) = view (.chain outerToo innerToo))
    (regroup : ∀ first second third,
      view (.chain first (.chain second third)) = view (.chain (.chain first second) third))
    (inserted : inserting → ∀ observer policy, Observes observer →
      view policy = view (.chain observer policy) ∧ view policy = view (.chain policy observer)) :
    view policy = view other := by
  induction rearranged with
  | refl policy => rfl
  | symm _ ih => exact ih.symm
  | trans _ _ firstIh secondIh => exact firstIh.trans secondIh
  | chain _ _ outerIh innerIh => exact chain _ _ _ _ outerIh innerIh
  | regroup first second third => exact regroup first second third
  | outside policy inserts observes => exact (inserted inserts _ policy observes).1
  | inside policy inserts observes => exact (inserted inserts _ policy observes).2

theorem Rearranged.memoTables_eq (rearranged : policy.Rearranged inserting other) :
    policy.memoTables = other.memoTables := by
  refine rearranged.view_eq (fun _ _ _ _ outers inners => ?_) (fun _ _ _ => ?_)
    fun _ observer policy observes => ?_
  · rw [memoTables, memoTables, outers, inners]
  · simp only [memoTables, List.append_assoc]
  · rw [memoTables, memoTables, observes.remembers_nothing.1, List.append_nil, List.nil_append]
    exact ⟨rfl, rfl⟩

theorem Rearranged.limiters_eq (rearranged : policy.Rearranged inserting other) :
    policy.limiters = other.limiters := by
  refine rearranged.view_eq (fun _ _ _ _ outers inners => ?_) (fun _ _ _ => ?_)
    fun _ observer policy observes => ?_
  · rw [limiters, limiters, outers, inners]
  · simp only [limiters, List.append_assoc]
  · rw [limiters, limiters, observes.remembers_nothing.2, List.append_nil, List.nil_append]
    exact ⟨rfl, rfl⟩

theorem Rearranged.farthestFailure_eq (rearranged : policy.Rearranged inserting other)
    (regrouped : ¬inserting) : policy.farthestFailure = other.farthestFailure := by
  refine rearranged.view_eq (fun _ _ _ _ outers inners => ?_) (fun _ _ _ => ?_)
    fun inserts => absurd inserts regrouped
  · rw [farthestFailure, farthestFailure, outers, inners]
  · simp only [farthestFailure, Option.or_assoc]

theorem Rearranged.report_eq (rearranged : policy.Rearranged inserting other)
    (regrouped : ¬inserting) : policy.report = other.report := by
  refine rearranged.view_eq (fun _ _ _ _ outers inners => ?_) (fun first second third => ?_)
    fun inserts => absurd inserts regrouped
  · rw [report, report, outers, inners]
  · simp only [report]
    cases first.report <;> cases second.report <;> cases third.report <;>
      simp [String.append_assoc]

end Remains

namespace Observes

variable {observer : Policy α} (observes : observer.Observes) (call : Call)

include observes

theorem leave (outcome : Outcome (Sealed α)) :
    (observer.leave call outcome).outcome = outcome ∧
      (observer.leave call outcome).policy.Observes ∧
      ∀ event ∈ (observer.leave call outcome).events, event.isObservation = true := by
  cases observer with
  | identity => exact ⟨rfl, trivial, nofun⟩
  | recorder name =>
      refine ⟨rfl, trivial, fun event member => ?_⟩
      rw [List.mem_singleton.mp member]
      rfl
  | tracer state =>
      cases outcome with
      | ok matched => exact ⟨rfl, trivial, nofun⟩
      | error mismatch =>
          refine ⟨rfl, trivial, fun event member => ?_⟩
          simp only [Policy.leave] at member
          split at member
          · rw [List.mem_singleton.mp member]
            rfl
          · cases member
  | depthLimiter limiter => exact observes.elim
  | memoizer memo => exact observes.elim
  | chain outer inner => exact observes.elim

theorem enter :
    (observer.enter call).answer = none ∧ (observer.enter call).policy.Observes ∧
      ∀ event ∈ (observer.enter call).events, event.isObservation = true := by
  cases observer with
  | identity => exact ⟨rfl, trivial, nofun⟩
  | tracer state => exact ⟨rfl, trivial, nofun⟩
  | recorder name =>
      refine ⟨rfl, trivial, fun event member => ?_⟩
      rw [List.mem_singleton.mp member]
      rfl
  | depthLimiter limiter => exact observes.elim
  | memoizer memo => exact observes.elim
  | chain outer inner => exact observes.elim

end Observes

end Policy

/-! ## Rearranged chains around a call -/

section Chains

variable {outer inner : Policy α} {call : Call} {outcome : Outcome (Sealed α)}

theorem Policy.enter_chain_of_outer (inner : Policy α)
    (given : (outer.enter call).answer = some outcome) :
    (Policy.chain outer inner).enter call =
      ⟨.chain (outer.enter call).policy inner, (outer.enter call).events, some outcome⟩ := by
  simp only [Policy.enter, given]

theorem Policy.enter_chain_of_inner (missing : (outer.enter call).answer = none)
    (given : (inner.enter call).answer = some outcome) :
    (Policy.chain outer inner).enter call =
      ⟨.chain ((outer.enter call).policy.leave call outcome).policy (inner.enter call).policy,
        (outer.enter call).events ++ (inner.enter call).events ++
          ((outer.enter call).policy.leave call outcome).events,
        some ((outer.enter call).policy.leave call outcome).outcome⟩ := by
  simp only [Policy.enter, missing, given]

theorem Policy.enter_chain_of_none (missing : (outer.enter call).answer = none)
    (missingToo : (inner.enter call).answer = none) :
    (Policy.chain outer inner).enter call =
      ⟨.chain (outer.enter call).policy (inner.enter call).policy,
        (outer.enter call).events ++ (inner.enter call).events, none⟩ := by
  simp only [Policy.enter, missing, missingToo]

end Chains

/-- The ends of a call differ in the arrangement of the policies and in events that are not kept. -/
structure Exit.Alike (inserting : Prop) (keep : Event → Bool) (exit other : Exit α) : Prop where
  policy : exit.policy.Rearranged inserting other.policy
  events : exit.events.filter keep = other.events.filter keep
  outcome : exit.outcome = other.outcome

structure Entry.Alike (inserting : Prop) (keep : Event → Bool) (entry other : Entry α) :
    Prop where
  policy : entry.policy.Rearranged inserting other.policy
  events : entry.events.filter keep = other.events.filter keep
  answer : entry.answer = other.answer

/-- Where observers may be inserted, none of the events that they put on record is kept. -/
def Hides (inserting : Prop) (keep : Event → Bool) : Prop :=
  inserting → ∀ event : Event, event.isObservation = true → keep event = false

section Calls

variable {inserting : Prop} {keep : Event → Bool}

theorem Hides.filter_eq_nil (hides : Hides inserting keep) (inserts : inserting)
    {events : List Event} (observed : ∀ event ∈ events, event.isObservation = true) :
    events.filter keep = [] := by
  refine List.filter_eq_nil_iff.mpr fun event member kept => ?_
  rw [hides inserts event (observed event member)] at kept
  cases kept

namespace Policy.Rearranged

variable {policy other : Policy α} (rearranged : policy.Rearranged inserting other)
  (hides : Hides inserting keep) (call : Call)

include rearranged hides

/-- Rearranged chains return the same outcome. -/
theorem leave (outcome : Outcome (Sealed α)) :
    (policy.leave call outcome).Alike inserting keep (other.leave call outcome) := by
  induction rearranged generalizing outcome with
  | refl policy => exact ⟨.refl _, rfl, rfl⟩
  | symm _ ih =>
      obtain ⟨policies, events, outcomes⟩ := ih outcome
      exact ⟨policies.symm, events.symm, outcomes.symm⟩
  | trans _ _ firstIh secondIh =>
      obtain ⟨policies, events, outcomes⟩ := firstIh outcome
      obtain ⟨policiesToo, eventsToo, outcomesToo⟩ := secondIh outcome
      exact ⟨policies.trans policiesToo, events.trans eventsToo, outcomes.trans outcomesToo⟩
  | @chain outer outerToo inner innerToo _ _ outerIh innerIh =>
      obtain ⟨innerPolicies, innerEvents, innerOutcomes⟩ := innerIh outcome
      obtain ⟨outerPolicies, outerEvents, outerOutcomes⟩ :=
        outerIh (innerToo.leave call outcome).outcome
      simp only [Policy.leave, innerOutcomes]
      refine ⟨.chain outerPolicies innerPolicies, ?_, outerOutcomes⟩
      rw [List.filter_append, List.filter_append, innerEvents, outerEvents]
  | regroup first second third =>
      exact ⟨.regroup _ _ _, by simp only [Policy.leave, List.append_assoc], rfl⟩
  | @outside observer policy inserts observes =>
      obtain ⟨same, observesToo, observed⟩ :=
        observes.leave call (policy.leave call outcome).outcome
      refine ⟨.outside _ inserts observesToo, ?_, same.symm⟩
      rw [Policy.leave, List.filter_append, hides.filter_eq_nil inserts observed, List.append_nil]
  | @inside observer policy inserts observes =>
      obtain ⟨same, observesToo, observed⟩ := observes.leave call outcome
      simp only [Policy.leave, same]
      refine ⟨.inside _ inserts observesToo, ?_, rfl⟩
      rw [List.filter_append, hides.filter_eq_nil inserts observed, List.nil_append]

end Policy.Rearranged

section Entries

variable {call : Call}

/-- Chains of rearranged policies start a call alike if both of their parts do. -/
theorem Entry.Alike.chain {outer outerToo inner innerToo : Policy α}
    (hides : Hides inserting keep)
    (outers : (outer.enter call).Alike inserting keep (outerToo.enter call))
    (inners : (inner.enter call).Alike inserting keep (innerToo.enter call))
    (rearranged : inner.Rearranged inserting innerToo) :
    ((Policy.chain outer inner).enter call).Alike inserting keep
      ((Policy.chain outerToo innerToo).enter call) := by
  obtain ⟨outerPolicies, outerEvents, outerAnswers⟩ := outers
  obtain ⟨innerPolicies, innerEvents, innerAnswers⟩ := inners
  cases given : (outer.enter call).answer with
  | some outcome =>
      rw [Policy.enter_chain_of_outer _ given,
        Policy.enter_chain_of_outer _ (outerAnswers.symm.trans given)]
      exact ⟨.chain outerPolicies rearranged, outerEvents, rfl⟩
  | none =>
      have givenToo := outerAnswers.symm.trans given
      cases answer : (inner.enter call).answer with
      | none =>
          rw [Policy.enter_chain_of_none given answer,
            Policy.enter_chain_of_none givenToo (innerAnswers.symm.trans answer)]
          refine ⟨.chain outerPolicies innerPolicies, ?_, rfl⟩
          rw [List.filter_append, List.filter_append, outerEvents, innerEvents]
      | some outcome =>
          rw [Policy.enter_chain_of_inner given answer,
            Policy.enter_chain_of_inner givenToo (innerAnswers.symm.trans answer)]
          obtain ⟨lastPolicies, lastEvents, lastOutcomes⟩ :=
            outerPolicies.leave hides call outcome
          refine ⟨.chain lastPolicies innerPolicies, ?_, congrArg some lastOutcomes⟩
          simp only [List.filter_append, outerEvents, innerEvents, lastEvents]

theorem Entry.Alike.regroup (first second third : Policy α) :
    ((Policy.chain first (.chain second third)).enter call).Alike inserting keep
      ((Policy.chain (.chain first second) third).enter call) := by
  cases firstAnswer : (first.enter call).answer with
  | some outcome =>
      have both := Policy.enter_chain_of_outer second firstAnswer
      rw [Policy.enter_chain_of_outer _ firstAnswer,
        Policy.enter_chain_of_outer _ (congrArg Entry.answer both), both]
      exact ⟨.regroup _ _ _, rfl, rfl⟩
  | none =>
      cases secondAnswer : (second.enter call).answer with
      | some outcome =>
          have one := Policy.enter_chain_of_outer third secondAnswer
          have two := Policy.enter_chain_of_inner firstAnswer secondAnswer
          rw [Policy.enter_chain_of_inner firstAnswer (congrArg Entry.answer one),
            Policy.enter_chain_of_outer _ (congrArg Entry.answer two), one, two]
          exact ⟨.regroup _ _ _, rfl, rfl⟩
      | none =>
          have two := Policy.enter_chain_of_none firstAnswer secondAnswer
          cases thirdAnswer : (third.enter call).answer with
          | some outcome =>
              have one := Policy.enter_chain_of_inner secondAnswer thirdAnswer
              rw [Policy.enter_chain_of_inner firstAnswer (congrArg Entry.answer one),
                Policy.enter_chain_of_inner (congrArg Entry.answer two) thirdAnswer, one, two]
              refine ⟨.regroup _ _ _, ?_, rfl⟩
              simp only [Policy.leave, List.append_assoc]
          | none =>
              have one := Policy.enter_chain_of_none secondAnswer thirdAnswer
              rw [Policy.enter_chain_of_none firstAnswer (congrArg Entry.answer one),
                Policy.enter_chain_of_none (congrArg Entry.answer two) thirdAnswer, one, two]
              refine ⟨.regroup _ _ _, ?_, rfl⟩
              simp only [List.append_assoc]

variable {observer : Policy α}

theorem Entry.Alike.outside (hides : Hides inserting keep) (inserts : inserting)
    (observes : observer.Observes) (policy : Policy α) :
    (policy.enter call).Alike inserting keep ((Policy.chain observer policy).enter call) := by
  obtain ⟨missing, observesToo, observed⟩ := observes.enter call
  have none := hides.filter_eq_nil inserts observed
  cases answer : (policy.enter call).answer with
  | none =>
      rw [Policy.enter_chain_of_none missing answer]
      refine ⟨.outside _ inserts observesToo, ?_, answer⟩
      rw [List.filter_append, none, List.nil_append]
  | some outcome =>
      obtain ⟨same, observesLast, observedLast⟩ := observesToo.leave call outcome
      rw [Policy.enter_chain_of_inner missing answer]
      refine ⟨.outside _ inserts observesLast, ?_, ?_⟩
      · rw [List.filter_append, List.filter_append, none, List.nil_append,
          hides.filter_eq_nil inserts observedLast, List.append_nil]
      · rw [answer, same]

theorem Entry.Alike.inside (hides : Hides inserting keep) (inserts : inserting)
    (observes : observer.Observes) (policy : Policy α) :
    (policy.enter call).Alike inserting keep ((Policy.chain policy observer).enter call) := by
  obtain ⟨missing, observesToo, observed⟩ := observes.enter call
  cases answer : (policy.enter call).answer with
  | none =>
      rw [Policy.enter_chain_of_none answer missing]
      refine ⟨.inside _ inserts observesToo, ?_, answer⟩
      rw [List.filter_append, hides.filter_eq_nil inserts observed, List.append_nil]
  | some outcome =>
      rw [Policy.enter_chain_of_outer _ answer]
      exact ⟨.inside _ inserts observes, rfl, answer⟩

end Entries

/-- Rearranged chains answer the same calls with the same outcomes. -/
theorem Policy.Rearranged.enter {policy other : Policy α}
    (rearranged : policy.Rearranged inserting other) (hides : Hides inserting keep)
    (call : Call) : (policy.enter call).Alike inserting keep (other.enter call) := by
  induction rearranged with
  | refl policy => exact ⟨.refl _, rfl, rfl⟩
  | symm _ ih =>
      obtain ⟨policies, events, answers⟩ := ih
      exact ⟨policies.symm, events.symm, answers.symm⟩
  | trans _ _ firstIh secondIh =>
      obtain ⟨policies, events, answers⟩ := firstIh
      obtain ⟨policiesToo, eventsToo, answersToo⟩ := secondIh
      exact ⟨policies.trans policiesToo, events.trans eventsToo, answers.trans answersToo⟩
  | chain _ innerRearranged outerIh innerIh =>
      exact .chain hides outerIh innerIh innerRearranged
  | regroup first second third => exact .regroup first second third
  | outside policy inserts observes => exact .outside hides inserts observes policy
  | inside policy inserts observes => exact .inside hides inserts observes policy

end Calls

/-! ## The simulation -/

structure State.Alike (inserting : Prop) (keep : Event → Bool) (state other : State α) :
    Prop where
  cursor : state.cursor = other.cursor
  policy : state.policy.Rearranged inserting other.policy
  journal : state.journal.filter keep = other.journal.filter keep

structure Config.Alike (inserting : Prop) (keep : Event → Bool) (config other : Config ι α) :
    Prop where
  control : config.control = other.control
  stack : config.stack = other.stack
  state : config.state.Alike inserting keep other.state

inductive Progress.Alike (inserting : Prop) (keep : Event → Bool) :
    Progress ι α → Progress ι α → Prop where
  | next {config other : Config ι α} :
      config.Alike inserting keep other → Alike inserting keep (.next config) (.next other)
  | halt {state other : State α} (halt : Halt α) :
      state.Alike inserting keep other → Alike inserting keep (.halt halt state) (.halt halt other)

section Simulation

variable {inserting : Prop} {keep : Event → Bool} {state other : State α}

theorem State.filter_record (state : State α) (events : List Event) (keep : Event → Bool) :
    (state.record events).journal.filter keep =
      (events.filter keep).reverse ++ state.journal.filter keep := by
  rw [State.record, List.foldl_flip_cons_eq_append', List.filter_append, List.filter_reverse]

namespace State.Alike

theorem moveTo (alike : state.Alike inserting keep other) (position : Nat) :
    (state.moveTo position).Alike inserting keep (other.moveTo position) :=
  ⟨rfl, alike.policy, alike.journal⟩

theorem record (alike : state.Alike inserting keep other) {policy policyToo : Policy α}
    (rearranged : policy.Rearranged inserting policyToo) {events eventsToo : List Event}
    (same : events.filter keep = eventsToo.filter keep) :
    (State.record ⟨state.cursor, policy, state.journal⟩ events).Alike inserting keep
      (State.record ⟨other.cursor, policyToo, other.journal⟩ eventsToo) where
  cursor := alike.cursor
  policy := rearranged
  journal := by rw [filter_record, filter_record, same, alike.journal]

theorem settle (alike : state.Alike inserting keep other) (call : Call) (kind : Kind)
    (outcome : Outcome (Sealed α)) :
    (settle call kind outcome state).1 = (settle call kind outcome other).1 ∧
      (settle call kind outcome state).2.Alike inserting keep
        (settle call kind outcome other).2 := by
  cases outcome with
  | error mismatch => exact ⟨rfl, alike.moveTo _⟩
  | ok matched =>
      simp only [Packrat.settle]
      split
      · exact ⟨rfl, alike.moveTo _⟩
      · exact ⟨rfl, (alike.record alike.policy rfl).moveTo _⟩

theorem conclude (hides : Hides inserting keep) (alike : state.Alike inserting keep other)
    (call : Call) (kind : Kind) (outcome : Outcome (Sealed α)) :
    (conclude call kind outcome state).1 = (conclude call kind outcome other).1 ∧
      (conclude call kind outcome state).2.Alike inserting keep
        (conclude call kind outcome other).2 := by
  obtain ⟨policies, events, outcomes⟩ := alike.policy.leave hides call outcome
  rw [Packrat.conclude, Packrat.conclude, outcomes]
  exact (alike.record policies events).settle call kind _

end State.Alike

theorem Config.endBody_alike (hides : Hides inserting keep)
    (alike : state.Alike inserting keep other) (result : Result α) (stack : List (Frame ι α)) :
    (endBody result stack state).Alike inserting keep (endBody result stack other) := by
  unfold endBody
  split
  · next call kind rest =>
      rw [← alike.cursor]
      split
      · next outcome _ =>
          rw [endCall_eq, endCall_eq]
          obtain ⟨outcomes, states⟩ := alike.conclude hides call kind outcome
          exact .next ⟨congrArg Control.answer outcomes, rfl, states⟩
      · exact .halt _ alike
  · exact .halt _ alike

theorem Config.endDeed?_alike (hides : Hides inserting keep)
    (alike : state.Alike inserting keep other) (result : Result α) (stack : List (Frame ι α)) :
    endDeed? result stack state = endDeed? result stack other := by
  unfold endDeed?
  split
  · next call kind rest =>
      rw [← alike.cursor]
      split
      · next made _ => rw [(alike.policy.leave hides call made).outcome]
      · rfl
  · rfl

variable [Input ι]

theorem Config.beginCall_alike (hides : Hides inserting keep)
    (alike : state.Alike inserting keep other) (setting : Setting ι α) (parser : Parser ι α)
    (stack : List (Frame ι α)) :
    (beginCall setting parser stack state).Alike inserting keep
      (beginCall setting parser stack other) := by
  have entries : (setting.entry parser state).Alike inserting keep
      (setting.entry parser other) := by
    rw [Setting.entry, Setting.entry, ← alike.cursor]
    exact alike.policy.enter hides _
  have entered : (setting.entered parser state).Alike inserting keep
      (setting.entered parser other) := alike.record entries.policy entries.events
  cases answer : (setting.entry parser state).answer with
  | some outcome =>
      have answerToo := entries.answer.symm.trans answer
      rw [beginCall_of_answer setting parser stack state answer,
        beginCall_of_answer setting parser stack other answerToo, ← alike.cursor]
      obtain ⟨outcomes, states⟩ := entered.settle _ parser.kind outcome
      exact ⟨congrArg Control.answer outcomes, rfl, states⟩
  | none =>
      have answerToo := entries.answer.symm.trans answer
      rw [beginCall_of_no_answer setting parser stack state answer,
        beginCall_of_no_answer setting parser stack other answerToo, ← alike.cursor]
      exact ⟨rfl, rfl, entered⟩

/-- Engines that are alike take every step together, unless a body inspects the policies. -/
theorem Config.Alike.step (hides : Hides inserting keep) {config configToo : Config ι α}
    (alike : config.Alike inserting keep configToo) (setting : Setting ι α)
    {pieces : Pieces ι α}
    (composed : config.control.Over (Parser.Composed pieces) pieces.finish pieces.event) :
    (config.step setting).Alike inserting keep (configToo.step setting) := by
  obtain ⟨control, stack, state⟩ := config
  obtain ⟨controlToo, stackToo, other⟩ := configToo
  obtain ⟨rfl, rfl, alike⟩ := alike
  cases control with
  | call parser => exact .next (beginCall_alike hides alike setting parser stack)
  | body parser =>
      refine .next ⟨congrArg Control.move ?_, rfl, alike⟩
      exact Parser.Composed.start_congr composed alike.cursor
  | move move =>
      cases move with
      | reply result => exact endBody_alike hides alike result stack
      | read symbol stop => exact endBody_alike hides (alike.moveTo stop) (.ok symbol) stack
      | call parser pending => exact .next ⟨rfl, rfl, alike⟩
      | become events parser => exact .next ⟨rfl, rfl, alike.record alike.policy rfl⟩
      | abort fault => exact .halt _ alike
  | answer outcome =>
      match stack with
      | [] => exact .halt _ alike
      | .active call kind :: rest => exact .halt _ alike
      | .waiting pending :: rest => exact .next ⟨rfl, rfl, alike⟩

theorem Config.Alike.deed?_eq (hides : Hides inserting keep) {config configToo : Config ι α}
    (alike : config.Alike inserting keep configToo) (setting : Setting ι α) :
    config.deed? setting = configToo.deed? setting := by
  obtain ⟨control, stack, state⟩ := config
  obtain ⟨controlToo, stackToo, other⟩ := configToo
  obtain ⟨rfl, rfl, alike⟩ := alike
  cases control with
  | call parser =>
      simp only [deed?]
      rw [← alike.cursor, (alike.policy.enter hides _).answer]
  | body parser => rfl
  | answer outcome => rfl
  | move move =>
      cases move with
      | reply result => exact endDeed?_alike hides alike result stack
      | read symbol stop => exact endDeed?_alike hides (alike.moveTo stop) (.ok symbol) stack
      | call parser pending => rfl
      | become events parser => rfl
      | abort fault => rfl

end Simulation

structure Task.Uninspecting (task : Task ι α) : Prop where
  arena : task.arena.Composed .unrestricted
  parser : task.parser.Composed .unrestricted

/-- Two configurations agree in all that observers have no part in. -/
structure Config.Agrees (config other : Config ι α) : Prop where
  control : config.control = other.control
  stack : config.stack = other.stack
  cursor : config.state.cursor = other.state.cursor
  memoTables : config.state.policy.memoTables = other.state.policy.memoTables
  limiters : config.state.policy.limiters = other.state.policy.limiters
  journal : config.state.journal.filter (!·.isObservation) =
    other.state.journal.filter (!·.isObservation)

structure State.ObservedAlike (state other : State α) : Prop where
  journal : state.journal = other.journal
  farthestFailure : state.policy.farthestFailure = other.policy.farthestFailure
  report : state.policy.report = other.policy.report

section Tasks

variable {inserting : Prop} {keep : Event → Bool}

/-- The events that are the same under rearranged policies. -/
theorem exists_hides (inserting : Prop) : ∃ keep : Event → Bool, Hides inserting keep ∧
    (∀ event : Event, event.isObservation = false → keep event = true) ∧
    (¬inserting → ∀ event, keep event = true) := by
  by_cases inserts : inserting
  · refine ⟨(!·.isObservation), fun _ event observation => ?_, fun event other => ?_,
      fun regrouped => absurd inserts regrouped⟩
    · exact congrArg (!·) observation
    · exact congrArg (!·) other
  · exact ⟨fun _ => true, fun given => absurd given inserts, fun _ _ => rfl, fun _ _ => rfl⟩

theorem Config.Alike.agrees {config other : Config ι α}
    (alike : config.Alike inserting keep other)
    (keeps : ∀ event : Event, event.isObservation = false → keep event = true) :
    other.Agrees config where
  control := alike.control.symm
  stack := alike.stack.symm
  cursor := alike.state.cursor.symm
  memoTables := alike.state.policy.memoTables_eq.symm
  limiters := alike.state.policy.limiters_eq.symm
  journal := by
    have within (journal : List Event) : (journal.filter keep).filter (!·.isObservation) =
        journal.filter (!·.isObservation) := by
      rw [List.filter_filter]
      refine List.filter_congr fun event _ => ?_
      cases observation : event.isObservation with
      | true => rfl
      | false => rw [keeps event observation]; rfl
    rw [← within, ← within config.state.journal, alike.state.journal]

theorem State.Alike.observedAlike {state other : State α}
    (alike : state.Alike inserting keep other) (regrouped : ¬inserting)
    (keeps : ∀ event, keep event = true) : other.ObservedAlike state where
  journal := by
    have whole (journal : List Event) : journal.filter keep = journal :=
      List.filter_eq_self.mpr fun event _ => keeps event
    rw [← whole other.journal, ← whole state.journal, alike.journal]
  farthestFailure := (alike.policy.farthestFailure_eq regrouped).symm
  report := (alike.policy.report_eq regrouped).symm

variable [Input ι] {input : ι} {policy other : Policy α} {tasks : List (Task ι α)}
  {history : List (Deed α)} {config : Config ι α}

/-- No body inspects the policies as long as no task does. -/
theorem Serves.over (uninspecting : ∀ task ∈ tasks, task.Uninspecting)
    (serves : Serves input policy tasks history config) :
    config.Over (Parser.Composed .unrestricted) (Pieces.unrestricted : Pieces ι α).finish
      (Pieces.unrestricted : Pieces ι α).event := by
  induction serves with
  | first task => exact ⟨(uninspecting task List.mem_cons_self).parser, nofun⟩
  | @step task tasks history config next _ edge ih =>
      have arena : (Setting.mk input task.arena).arena.Composed .unrestricted :=
        (uninspecting task List.mem_cons_self).arena
      exact (ih uninspecting).step Parser.Composed.ignoreThen
        (fun parser composed state => composed.start arena state) edge
  | next task _ _ => exact ⟨(uninspecting task List.mem_cons_self).parser, nofun⟩

/-- An engine with rearranged policies serves the same tasks with the same history. -/
theorem Serves.alike (hides : Hides inserting keep)
    (rearranged : policy.Rearranged inserting other)
    (uninspecting : ∀ task ∈ tasks, task.Uninspecting)
    (serves : Serves input policy tasks history config) :
    ∃ configToo, Serves input other tasks history configToo ∧
      config.Alike inserting keep configToo := by
  induction serves with
  | first task =>
      exact ⟨_, .first task, rfl, rfl, rfl, rearranged, rfl⟩
  | @step task tasks history config next serves edge ih =>
      obtain ⟨configToo, servesToo, alike⟩ := ih uninspecting
      have steps := alike.step hides ⟨input, task.arena⟩ (serves.over uninspecting).control
      rw [alike.deed?_eq hides]
      generalize after : configToo.step ⟨input, task.arena⟩ = progress at steps
      rw [edge] at steps
      cases steps with
      | next alikeToo => exact ⟨_, servesToo.step after, alikeToo⟩
  | @next tasks history outcome state task _ ih =>
      obtain ⟨⟨control, stack, other⟩, servesToo, rfl, rfl, alike⟩ :=
        ih fun one member => uninspecting one (List.mem_cons_of_mem task member)
      exact ⟨_, servesToo.next task, rfl, rfl, alike.moveTo task.position⟩

end Tasks

/--
Let two engines whose policies are rearranged be given the same tasks, none of which inspects the
policies.  Whatever the one comes to, the other comes to with the same history and the same
control, stack, cursor, memo tables and counts of active calls, and with the same events on
record but for those of observers; and if the one then halts, so does the other in the same way.
If no observer was inserted, all events, the farthest failure and the report are the same too.
-/
theorem observers_do_not_interfere [Input ι] (input : ι) (inserting : Prop)
    (policy other : Policy α) (rearranged : policy.Rearranged inserting other)
    (tasks : List (Task ι α)) (uninspecting : ∀ task ∈ tasks, task.Uninspecting)
    (history : List (Deed α)) (config : Config ι α)
    (serves : Serves input policy tasks history config) :
    ∃ configToo, Serves input other tasks history configToo ∧ configToo.Agrees config ∧
      (¬inserting → configToo.state.ObservedAlike config.state) ∧
      ∀ task ∈ tasks.head?, ∀ halt final, config.step ⟨input, task.arena⟩ = .halt halt final →
        ∃ finalToo, configToo.step ⟨input, task.arena⟩ = .halt halt finalToo := by
  obtain ⟨keep, hides, keeps, keepsAll⟩ := exists_hides inserting
  obtain ⟨configToo, servesToo, alike⟩ := serves.alike hides rearranged uninspecting
  refine ⟨configToo, servesToo, alike.agrees keeps,
    fun regrouped => alike.state.observedAlike regrouped (keepsAll regrouped), ?_⟩
  intro task _ halt final halted
  have steps := alike.step hides ⟨input, task.arena⟩ (serves.over uninspecting).control
  generalize after : configToo.step ⟨input, task.arena⟩ = progress at steps ⊢
  rw [halted] at steps
  cases steps with
  | halt _ _ => exact ⟨_, rfl⟩

/-- The standard policies with a recorder behind the tracer and an idle policy inside. -/
def watchedPolicy : Policy Unit :=
  .chain (.chain (.tracer .empty) (.recorder "calls"))
    (.chain (.depthLimiter .empty) (.chain (.memoizer .empty) .identity))

def balancedTask : Task (Array Char) Unit := ⟨.empty, .recursive ⟨"letters"⟩ balanced, 0⟩

theorem observers_do_not_interfere_balanced : ∃ history final finalToo,
    Serves #['a'] .standard [balancedTask] history
      ⟨.answer (.ok ⟨.character 'a', ⟨0, 1⟩⟩), [], final⟩ ∧
    Serves #['a'] watchedPolicy [balancedTask] history
      ⟨.answer (.ok ⟨.character 'a', ⟨0, 1⟩⟩), [], finalToo⟩ ∧
    finalToo.policy.memoTables = final.policy.memoTables ∧
    finalToo.policy.limiters = final.policy.limiters := by
  have composed : balanced.Composed .untagged :=
    balanced_composed fun c => .terminal (TokenTerminal.oneToken _ _)
  have uninspecting : balancedTask.Uninspecting :=
    ⟨Arena.empty_composed _, .recursive trivial (balanced_composed fun c => .terminal trivial)⟩
  have plain : (Setting.mk #['a'] .empty).runMatch 109 balancedTask.parser (.plain 0) =
      .done (.ok ⟨.character 'a', ⟨0, 1⟩⟩) (.plain 1) := by
    cbv
  obtain ⟨history, final, serves⟩ :=
    Serves.recursive composed (Policy.standard_fresh : (Policy.standard : Policy Unit).Fresh) plain
  have rearranged : (Policy.standard : Policy Unit).Rearranged True watchedPolicy :=
    .chain (.inside _ trivial trivial) (.chain (.refl _) (.inside _ trivial trivial))
  obtain ⟨⟨control, stack, finalToo⟩, servesToo, agrees, -, -⟩ :=
    observers_do_not_interfere #['a'] True .standard watchedPolicy rearranged [balancedTask]
      (fun task member => by
        rw [List.mem_singleton.mp member]
        exact uninspecting) history _ serves
  obtain rfl : control = .answer (.ok ⟨.character 'a', ⟨0, 1⟩⟩) := agrees.control
  obtain rfl : stack = [] := agrees.stack
  exact ⟨history, final, finalToo, serves, servesToo, agrees.memoTables, agrees.limiters⟩

end Packrat
