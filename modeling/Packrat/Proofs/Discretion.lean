import Packrat.Proofs.CallLogs
import Packrat.Proofs.Observers
import Packrat.Proofs.WholeInput
import Packrat.Workbench.Grammar

/-!
# Discreet bodies

A body may look at what the policies remember.  It is discreet if it asks neither which untagged
calls are active nor which failures were traced: the memo tables, the counts of active calls and
the tagged calls in a trace are all that it sees.  Whether one untagged call is active or two is
then of no importance to what is run inside of them.

Two chains of one shape have the same outline if they differ in nothing else.  `Policy.Above`
says in addition that they will have the same outline again when calls that are active have
ended.  Whatever discreet parsers do on an engine with the one chain they do on an engine with
the other, and they make the same calls (`Ends.mirrored`).
-/

namespace Packrat

variable {ι α : Type}

def addGap : List (Option TraceFrame) → List (Option TraceFrame)
  | none :: rest => none :: rest
  | outline => none :: outline

def pushOutline : List (Option TraceFrame) → Nat → Option Tag → List (Option TraceFrame)
  | outline, _, none => addGap outline
  | some frame :: rest, position, some tag =>
      if frame.position = position ∧ frame.tag = some tag then
        some { frame with depth := frame.depth + 1 } :: rest
      else
        some ⟨position, some tag, 1⟩ :: some frame :: rest
  | outline, position, some tag => some ⟨position, some tag, 1⟩ :: outline

namespace Trace

/-- The tagged frames of a trace, with a gap where untagged calls are active. -/
def outline : Trace → List (Option TraceFrame)
  | [] => []
  | frame :: rest =>
      match frame.tag with
      | some _ => some frame :: outline rest
      | none => addGap (outline rest)

theorem addGap_addGap (outline : List (Option TraceFrame)) :
    addGap (addGap outline) = addGap outline := by
  match outline with
  | [] => rfl
  | none :: rest => rfl
  | some frame :: rest => rfl

theorem addGap_of_head {outline : List (Option TraceFrame)} (gap : outline.head? = some none) :
    addGap outline = outline := by
  match outline with
  | none :: rest => rfl

theorem outline_push (trace : Trace) (position : Nat) (tag : Option Tag) :
    (trace.push position tag).outline = pushOutline trace.outline position tag := by
  cases trace with
  | nil => cases tag <;> rfl
  | cons frame rest =>
      obtain ⟨place, name, depth⟩ := frame
      cases name with
      | none =>
          cases tag with
          | none =>
              by_cases same : place = position
              · simp [push, same, outline, pushOutline, addGap_addGap]
              · simp [push, same, outline, pushOutline]
          | some tag =>
              simp only [push, outline, reduceCtorEq, and_false, if_false]
              rcases outline rest with _ | ⟨_ | _, _⟩ <;> rfl
      | some name =>
          cases tag with
          | none => simp [push, outline, pushOutline]
          | some tag =>
              by_cases same : place = position ∧ name = tag
              · simp [push, same, outline, pushOutline]
              · simp [push, same, outline, pushOutline]

/-- What a trace says in words depends on its outline only. -/
theorem text_eq_of_outline {trace other : Trace} (same : trace.outline = other.outline) :
    trace.text = other.text := by
  have shown (trace : Trace) :
      trace.filter (fun frame => frame.tag.isSome) = trace.outline.filterMap id := by
    induction trace with
    | nil => rfl
    | cons frame rest ih =>
        cases tagged : frame.tag with
        | some name => simp [outline, tagged, ih]
        | none =>
            simp only [outline, tagged, List.filter_cons, Option.isSome_none, ih]
            rcases outline rest with _ | ⟨_ | _, _⟩ <;> rfl
  rw [text, text, shown, shown, same]

/-- Every frame counts a call at least. -/
def Deep (trace : Trace) : Prop := ∀ frame ∈ trace, 0 < frame.depth

theorem Deep.push {trace : Trace} (deep : trace.Deep) (position : Nat) (tag : Option Tag) :
    (trace.push position tag).Deep := by
  cases trace with
  | nil =>
      intro frame member
      cases List.mem_singleton.mp member
      exact Nat.one_pos
  | cons first rest =>
      rw [Trace.push]
      split
      · intro frame member
        rcases List.mem_cons.mp member with rfl | member
        · exact Nat.succ_pos _
        · exact deep frame (List.mem_cons_of_mem first member)
      · intro frame member
        rcases List.mem_cons.mp member with rfl | member
        · exact Nat.one_pos
        · exact deep frame member

theorem Deep.pop {trace : Trace} (deep : trace.Deep) : trace.pop.Deep := by
  cases trace with
  | nil => exact deep
  | cons first rest =>
      rw [Trace.pop]
      split
      · next more =>
          intro frame member
          rcases List.mem_cons.mp member with rfl | member
          · exact Nat.sub_pos_of_lt more
          · exact deep frame (List.mem_cons_of_mem first member)
      · exact fun frame member => deep frame (List.mem_cons_of_mem first member)

/--
The traces show the same calls on top of two traces that end in a gap and have the same outline.
-/
inductive Above : List Call → Trace → Trace → Prop where
  | gap {trace other : Trace} :
      trace.outline = other.outline → trace.outline.head? = some none → trace.Deep →
      other.Deep → Above [] trace other
  | call {calls : List Call} {trace other : Trace} (call : Call) :
      Above calls trace other →
      Above (call :: calls) (trace.push call.position call.tag)
        (other.push call.position call.tag)

namespace Above

variable {calls : List Call} {trace other : Trace}

theorem outline (above : Above calls trace other) : trace.outline = other.outline := by
  induction above with
  | gap same _ _ _ => exact same
  | call call _ ih => rw [outline_push, outline_push, ih]

theorem symm (above : Above calls trace other) : Above calls other trace := by
  induction above with
  | gap same ends deep deepToo => exact .gap same.symm (same ▸ ends) deepToo deep
  | call call _ ih => exact .call call ih

theorem deep (above : Above calls trace other) : trace.Deep := by
  induction above with
  | gap _ _ deep _ => exact deep
  | call call _ ih => exact ih.push _ _

theorem pop {call : Call} (above : Above (call :: calls) trace other) :
    Above calls trace.pop other.pop := by
  cases above with
  | call call above =>
      rw [pop_push above.deep, pop_push above.symm.deep]
      exact above

theorem push_untagged (above : Above [] trace other) (position : Nat) :
    Above [] trace (other.push position none) := by
  cases above with
  | gap same ends deep deepToo =>
      refine .gap ?_ ends deep (deepToo.push position none)
      rw [outline_push, ← same]
      exact (addGap_of_head ends).symm

end Above

end Trace

namespace Policy

/-- The policies are the same but for their tracers, which are related. -/
def Related (tracers : Tracer → Tracer → Prop) : Policy α → Policy α → Prop
  | .identity, .identity => True
  | .tracer state, .tracer other => tracers state other
  | .depthLimiter state, .depthLimiter other => state = other
  | .memoizer state, .memoizer other => state = other
  | .recorder name, .recorder other => name = other
  | .chain outer inner, .chain outerToo innerToo =>
      outer.Related tracers outerToo ∧ inner.Related tracers innerToo
  | _, _ => False

/-- The traces of the policies have the same outlines, and all else that they hold is the same. -/
def Outlined : Policy α → Policy α → Prop :=
  Related fun tracer other => tracer.stack.outline = other.stack.outline

/-- In the traces of the policies the same calls are active inside of untagged ones. -/
def Above (calls : List Call) : Policy α → Policy α → Prop :=
  Related fun tracer other => tracer.stack.Above calls other.stack

section Related

variable {tracers tracersToo : Tracer → Tracer → Prop} {policy other : Policy α}

theorem Related.imp (implies : ∀ tracer other, tracers tracer other → tracersToo tracer other)
    (related : policy.Related tracers other) : policy.Related tracersToo other := by
  induction policy generalizing other with
  | chain outer inner outerIh innerIh =>
      cases other with
      | chain outerToo innerToo => exact ⟨outerIh related.1, innerIh related.2⟩
      | _ => exact related.elim
  | tracer state =>
      cases other with
      | tracer stateToo => exact implies _ _ related
      | _ => exact related.elim
  | _ => cases other <;> first | exact related.elim | exact related

theorem Related.symm (symm : ∀ tracer other, tracers tracer other → tracers other tracer)
    (related : policy.Related tracers other) : other.Related tracers policy := by
  induction policy generalizing other with
  | chain outer inner outerIh innerIh =>
      cases other with
      | chain outerToo innerToo => exact ⟨outerIh related.1, innerIh related.2⟩
      | _ => exact related.elim
  | tracer state =>
      cases other with
      | tracer stateToo => exact symm _ _ related
      | _ => exact related.elim
  | _ => cases other <;> first | exact related.elim | exact Eq.symm related | exact related

/-- Related policies remember the same and count the same active calls. -/
theorem Related.tables (related : policy.Related tracers other) :
    policy.memoTables = other.memoTables ∧ policy.limiters = other.limiters := by
  induction policy generalizing other with
  | chain outer inner outerIh innerIh =>
      cases other with
      | chain outerToo innerToo =>
          obtain ⟨outerTables, outerLimiters⟩ := outerIh related.1
          obtain ⟨innerTables, innerLimiters⟩ := innerIh related.2
          simp only [memoTables, limiters, outerTables, innerTables, outerLimiters, innerLimiters,
            and_self]
      | _ => exact related.elim
  | _ =>
      cases other <;> first
        | exact related.elim
        | exact ⟨rfl, rfl⟩
        | (cases related; exact ⟨rfl, rfl⟩)

end Related

variable {calls : List Call} {policy other : Policy α}

theorem Above.outlined (above : policy.Above calls other) : policy.Outlined other :=
  Related.imp (fun _ _ => Trace.Above.outline) above

theorem Above.symm (above : policy.Above calls other) : other.Above calls policy :=
  Related.symm (fun _ _ => Trace.Above.symm) above

end Policy

/-! ## Calls of policies with one outline -/

/-- The starts of a call differ in untagged frames and in what observers put on record. -/
structure Entry.Mirrored (calls : List Call) (call : Call) (entry other : Entry α) : Prop where
  answer : entry.answer = other.answer
  events : entry.events.filter (!·.isObservation) = other.events.filter (!·.isObservation)
  started : entry.answer = none → entry.policy.Above (call :: calls) other.policy
  answered : entry.answer ≠ none → entry.policy.Above calls other.policy

structure Exit.Mirrored (calls : List Call) (exit other : Exit α) : Prop where
  outcome : exit.outcome = other.outcome
  events : exit.events.filter (!·.isObservation) = other.events.filter (!·.isObservation)
  policy : exit.policy.Above calls other.policy

namespace Policy.Above

variable {calls : List Call} {call : Call} {policy other : Policy α}

theorem leave (above : policy.Above (call :: calls) other) (outcome : Outcome (Sealed α)) :
    (policy.leave call outcome).Mirrored calls (other.leave call outcome) := by
  induction policy generalizing other outcome with
  | identity =>
      cases other with
      | identity => exact ⟨rfl, rfl, trivial⟩
      | _ => exact above.elim
  | recorder name =>
      cases other with
      | recorder nameToo => exact ⟨rfl, rfl, above⟩
      | _ => exact above.elim
  | tracer state =>
      cases other with
      | tracer stateToo =>
          have popped := Trace.Above.pop above
          cases outcome with
          | ok matched => exact ⟨rfl, rfl, popped⟩
          | error mismatch =>
              refine ⟨rfl, ?_, ?_⟩
              · simp only [Policy.leave]
                split <;> split <;> rfl
              · change Trace.Above calls (Tracer.closed _).stack (Tracer.closed _).stack
                rw [Tracer.closed, Tracer.closed, Tracer.register_stack, Tracer.register_stack]
                exact popped
      | _ => exact above.elim
  | depthLimiter state =>
      cases other with
      | depthLimiter stateToo =>
          obtain rfl : state = stateToo := above
          refine ⟨rfl, rfl, ?_⟩
          rw [Policy.leave]
          split <;> rfl
      | _ => exact above.elim
  | memoizer memo =>
      cases other with
      | memoizer memoToo =>
          obtain rfl : memo = memoToo := above
          refine ⟨rfl, rfl, ?_⟩
          rw [Policy.leave]
          split
          · rfl
          · simp only
            split <;> rfl
      | _ => exact above.elim
  | chain outer inner outerIh innerIh =>
      cases other with
      | chain outerToo innerToo =>
          obtain ⟨innerOutcomes, innerEvents, innerAbove⟩ := innerIh above.2 outcome
          obtain ⟨outerOutcomes, outerEvents, outerAbove⟩ :=
            outerIh above.1 (innerToo.leave call outcome).outcome
          simp only [Policy.leave, innerOutcomes]
          refine ⟨outerOutcomes, ?_, outerAbove, innerAbove⟩
          rw [List.filter_append, List.filter_append, innerEvents, outerEvents]
      | _ => exact above.elim

theorem enter (above : policy.Above calls other) (call : Call) :
    (policy.enter call).Mirrored calls call (other.enter call) := by
  induction policy generalizing other with
  | identity =>
      cases other with
      | identity => exact ⟨rfl, rfl, fun _ => trivial, fun _ => trivial⟩
      | _ => exact above.elim
  | recorder name =>
      cases other with
      | recorder nameToo => exact ⟨rfl, rfl, fun _ => above, fun _ => above⟩
      | _ => exact above.elim
  | tracer state =>
      cases other with
      | tracer stateToo =>
          exact ⟨rfl, rfl, fun _ => .call call above, fun given => (given rfl).elim⟩
      | _ => exact above.elim
  | depthLimiter state =>
      cases other with
      | depthLimiter stateToo =>
          obtain rfl : state = stateToo := above
          have same (calls : List Call) : ((Policy.depthLimiter state : Policy α).enter
              call).policy.Above calls ((Policy.depthLimiter state).enter call).policy := by
            rw [Policy.enter]
            split
            · rfl
            · split <;> rfl
          exact ⟨rfl, rfl, fun _ => same _, fun _ => same _⟩
      | _ => exact above.elim
  | memoizer memo =>
      cases other with
      | memoizer memoToo =>
          obtain rfl : memo = memoToo := above
          have same (calls : List Call) : ((Policy.memoizer memo).enter call).policy.Above calls
              ((Policy.memoizer memo).enter call).policy := by
            rw [Policy.enter]
            split
            · rfl
            · split <;> rfl
          exact ⟨rfl, rfl, fun _ => same _, fun _ => same _⟩
      | _ => exact above.elim
  | chain outer inner outerIh innerIh =>
      cases other with
      | chain outerToo innerToo =>
          obtain ⟨outerAnswers, outerEvents, outerStarted, outerAnswered⟩ := outerIh above.1
          obtain ⟨innerAnswers, innerEvents, innerStarted, innerAnswered⟩ := innerIh above.2
          cases given : (outer.enter call).answer with
          | some outcome =>
              rw [Policy.enter_chain_of_outer _ given,
                Policy.enter_chain_of_outer _ (outerAnswers.symm.trans given)]
              exact ⟨rfl, outerEvents, fun missing => absurd missing (Option.some_ne_none _),
                fun _ => ⟨outerAnswered (given ▸ Option.some_ne_none outcome), above.2⟩⟩
          | none =>
              have givenToo := outerAnswers.symm.trans given
              cases answer : (inner.enter call).answer with
              | none =>
                  rw [Policy.enter_chain_of_none given answer,
                    Policy.enter_chain_of_none givenToo (innerAnswers.symm.trans answer)]
                  refine ⟨rfl, ?_, fun _ => ⟨outerStarted given, innerStarted answer⟩,
                    fun given => (given rfl).elim⟩
                  rw [List.filter_append, List.filter_append, outerEvents, innerEvents]
              | some outcome =>
                  rw [Policy.enter_chain_of_inner given answer,
                    Policy.enter_chain_of_inner givenToo (innerAnswers.symm.trans answer)]
                  obtain ⟨lastOutcomes, lastEvents, lastAbove⟩ :=
                    Policy.Above.leave (outerStarted given) outcome
                  refine ⟨congrArg some lastOutcomes, ?_,
                    fun missing => absurd missing (Option.some_ne_none _),
                    fun _ => ⟨lastAbove, innerAnswered (answer ▸ Option.some_ne_none outcome)⟩⟩
                  simp only [List.filter_append, outerEvents, innerEvents, lastEvents]
      | _ => exact above.elim

end Policy.Above

namespace Policy

def Deep : Policy α → Prop
  | .tracer state => state.stack.Deep
  | .chain outer inner => outer.Deep ∧ inner.Deep
  | _ => True

theorem deep_of_fresh {policy : Policy α} (fresh : policy.Fresh) : policy.Deep := by
  induction policy with
  | tracer state =>
      cases fresh
      exact nofun
  | chain outer inner outerIh innerIh => exact ⟨outerIh fresh.1, innerIh fresh.2⟩
  | _ => trivial

variable {policy other : Policy α} {call : Call}

theorem Deep.leave (deep : policy.Deep) (call : Call) (outcome : Outcome (Sealed α)) :
    (policy.leave call outcome).policy.Deep := by
  induction policy generalizing outcome with
  | identity => trivial
  | recorder name => trivial
  | tracer state =>
      cases outcome with
      | ok matched => exact Trace.Deep.pop deep
      | error mismatch =>
          change (Tracer.closed _).stack.Deep
          rw [Tracer.closed, Tracer.register_stack]
          exact Trace.Deep.pop deep
  | depthLimiter state =>
      rw [Policy.leave]
      split <;> trivial
  | memoizer memo =>
      rw [Policy.leave]
      split
      · trivial
      · simp only
        split <;> trivial
  | chain outer inner outerIh innerIh => exact ⟨outerIh deep.1 _, innerIh deep.2 outcome⟩

theorem Deep.enter (deep : policy.Deep) (call : Call) : (policy.enter call).policy.Deep := by
  induction policy with
  | identity => trivial
  | recorder name => trivial
  | tracer state => exact Trace.Deep.push deep _ _
  | depthLimiter state =>
      rw [Policy.enter]
      split
      · trivial
      · split <;> trivial
  | memoizer memo =>
      rw [Policy.enter]
      split
      · trivial
      · split <;> trivial
  | chain outer inner outerIh innerIh =>
      simp only [Policy.enter]
      split
      · exact ⟨outerIh deep.1, deep.2⟩
      · split
        · exact ⟨outerIh deep.1, innerIh deep.2⟩
        · exact ⟨(outerIh deep.1).leave call _, innerIh deep.2⟩

def SameTables (policy other : Policy α) : Prop :=
  policy.memoTables = other.memoTables ∧ policy.limiters = other.limiters

/-- An untagged call that starts is of importance to observers only. -/
theorem enter_untagged_tables (policy : Policy α) (untagged : call.key? = none) :
    policy.SameTables (policy.enter call).policy ∧
      (policy.enter call).events.filter (!·.isObservation) = [] := by
  induction policy with
  | chain outer inner outerIh innerIh =>
      rw [enter_chain_of_none (outer.enter_untagged untagged) (inner.enter_untagged untagged)]
      obtain ⟨⟨outerTables, outerLimiters⟩, outerEvents⟩ := outerIh
      obtain ⟨⟨innerTables, innerLimiters⟩, innerEvents⟩ := innerIh
      refine ⟨⟨?_, ?_⟩, ?_⟩
      · rw [memoTables, memoTables, ← outerTables, ← innerTables]
      · rw [limiters, limiters, ← outerLimiters, ← innerLimiters]
      · rw [List.filter_append, outerEvents, innerEvents, List.append_nil]
  | _ => simp [Policy.enter, untagged, SameTables, memoTables, limiters, Event.isObservation]

theorem leave_untagged_tables (policy : Policy α) (untagged : call.key? = none)
    (outcome : Outcome (Sealed α)) :
    policy.SameTables (policy.leave call outcome).policy ∧
      (policy.leave call outcome).events.filter (!·.isObservation) = [] := by
  induction policy generalizing outcome with
  | chain outer inner outerIh innerIh =>
      obtain ⟨⟨innerTables, innerLimiters⟩, innerEvents⟩ := innerIh outcome
      obtain ⟨⟨outerTables, outerLimiters⟩, outerEvents⟩ :=
        outerIh (inner.leave call outcome).outcome
      refine ⟨⟨?_, ?_⟩, ?_⟩
      · simp only [Policy.leave, memoTables, ← outerTables, ← innerTables]
      · simp only [Policy.leave, limiters, ← outerLimiters, ← innerLimiters]
      · simp only [Policy.leave, List.filter_append, outerEvents, innerEvents, List.append_nil]
  | tracer state =>
      cases outcome with
      | ok matched => exact ⟨⟨rfl, rfl⟩, rfl⟩
      | error mismatch =>
          refine ⟨⟨rfl, rfl⟩, ?_⟩
          simp only [Policy.leave]
          split <;> rfl
  | _ => simp [Policy.leave, untagged, SameTables, memoTables, limiters, Event.isObservation]

/-- Inside of an untagged call traces end in a gap. -/
theorem Deep.above_of_untagged (deep : policy.Deep) (untagged : call.key? = none) :
    (policy.enter call).policy.Above [] (policy.enter call).policy := by
  induction policy with
  | chain outer inner outerIh innerIh =>
      rw [enter_chain_of_none (outer.enter_untagged untagged) (inner.enter_untagged untagged)]
      exact ⟨outerIh deep.1, innerIh deep.2⟩
  | tracer state =>
      have pushed := Trace.Deep.push deep call.position call.tag
      refine Trace.Above.gap rfl ?_ pushed pushed
      have untagged : call.tag = none := Option.map_eq_none_iff.mp untagged
      change (state.stack.push call.position call.tag).outline.head? = some none
      rw [untagged, Trace.outline_push, pushOutline]
      match state.stack.outline with
      | [] => rfl
      | none :: _ => rfl
      | some _ :: _ => rfl
  | _ =>
      simp only [Policy.enter, untagged]
      trivial

/-- One more untagged call makes no difference inside of another. -/
theorem Above.enter_untagged (above : policy.Above [] other) (untagged : call.key? = none) :
    policy.Above [] (other.enter call).policy := by
  induction policy generalizing other with
  | chain outer inner outerIh innerIh =>
      cases other with
      | chain outerToo innerToo =>
          rw [enter_chain_of_none (outerToo.enter_untagged untagged)
            (innerToo.enter_untagged untagged)]
          exact ⟨outerIh above.1, innerIh above.2⟩
      | _ => exact above.elim
  | tracer state =>
      cases other with
      | tracer stateToo =>
          have untagged : call.tag = none := Option.map_eq_none_iff.mp untagged
          change Trace.Above [] state.stack (stateToo.stack.push call.position call.tag)
          rw [untagged]
          exact Trace.Above.push_untagged above call.position
      | _ => exact above.elim
  | _ =>
      cases other <;> first
        | exact above.elim
        | simpa only [Policy.enter, untagged] using above

end Policy

structure State.Above (calls : List Call) (state other : State α) : Prop where
  cursor : state.cursor = other.cursor
  policy : state.policy.Above calls other.policy
  journal : state.journal.filter (!·.isObservation) = other.journal.filter (!·.isObservation)

namespace State.Above

variable {calls : List Call} {state other : State α}

theorem symm (above : state.Above calls other) : other.Above calls state :=
  ⟨above.cursor.symm, above.policy.symm, above.journal.symm⟩

theorem moveTo (above : state.Above calls other) (position : Nat) :
    (state.moveTo position).Above calls (other.moveTo position) :=
  ⟨rfl, above.policy, above.journal⟩

theorem record (above : state.Above calls other) {callsToo : List Call}
    {policy policyToo : Policy α} (policies : policy.Above callsToo policyToo)
    {events eventsToo : List Event}
    (same : events.filter (!·.isObservation) = eventsToo.filter (!·.isObservation)) :
    (State.record ⟨state.cursor, policy, state.journal⟩ events).Above callsToo
      (State.record ⟨other.cursor, policyToo, other.journal⟩ eventsToo) where
  cursor := above.cursor
  policy := policies
  journal := by rw [filter_record, filter_record, same, above.journal]

theorem settle (above : state.Above calls other) (call : Call) (kind : Kind)
    (outcome : Outcome (Sealed α)) :
    (settle call kind outcome state).1 = (settle call kind outcome other).1 ∧
      (settle call kind outcome state).2.Above calls (settle call kind outcome other).2 := by
  cases outcome with
  | error mismatch => exact ⟨rfl, above.moveTo _⟩
  | ok matched =>
      simp only [Packrat.settle]
      split
      · exact ⟨rfl, above.moveTo _⟩
      · exact ⟨rfl, (above.record above.policy rfl).moveTo _⟩

theorem conclude {call : Call} (above : state.Above (call :: calls) other) (kind : Kind)
    (outcome : Outcome (Sealed α)) :
    (conclude call kind outcome state).1 = (conclude call kind outcome other).1 ∧
      (conclude call kind outcome state).2.Above calls (conclude call kind outcome other).2 := by
  obtain ⟨outcomes, events, policies⟩ := above.policy.leave outcome
  rw [Packrat.conclude, Packrat.conclude, outcomes]
  exact (above.record policies events).settle call kind _

end State.Above

/-! ## Discreet parsers -/

/-- What a body sees does not depend on untagged calls or on failures that were traced. -/
def DiscreetLook (look : Policy α → Nat → Symbol α) : Prop :=
  ∀ policy other, policy.Outlined other → look policy = look other

namespace Parser

/-- All bodies that look at what the policies remember are discreet. -/
inductive Discreet : Parser ι α → Prop where
  | terminal (expectation : String) (probe : Probe ι α) : Discreet (.terminal expectation probe)
  | answer (look : Nat → Result α) : Discreet (.answer look)
  | inspect {look : Policy α → Nat → Symbol α} : DiscreetLook look → Discreet (.inspect look)
  | wrap {inner : Parser ι α} (tag : Option Tag) (kind : Option Kind) (finish : Finish α) :
      Discreet inner → Discreet (.wrap tag kind inner finish)
  | both {first second : Parser ι α} (combine : Symbol α → Symbol α → Symbol α) :
      Discreet first → Discreet second → Discreet (.both first second combine)
  | andThen {first : Parser ι α} {next : Symbol α → Parser ι α} :
      Discreet first → (∀ symbol, Discreet (next symbol)) → Discreet (.andThen first next)
  | repetition {item : Parser ι α} (tag : Option Tag) (limit : CountLimit) :
      Discreet item → Discreet (.repetition tag item limit)
  | separated {item separator : Parser ι α} (tag : Option Tag) :
      Discreet item → Discreet separator → Discreet (.separated tag item separator)
  | choice {alternatives : List (Parser ι α)} (tag : Option Tag) :
      (∀ parser ∈ alternatives, Discreet parser) → Discreet (.choice tag alternatives)
  | retag {inner : Parser ι α} (tag : Tag) : Discreet inner → Discreet (.retag tag inner)
  | recording {inner : Parser ι α} (events : List Event) :
      Discreet inner → Discreet (.recording events inner)
  | recursive {body : Parser ι α} (tag : Tag) : Discreet body → Discreet (.recursive tag body)
  | self (depth : Nat) : Discreet (.self depth)
  | handle (tag : Tag) (slot : Nat) : Discreet (.handle tag slot)

/-- A parser whose bodies do not look at the policies is discreet. -/
theorem Composed.discreet {pieces : Pieces ι α} {parser : Parser ι α}
    (composed : parser.Composed pieces) : parser.Discreet := by
  induction composed with
  | terminal _ => exact .terminal _ _
  | answer look => exact .answer look
  | wrap _ _ _ ih => exact .wrap _ _ _ ih
  | both combine _ _ firstIh secondIh => exact .both combine firstIh secondIh
  | andThen _ _ firstIh nextIh => exact .andThen firstIh nextIh
  | repetition limit _ _ ih => exact .repetition _ limit ih
  | separated _ _ _ itemIh separatorIh => exact .separated _ itemIh separatorIh
  | choice _ _ ih => exact .choice _ ih
  | retag _ _ ih => exact .retag _ ih
  | recording _ _ ih => exact .recording _ ih
  | recursive _ _ ih => exact .recursive _ ih
  | self depth => exact .self depth
  | handle slot _ => exact .handle _ slot

namespace Discreet

theorem replaceSelf {replacement parser : Parser ι α} (discreet : replacement.Discreet)
    (body : parser.Discreet) (depth : Nat) :
    (Parser.replaceSelf replacement depth parser).Discreet := by
  induction body generalizing depth with
  | terminal expectation probe => exact .terminal expectation probe
  | answer look => exact .answer look
  | inspect look => exact .inspect look
  | wrap tag kind finish _ ih => exact .wrap tag kind finish (ih depth)
  | both combine _ _ firstIh secondIh => exact .both combine (firstIh depth) (secondIh depth)
  | andThen _ _ firstIh nextIh =>
      exact .andThen (firstIh depth) fun symbol => nextIh symbol depth
  | repetition tag limit _ ih => exact .repetition tag limit (ih depth)
  | separated tag _ _ itemIh separatorIh =>
      exact .separated tag (itemIh depth) (separatorIh depth)
  | choice tag _ ih =>
      rw [Parser.replaceSelf, replaceSelfAll_eq_map]
      refine .choice tag fun parser member => ?_
      obtain ⟨alternative, memberToo, rfl⟩ := List.mem_map.mp member
      exact ih alternative memberToo depth
  | retag tag _ ih => exact .retag tag (ih depth)
  | recording events _ ih => exact .recording events (ih depth)
  | recursive tag _ ih => exact .recursive tag (ih (depth + 1))
  | self level =>
      rw [Parser.replaceSelf]
      split
      · exact discreet
      · exact .self level
  | handle tag slot => exact .handle tag slot

theorem unfold {tag : Tag} {body : Parser ι α} (discreet : body.Discreet) :
    (Parser.unfold tag body).Discreet := replaceSelf (.recursive tag discreet) discreet 0

theorem renamed (tag : Tag) {parser : Parser ι α} (discreet : parser.Discreet) :
    (parser.renamed tag).Discreet := by
  induction discreet with
  | recursive _ body _ => exact .recursive tag body
  | retag _ _ ih => exact ih
  | terminal expectation probe => exact .terminal expectation probe
  | answer look => exact .answer look
  | inspect look => exact .inspect look
  | wrap tag kind finish inner _ => exact .wrap tag kind finish inner
  | both combine first second _ _ => exact .both combine first second
  | andThen first next _ _ => exact .andThen first next
  | repetition tag limit item _ => exact .repetition tag limit item
  | separated tag item separator _ _ => exact .separated tag item separator
  | choice tag alternatives _ => exact .choice tag alternatives
  | recording events inner _ => exact .recording events inner
  | self depth => exact .self depth
  | handle tag slot => exact .handle tag slot

theorem ignoreThen {first second : Parser ι α} (discreet : first.Discreet)
    (discreetToo : second.Discreet) : (first.ignoreThen second).Discreet :=
  .both _ discreet discreetToo

end Discreet

end Parser

def Arena.Discreet (arena : Arena ι α) : Prop :=
  ∀ (slot : Nat) (parser : Parser ι α), arena.slots[slot]? = some (some parser) → parser.Discreet

theorem Arena.Composed.discreet {pieces : Pieces ι α} {arena : Arena ι α}
    (composed : arena.Composed pieces) : arena.Discreet :=
  fun slot parser held => (composed slot parser held).discreet

def Control.Discreet (control : Control ι α) : Prop :=
  control.Over Parser.Discreet (fun _ => True) fun _ => True

section Bodies

variable [Input ι] {setting : Setting ι α} {parser : Parser ι α} {state other : State α}

theorem Parser.Discreet.start (arena : setting.arena.Discreet) (discreet : parser.Discreet)
    (state : State α) : (Control.move (parser.start setting state)).Discreet := by
  cases discreet with
  | terminal expectation probe => exact Parser.start_terminal_over setting state _ _
  | answer look => trivial
  | inspect look => trivial
  | wrap tag kind finish inner => exact ⟨inner, trivial⟩
  | both combine first second => exact ⟨first, second⟩
  | andThen first next => exact ⟨first, next⟩
  | repetition tag limit item => exact continueRepetition_over item
  | separated tag item separator => exact ⟨item, item, separator⟩
  | choice tag alternatives => exact tryAlternatives_over alternatives
  | retag tag inner => exact ⟨inner.renamed tag, fun _ _ => trivial⟩
  | recording events inner => exact ⟨inner, fun _ _ => trivial⟩
  | recursive tag body => exact ⟨body.unfold, trivial⟩
  | self depth => trivial
  | handle tag slot =>
      simp only [Control.Discreet, Parser.start]
      split
      · next resolved => exact ⟨arena _ _ (Arena.held_of_resolve resolved), fun _ _ => trivial⟩
      · trivial

/-- The body of a discreet parser starts in the same way on engines with one outline. -/
theorem Parser.Discreet.start_congr {calls : List Call} (discreet : parser.Discreet)
    (above : state.Above calls other) :
    parser.start setting state = parser.start setting other := by
  have same := above.cursor
  cases discreet with
  | inspect look => simp only [Parser.start, same, look _ _ above.policy.outlined]
  | _ => simp only [Parser.start, same]

theorem State.Above.entered {calls : List Call} (above : state.Above calls other)
    (setting : Setting ι α) (parser : Parser ι α) :
    (setting.entry parser state).answer = (setting.entry parser other).answer ∧
      ((setting.entry parser state).answer = none →
        (setting.entered parser state).Above (callAt setting.input state.cursor parser :: calls)
          (setting.entered parser other)) ∧
      ((setting.entry parser state).answer ≠ none →
        (setting.entered parser state).Above calls (setting.entered parser other)) := by
  have entries : (setting.entry parser state).Mirrored calls
      (callAt setting.input state.cursor parser) (setting.entry parser other) := by
    rw [Setting.entry, Setting.entry, ← above.cursor]
    exact above.policy.enter _
  exact ⟨entries.answer, fun missing => above.record (entries.started missing) entries.events,
    fun given => above.record (entries.answered given) entries.events⟩

/--
Whatever discreet parsers come to on an engine, they come to on one with the same outline, and
they make the same calls.
-/
theorem Ends.mirrored (arena : setting.arena.Discreet) {control : Control ι α}
    {final : State α} {halt : Halt α} (ends : Ends setting control state halt final)
    (discreet : control.Discreet) (sound : ∀ fault, halt ≠ .faulted fault) {calls : List Call}
    (above : state.Above calls other) :
    ∃ log last, final.Above calls last ∧ setting.Enacts control state log halt final ∧
      setting.Enacts control other log halt last := by
  induction ends generalizing calls other with
  | reply result state => exact ⟨[], other, above, .reply result state, .reply result other⟩
  | read symbol stop state =>
      exact ⟨[], _, above.moveTo stop, .read symbol stop state, .read symbol stop other⟩
  | abort fault state => exact absurd rfl (sound fault)
  | become _ ih =>
      obtain ⟨log, last, states, one, two⟩ :=
        ih discreet.1 sound (above.record above.policy rfl)
      exact ⟨log, last, states, one.become, two.become⟩
  | @body parser state _ _ _ ih =>
      have parsers : parser.Discreet := discreet
      obtain ⟨log, last, states, one, two⟩ := ih (parsers.start arena state) sound above
      rw [parsers.start_congr above] at two
      exact ⟨log, last, states, one.body, two.body⟩
  | resumed _ _ callIh moveIh =>
      obtain ⟨log, middle, states, one, two⟩ := callIh discreet.1 nofun above
      obtain ⟨logToo, last, statesToo, oneToo, twoToo⟩ :=
        moveIh (Pending.resume_over Parser.Discreet.ignoreThen discreet.2 _) sound states
      exact ⟨_, last, statesToo, one.resumed oneToo, two.resumed twoToo⟩
  | lost _ _ => exact absurd rfl (sound _)
  | @answered parser state outcome answer =>
      obtain ⟨answers, -, entered⟩ := above.entered setting parser
      have answerToo := answers.symm.trans answer
      obtain ⟨outcomes, states⟩ := (entered (answer ▸ Option.some_ne_none outcome)).settle
        (callAt setting.input state.cursor parser) parser.kind outcome
      refine ⟨_, _, states, .answered answer, ?_⟩
      have two := Setting.Enacts.answered answerToo
      rw [← above.cursor, ← outcomes] at two
      exact two
  | @executed parser state middle result outcome missing _ sealed ih =>
      obtain ⟨answers, entered, -⟩ := above.entered setting parser
      have missingToo := answers.symm.trans missing
      obtain ⟨log, last, states, one, two⟩ := ih discreet nofun (entered missing)
      have sealedToo := sealed
      rw [states.cursor, above.cursor] at sealedToo
      obtain ⟨outcomes, finals⟩ := states.conclude parser.kind outcome
      refine ⟨_, _, finals, .executed missing one sealed, ?_⟩
      have two := Setting.Enacts.executed missingToo two sealedToo
      rw [← above.cursor, ← outcomes] at two
      exact two
  | unsealed _ _ _ _ => exact absurd rfl (sound _)
  | broken _ _ _ => exact absurd rfl (sound _)

end Bodies

namespace Workbench

variable {policy other : Policy α}

theorem Shape.tracers_related {tracers : Tracer → Tracer → Prop} (shape : Shape)
    (related : policy.Related tracers other) :
    List.Forall₂ tracers (shape.tracers policy) (shape.tracers other) := by
  induction shape generalizing policy other with
  | tracer =>
      cases policy <;> cases other <;> first
        | exact related.elim
        | exact .cons related .nil
        | exact .nil
  | chain outer inner outerIh innerIh =>
      cases policy <;> cases other <;> first
        | exact related.elim
        | exact List.rel_append (outerIh related.1) (innerIh related.2)
        | exact .nil
  | _ => exact .nil

theorem Shape.depthLimiters_related {tracers : Tracer → Tracer → Prop} (shape : Shape)
    (related : policy.Related tracers other) :
    shape.depthLimiters policy = shape.depthLimiters other := by
  induction shape generalizing policy other with
  | depthLimiter =>
      cases policy <;> cases other <;> first
        | exact related.elim
        | rfl
        | (cases related; rfl)
  | chain outer inner outerIh innerIh =>
      cases policy <;> cases other <;> first
        | exact related.elim
        | exact congrArg₂ (· ++ ·) (outerIh related.1) (innerIh related.2)
        | rfl
  | _ => rfl

/-- Bodies that show the trace in words are discreet. -/
theorem traceSeen_discreet (shape : Shape) :
    DiscreetLook fun policy _ => traceSeen shape policy := by
  intro policy other outlined
  have related := shape.tracers_related outlined
  have same : traceSeen shape policy = traceSeen shape other := by
    unfold traceSeen
    generalize shape.tracers policy = one, shape.tracers other = two at related
    cases related with
    | nil => rfl
    | cons same _ => exact congrArg Symbol.text (Trace.text_eq_of_outline same)
  exact funext fun _ => same

theorem depthSeen_discreet (shape : Shape) (tag : Tag) : DiscreetLook (depthSeen shape tag) := by
  intro policy other outlined
  funext position
  rw [depthSeen, depthSeen, shape.depthLimiters_related outlined]

end Workbench

end Packrat
