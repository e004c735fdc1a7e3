import Packrat.Workbench.Session

/-!
# Policy scripts

A script calls policies directly with bodies that are scripts themselves.  A body ends
with the outcome it is given, or else with that of its last call.
-/

namespace Packrat.Workbench

structure ScriptCall where
  id : Nat
  call : Call
  outcome : Option (Outcome (Sealed Datum))

inductive Instruction where
  | call (call : ScriptCall) (body : List Instruction)
  | again
  | insert (key : Key) (outcome : Outcome (Sealed Datum))
  | get (key : Key)
  | memo (inputEnd : Nat) (tags : List Tag)
  | depth (key : Key)
  | snapshot
  | farthest
  | report
  | events

inductive Sight where
  | body (id : Nat)
  | outcome (id : Nat) (outcome : Outcome (Sealed Datum))
  | entry (outcome : Option (Outcome (Sealed Datum)))
  | memo (view : MemoView)
  | depth (depth : Nat)
  | snapshot (trace : Trace)
  | farthest (farthest : Option FarthestFailure)
  | report (report : Option String)
  | events (lines : List String)

/-- A running script; the latest sight and the latest event come first. -/
structure ScriptState where
  shape : Shape
  policy : Policy Datum
  journal : List Event
  eventsShown : Nat
  sights : List Sight

namespace ScriptState

def start (shape : Shape) : ScriptState := ⟨shape, shape.policy, [], 0, []⟩

def display (state : ScriptState) (sight : Sight) : ScriptState :=
  { state with sights := sight :: state.sights }

def displayAll (state : ScriptState) (sights : List Sight) : ScriptState :=
  sights.foldl display state

def record (state : ScriptState) (events : List Event) : ScriptState :=
  { state with journal := events.foldl (fun journal event => event :: journal) state.journal }

def observe (state : ScriptState) : Instruction → ScriptState
  | .insert key outcome =>
      { state with
        policy := state.shape.changeMemoizers (·.insert key outcome) state.policy }
  | .get key =>
      state.displayAll ((state.shape.memoizers state.policy).map fun memo => .entry (memo.find? key))
  | .memo inputEnd tags =>
      state.displayAll ((state.shape.memoizers state.policy).map fun memo =>
        .memo (viewMemo inputEnd tags memo))
  | .depth key =>
      state.displayAll ((state.shape.depthLimiters state.policy).map fun limiter =>
        .depth (limiter.depth key))
  | .snapshot =>
      state.displayAll ((state.shape.tracers state.policy).map fun tracer => .snapshot tracer.stack)
  | .farthest => state.display (.farthest state.policy.farthestFailure)
  | .report => state.display (.report state.policy.report)
  | .events =>
      let lines := recordedLines state.journal
      { state.display (.events (lines.drop state.eventsShown)) with eventsShown := lines.length }
  | .call _ _ => state
  | .again => state

end ScriptState

mutual

/--
Carry out instructions inside a call, if there is one; the outcome of the last call is returned.
-/
def follow : Nat → Option (ScriptCall × List Instruction) → List Instruction → ScriptState →
    Option (Outcome (Sealed Datum)) → Option (ScriptState × Option (Outcome (Sealed Datum)))
  | 0, _, _, _, _ => none
  | _ + 1, _, [], state, last => some (state, last)
  | fuel + 1, around, .call call body :: rest, state, _ => do
      let (state, outcome) ← followCall fuel call body state
      follow fuel around rest state (some outcome)
  | fuel + 1, around, .again :: rest, state, last =>
      match around with
      | none => follow fuel around rest state last
      | some (call, body) => do
          let (state, outcome) ← followCall fuel call body state
          follow fuel around rest state (some outcome)
  | fuel + 1, around, instruction :: rest, state, last =>
      follow fuel around rest (state.observe instruction) last

def followCall : Nat → ScriptCall → List Instruction → ScriptState →
    Option (ScriptState × Outcome (Sealed Datum))
  | 0, _, _, _ => none
  | fuel + 1, call, body, state =>
      let entry := state.policy.enter call.call
      let entered := { state with policy := entry.policy }.record entry.events
      match entry.answer with
      | some outcome => some (entered.display (.outcome call.id outcome), outcome)
      | none => do
          let (ended, last) ← follow fuel (some (call, body)) body (entered.display (.body call.id)) none
          let result := (call.outcome.or last).getD (.error .empty)
          let exit := ended.policy.leave call.call result
          let left := { ended with policy := exit.policy }.record exit.events
          some (left.display (.outcome call.id exit.outcome), exit.outcome)

end

/-- Carry out a script; nothing if it goes on for longer than the fuel lasts. -/
def runScript (fuel : Nat) (shape : Shape) (script : List Instruction) :
    Option (List Sight × List Event) :=
  (follow fuel none script (.start shape) none).map fun (state, _) =>
    (state.sights.reverse, state.journal)

end Packrat.Workbench
