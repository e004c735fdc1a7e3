import Packrat.Engine
import Packrat.Journal
import Packrat.Workbench.Grammar

/-!
# Sessions

A session drives one engine and one arena by a list of orders and keeps a reply to
each.  It ends early at a fault.
-/

namespace Packrat.Workbench

inductive Order where
  | declare (name : String) (tag : Tag)
  | define (name : String) (node : Node)
  | dropArena
  | run (node : Node)
  | runMatch (node : Node)
  | runToEnd (node : Node)
  | runBody (node : Node)
  | accept (count : Nat)
  | acceptSpan (start stop : Nat)
  | showState
  | showRemaining (position : Nat)
  | showFarthest
  | showReport
  | showMemo (tags : List Tag)
  | showCounters
  | showEvents

structure MemoView where
  size : Nat
  entries : List (Nat × Tag × Outcome (Sealed Datum))
  summary : Option String

inductive Reply where
  | declared
  | defined
  | undefinable (tag : Tag) (error : DefinitionError)
  | unbuildable (error : BuildError)
  | dropped
  | result (result : Result Datum)
  | outcome (outcome : Outcome Value)
  | parsed (result : Except ParseError Value)
  | accepted (piece : Piece) (position : Nat) (tailIsEmpty : Bool) (inputEnd : Nat)
  | tooShort
  | acceptedSpan
  | state (rest : Piece) (atEnd : Bool) (inputEnd remaining : Nat)
  | number (n : Nat)
  | farthest (farthest : Option FarthestFailure)
  | report (report : Option String)
  | memos (views : List MemoView)
  | counters (counts : List (String × Nat))
  | events (lines : List String)

/-- A handle's slot, the node that defines it and the handles that were declared before. -/
structure Definition where
  slot : Nat
  node : Node
  handles : Handles

structure Session (ι : Type) where
  shape : Shape
  setting : Setting ι Datum
  state : State Datum
  handles : Handles
  definitions : List Definition
  counters : List String
  eventsShown : Nat

inductive Performance (ι : Type) where
  | replied (reply : Reply) (session : Session ι)
  | faulted (session : Session ι)
  | unfinished

def viewMemo (inputEnd : Nat) (tags : List Tag) (memo : Memoizer Datum) : MemoView where
  size := memo.entries.size
  entries := (List.range (inputEnd + 1)).flatMap fun position =>
    tags.filterMap fun tag =>
      (memo.find? ⟨position, tag⟩).map fun outcome => (position, tag, outcome)
  summary :=
    match memo.entries.keys with
    | [] => some "\x7b\x7d"
    | [key] =>
        some ("\x7bKey \x7b position: " ++ toString key.position ++ ", tag: " ++
          Text.quoted key.tag.name ++ " \x7d\x7d")
    | _ => none

def recordedLines (journal : List Event) : List String :=
  (journal.filterMap Event.recorded?).reverse

def executions (journal : List Event) (counter : String) : Nat :=
  (journal.filter fun event =>
    match event with
    | .executed name => name = counter
    | _ => false).length

namespace Session

variable {ι : Type} [Medium ι]

def start (input : ι) (shape : Shape) : Session ι where
  shape := shape
  setting := ⟨input, .empty⟩
  state := .initial shape.policy
  handles := []
  definitions := []
  counters := []
  eventsShown := 0

def scope (session : Session ι) : Scope := ⟨session.shape, session.handles, session.handles, []⟩

def inputEnd (session : Session ι) : Nat := Input.size session.setting.input

def finish {β : Type} (session : Session ι) (run : Run Datum β) (reply : β → Reply) :
    Performance ι :=
  match run with
  | .done value state => .replied (reply value) { session with state := state }
  | .faulted _ state => .faulted { session with state := state }
  | .unfinished => .unfinished

def withParser (session : Session ι) (node : Node)
    (next : Session ι → Parser ι Datum → Performance ι) : Performance ι :=
  let (built, counters) := (node.build session.scope).run.run session.counters
  let session := { session with counters := counters }
  match built with
  | .ok parser => next session parser
  | .error error => .replied (.unbuildable error) session

/-- Build a definition again, whose recursive rules may mean other handles by now. -/
def rebuild (session : Session ι) (definition : Definition) : Session ι :=
  let scope := { session.scope with handles := definition.handles }
  match ((definition.node.build scope).run.run []).1 with
  | .ok parser =>
      { session with
        setting :=
          { session.setting with arena := session.setting.arena.redefine definition.slot parser } }
  | .error _ => session

def perform (steps : Nat) (session : Session ι) : Order → Performance ι
  | .declare name tag =>
      let (slot, arena) := session.setting.arena.declare
      let declared :=
        { session with
          setting := { session.setting with arena := arena }
          handles := (name, slot, tag) :: session.handles }
      .replied .declared (session.definitions.foldl rebuild declared)
  | .define name node =>
      session.withParser node fun session parser =>
        match session.handles.lookup name with
        | none => .replied (.unbuildable (.unknownName name)) session
        | some (slot, tag) =>
            match session.setting.arena.define slot parser with
            | .ok arena =>
                .replied .defined
                  { session with
                    setting := { session.setting with arena := arena }
                    definitions := ⟨slot, node, session.handles⟩ :: session.definitions }
            | .error error => .replied (.undefinable tag error) session
  | .dropArena =>
      .replied .dropped
        { session with
          setting := { session.setting with arena := session.setting.arena.drop } }
  | .run node =>
      session.withParser node fun session parser =>
        session.finish (session.setting.run steps parser session.state) .result
  | .runMatch node =>
      session.withParser node fun session parser =>
        session.finish (session.setting.runMatch steps parser session.state) .outcome
  | .runToEnd node =>
      session.withParser node fun session parser =>
        session.finish (session.setting.runToEnd steps parser session.state) .parsed
  | .runBody node =>
      session.withParser node fun session parser =>
        session.finish (session.setting.runBody steps parser session.state) .result
  | .accept count =>
      let cursor := session.state.cursor
      match Medium.take session.setting.input cursor count with
      | .error _ => .faulted session
      | .ok none => .replied .tooShort session
      | .ok (some (piece, length)) =>
          let matched : Match Piece := ⟨piece, ⟨cursor, cursor + length⟩⟩
          session.finish (session.state.accept session.inputEnd matched) fun piece =>
            .accepted piece cursor (session.inputEnd ≤ cursor) session.inputEnd
  | .acceptSpan start stop =>
      match Span.between start stop with
      | .error _ => .faulted session
      | .ok span =>
          session.finish (session.state.accept session.inputEnd ⟨(), span⟩) fun _ => .acceptedSpan
  | .showState =>
      let cursor := session.state.cursor
      match Medium.rest session.setting.input cursor with
      | .error _ => .faulted session
      | .ok rest =>
          .replied
            (.state rest (session.inputEnd ≤ cursor) session.inputEnd
              (Input.remaining session.setting.input cursor))
            session
  | .showRemaining position =>
      .replied (.number (Input.remaining session.setting.input position)) session
  | .showFarthest => .replied (.farthest session.state.policy.farthestFailure) session
  | .showReport => .replied (.report session.state.policy.report) session
  | .showMemo tags =>
      let memoizers := session.shape.memoizers session.state.policy
      .replied (.memos (memoizers.map (viewMemo session.inputEnd tags))) session
  | .showCounters =>
      .replied
        (.counters (session.counters.eraseDups.map fun counter =>
          (counter, executions session.state.journal counter)))
        session
  | .showEvents =>
      let lines := recordedLines session.state.journal
      .replied (.events (lines.drop session.eventsShown))
        { session with eventsShown := lines.length }

/--
How a list of orders ends: all replies with the cursor after them, and whether a fault ended it.
-/
structure Minutes where
  replies : List (Reply × Nat)
  faulted : Bool
  journal : List Event

/-- Carry out orders until a fault; nothing if an order needs more steps than are given. -/
def performAll (steps : Nat) (session : Session ι) : List Order → Option Minutes
  | [] => some ⟨[], false, session.state.journal⟩
  | order :: rest =>
      match session.perform steps order with
      | .replied reply session =>
          (session.performAll steps rest).map fun minutes =>
            { minutes with replies := (reply, session.state.cursor) :: minutes.replies }
      | .faulted session => some ⟨[], true, session.state.journal⟩
      | .unfinished => none

end Session

def parseBy {ι : Type} [Medium ι] (steps : Nat) (input : ι) (node : Node) :
    Except BuildError (Run Datum (Except ParseError Value)) :=
  ((node.build ⟨.standard, [], [], []⟩).run.run []).1.map fun parser =>
    Setting.parse ⟨input, .empty⟩ steps parser

end Packrat.Workbench
