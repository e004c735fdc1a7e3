import Packrat.Arena

/-!
# Running parsers

A machine runs parsers step by step on an explicit stack.  Every active call has a
frame on the stack, and so has every body that waits for a call.  `Parser.start` says
what a body does first, `Pending.resume` what a waiting body does when its call has
ended, and `Config.step` connects the two with the cursor and the policies.
-/

namespace Packrat

/-- What parsers read but never change: the input and the arena. -/
structure Setting (ι α : Type) where
  input : ι
  arena : Arena ι α

/-- What running parsers changes; the journal has its latest event first. -/
structure State (α : Type) where
  cursor : Nat
  policy : Policy α
  journal : List Event

namespace State

variable {α : Type}

def record (state : State α) (events : List Event) : State α :=
  { state with journal := events.foldl (fun journal event => event :: journal) state.journal }

def moveTo (state : State α) (position : Nat) : State α := { state with cursor := position }

end State

/-- What a body waits for after it has called a parser. -/
inductive Pending (ι α : Type) where
  | finish (finish : Finish α)
  | first (second : Parser ι α) (combine : Symbol α → Symbol α → Symbol α)
  | second (first : Symbol α) (combine : Symbol α → Symbol α → Symbol α)
  | choosing (next : Symbol α → Parser ι α)
  | passing
  | alternative (tag : Option Tag) (alternatives rest : List (Parser ι α))
  /-- One more repetition; the latest symbol comes first. -/
  | iteration (tag : Option Tag) (item : Parser ι α) (limit : CountLimit) (taken : List (Symbol α))
  | firstItem (item separator : Parser ι α)
  /-- One more separator and item; the latest symbol comes first. -/
  | nextItem (item separator : Parser ι α) (taken : List (Symbol α))

inductive Move (ι α : Type) where
  | reply (result : Result α)
  | read (symbol : Symbol α) (stop : Nat)
  | call (parser : Parser ι α) (pending : Pending ι α)
  | become (events : List Event) (parser : Parser ι α)
  | abort (fault : Fault)

namespace Move

variable {ι α : Type}

def ofFinished : Except Fault (Result α) → Move ι α
  | .ok result => .reply result
  | .error fault => .abort fault

end Move

/-- The mismatch of a choice none of whose alternatives matches. -/
def choiceMismatch {ι α : Type} (tag : Option Tag) (alternatives : List (Parser ι α)) : Mismatch :=
  if alternatives.any fun parser => parser.tag.isSome then
    .expected tag (" or ".intercalate (alternatives.map fun parser => Tag.describe parser.tag))
  else
    .bare tag

def tryAlternatives {ι α : Type} (tag : Option Tag) (alternatives : List (Parser ι α)) :
    List (Parser ι α) → Move ι α
  | [] => .reply (.error (choiceMismatch tag alternatives))
  | parser :: rest => .call parser (.alternative tag alternatives rest)

/-- End a repetition, with the mismatch that stopped it if there is one. -/
def endRepetition {ι α : Type} (tag : Option Tag) (item : Parser ι α) (limit : CountLimit)
    (taken : List (Symbol α)) (failure : Option Mismatch) : Result α :=
  if limit.admits taken.length then
    .ok (.list taken.reverse)
  else
    match item.tag, failure with
    | some name, _ => .error (.expected tag (limit.text ++ " " ++ name.name))
    | none, some cause => .error (.causedBy tag cause)
    | none, none => .error (.expected tag limit.text)

def continueRepetition {ι α : Type} (tag : Option Tag) (item : Parser ι α) (limit : CountLimit)
    (taken : List (Symbol α)) : Move ι α :=
  if limit.wantsMore taken.length then
    .call item (.iteration tag item limit taken)
  else
    .reply (endRepetition tag item limit taken none)

def continueList {ι α : Type} (item separator : Parser ι α) (taken : List (Symbol α)) :
    Move ι α :=
  .call (separator.ignoreThen item) (.nextItem item separator taken)

def Parser.start {ι α : Type} [Input ι] (setting : Setting ι α) (state : State α) :
    Parser ι α → Move ι α
  | .terminal expectation probe =>
      match probe setting.input state.cursor with
      | .error fault => .abort fault
      | .ok none => .reply (.error (.expected none expectation))
      | .ok (some (symbol, length)) =>
          if state.cursor + length ≤ Input.size setting.input then
            .read symbol (state.cursor + length)
          else
            .abort .pastEnd
  | .answer look => .reply (look state.cursor)
  | .inspect look => .reply (.ok (look state.policy state.cursor))
  | .wrap _ _ inner finish => .call inner (.finish finish)
  | .both first second combine => .call first (.first second combine)
  | .andThen first next => .call first (.choosing next)
  | .repetition tag item limit => continueRepetition tag item limit []
  | .separated _ item separator => .call item (.firstItem item separator)
  | .choice tag alternatives => tryAlternatives tag alternatives alternatives
  | .retag tag inner => .become [] (inner.renamed tag)
  | .recording events inner => .become events inner
  | .recursive tag body => .call (Parser.unfold tag body) .passing
  | .self _ => .reply (.error .empty)
  | .handle tag slot =>
      match setting.arena.resolve tag slot with
      | .ok parser => .become [] parser
      | .error mismatch => .reply (.error mismatch)

def Pending.resume {ι α : Type} : Pending ι α → Outcome (Symbol α) → Move ι α
  | .finish complete, outcome => .ofFinished (complete (outcome.map Match.symbol))
  | .first other combine, .ok matched => .call other (.second matched.symbol combine)
  | .first _ _, .error mismatch => .reply (.error mismatch)
  | .second symbol combine, .ok matched => .reply (.ok (combine symbol matched.symbol))
  | .second _ _, .error mismatch => .reply (.error mismatch)
  | .choosing next, .ok matched => .call (next matched.symbol) .passing
  | .choosing _, .error mismatch => .reply (.error mismatch)
  | .passing, outcome => .reply (outcome.map Match.symbol)
  | .alternative _ _ _, .ok matched => .reply (.ok matched.symbol)
  | .alternative tag alternatives rest, .error _ => tryAlternatives tag alternatives rest
  | .iteration tag item limit taken, .ok matched =>
      if matched.span.isEmpty then
        .reply (endRepetition tag item limit (matched.symbol :: taken) none)
      else
        continueRepetition tag item limit (matched.symbol :: taken)
  | .iteration tag item limit taken, .error mismatch =>
      .reply (endRepetition tag item limit taken (some mismatch))
  | .firstItem item separator, .ok matched => continueList item separator [matched.symbol]
  | .firstItem _ _, .error _ => .reply (.ok (.list []))
  | .nextItem item separator taken, .ok matched =>
      if matched.span.isEmpty then
        .reply (.ok (.list (matched.symbol :: taken).reverse))
      else
        continueList item separator (matched.symbol :: taken)
  | .nextItem _ _ taken, .error _ => .reply (.ok (.list taken.reverse))

def callAt {ι α : Type} [Input ι] (input : ι) (position : Nat) (parser : Parser ι α) : Call :=
  ⟨position, parser.tag, Input.remaining input position⟩

/--
End a call with the outcome that the policies returned.  The cursor goes to the end
of a match and back to the start of the call otherwise.  A symbol of another kind than
the parser promises was stored under the same tag by an unrelated parser.
-/
def settle {α : Type} (call : Call) (kind : Kind) (outcome : Outcome (Sealed α))
    (state : State α) : Outcome (Symbol α) × State α :=
  match outcome with
  | .error mismatch => (.error mismatch, state.moveTo call.position)
  | .ok matched =>
      if matched.symbol.kind = kind then
        (.ok (matched.map Sealed.symbol), state.moveTo matched.span.stop)
      else
        (.error (.expected call.tag "a single symbol type per tag"),
          (state.record [.sharedTag call.tag matched.span.start]).moveTo call.position)

/--
The outcome of a body that has ended, with the input between the start of the call and the cursor.
-/
def sealResult {α : Type} (call : Call) (kind : Kind) (cursor : Nat) :
    Result α → Except Fault (Outcome (Sealed α))
  | .error mismatch => .ok (.error mismatch)
  | .ok symbol =>
      match Span.between call.position cursor with
      | .ok span => .ok (.ok ⟨⟨kind, symbol⟩, span⟩)
      | .error fault => .error fault

/-! ## The machine -/

inductive Frame (ι α : Type) where
  | active (call : Call) (kind : Kind)
  | waiting (pending : Pending ι α)

inductive Control (ι α : Type) where
  | call (parser : Parser ι α)
  | body (parser : Parser ι α)
  | move (move : Move ι α)
  | answer (outcome : Outcome (Symbol α))

/-- A configuration of the machine; the innermost frame comes first. -/
structure Config (ι α : Type) where
  control : Control ι α
  stack : List (Frame ι α)
  state : State α

inductive Halt (α : Type) where
  | answered (outcome : Outcome (Symbol α))
  | replied (result : Result α)
  | faulted (fault : Fault)

inductive Progress (ι α : Type) where
  | next (config : Config ι α)
  | halt (halt : Halt α) (state : State α)

namespace Config

variable {ι α : Type} [Input ι]

def beginCall (setting : Setting ι α) (parser : Parser ι α) (stack : List (Frame ι α)) :
    State α → Config ι α
  | ⟨cursor, policy, journal⟩ =>
      let call := callAt setting.input cursor parser
      let entry := policy.enter call
      let entered := State.record ⟨cursor, entry.policy, journal⟩ entry.events
      match entry.answer with
      | some outcome =>
          let (settled, final) := settle call parser.kind outcome entered
          ⟨.answer settled, stack, final⟩
      | none => ⟨.body parser, .active call parser.kind :: stack, entered⟩

def endCall (call : Call) (kind : Kind) (outcome : Outcome (Sealed α))
    (stack : List (Frame ι α)) : State α → Config ι α
  | ⟨cursor, policy, journal⟩ =>
      let exit := policy.leave call outcome
      let left := State.record ⟨cursor, exit.policy, journal⟩ exit.events
      let (settled, final) := settle call kind exit.outcome left
      ⟨.answer settled, stack, final⟩

def endBody (result : Result α) (stack : List (Frame ι α)) (state : State α) : Progress ι α :=
  match stack with
  | .active call kind :: rest =>
      match sealResult call kind state.cursor result with
      | .ok outcome => .next (endCall call kind outcome rest state)
      | .error fault => .halt (.faulted fault) state
  | _ => .halt (.replied result) state

def perform (move : Move ι α) (stack : List (Frame ι α)) (state : State α) : Progress ι α :=
  match move with
  | .reply result => endBody result stack state
  | .read symbol stop => endBody (.ok symbol) stack (state.moveTo stop)
  | .call parser pending => .next ⟨.call parser, .waiting pending :: stack, state⟩
  | .become events parser => .next ⟨.body parser, stack, state.record events⟩
  | .abort fault => .halt (.faulted fault) state

def step (setting : Setting ι α) : Config ι α → Progress ι α
  | ⟨.call parser, stack, state⟩ => .next (beginCall setting parser stack state)
  | ⟨.body parser, stack, state⟩ => .next ⟨.move (parser.start setting state), stack, state⟩
  | ⟨.move move, stack, state⟩ => perform move stack state
  | ⟨.answer outcome, .waiting pending :: stack, state⟩ =>
      .next ⟨.move (pending.resume outcome), stack, state⟩
  | ⟨.answer outcome, _, state⟩ => .halt (.answered outcome) state

/-- Run the machine for a number of steps; nothing if that is too few. -/
def run (setting : Setting ι α) : Nat → Config ι α → Option (Halt α × State α)
  | 0, _ => none
  | steps + 1, config =>
      match config.step setting with
      | .next config => run setting steps config
      | .halt halt state => some (halt, state)

end Config

end Packrat
