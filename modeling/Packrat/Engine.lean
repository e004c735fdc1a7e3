import Packrat.Machine

/-!
# Engines

An engine is a setting together with the state that parsing has left behind.  Its
operations run a parser at the cursor for at most a given number of machine steps; a
grammar that recurses without end never gives an answer, however large that number is.
-/

namespace Packrat

/-- An input that was rejected: the mismatch of the start parser and the farthest failure. -/
structure ParseError where
  mismatch : Mismatch
  farthest : Option FarthestFailure
  deriving DecidableEq, Repr

namespace ParseError

def position (error : ParseError) : Option Nat := error.farthest.map (·.position)

def text (error : ParseError) : String := error.mismatch.text

end ParseError

inductive Run (α β : Type) where
  | done (value : β) (state : State α)
  | faulted (fault : Fault) (state : State α)
  | unfinished

namespace Run

variable {α β γ : Type}

def andThen (run : Run α β) (next : β → State α → Run α γ) : Run α γ :=
  match run with
  | done value state => next value state
  | faulted fault state => faulted fault state
  | unfinished => unfinished

def map (run : Run α β) (f : β → γ) : Run α γ := run.andThen fun value state => done (f value) state

end Run

namespace State

variable {α : Type}

def initial (policy : Policy α) : State α := ⟨0, policy, []⟩

/-- Consume a match, which has to start at the cursor and end inside an input of the given size. -/
def accept {σ : Type} (size : Nat) (matched : Match σ) (state : State α) : Run α σ :=
  if matched.span.start = state.cursor then
    if matched.span.stop ≤ size then
      .done matched.symbol (state.moveTo matched.span.stop)
    else
      .faulted .pastEnd state
  else
    .faulted .offCursor state

end State

namespace Setting

variable {ι α : Type} [Input ι]

def runMatch (setting : Setting ι α) (steps : Nat) (parser : Parser ι α) (state : State α) :
    Run α (Outcome (Symbol α)) :=
  match Config.run setting steps ⟨.call parser, [], state⟩ with
  | some (.answered outcome, final) => .done outcome final
  | some (.faulted fault, final) => .faulted fault final
  | some (.replied _, _) => .unfinished
  | none => .unfinished

def run (setting : Setting ι α) (steps : Nat) (parser : Parser ι α) (state : State α) :
    Run α (Result α) :=
  (setting.runMatch steps parser state).map fun outcome => outcome.map Match.symbol

/-- Run the body of a parser without calling it: no policy sees it and nothing is undone. -/
def runBody (setting : Setting ι α) (steps : Nat) (parser : Parser ι α) (state : State α) :
    Run α (Result α) :=
  match Config.run setting steps ⟨.body parser, [], state⟩ with
  | some (.replied result, final) => .done result final
  | some (.faulted fault, final) => .faulted fault final
  | some (.answered _, _) => .unfinished
  | none => .unfinished

def runToEnd (setting : Setting ι α) (steps : Nat) (parser : Parser ι α) (state : State α) :
    Run α (Except ParseError (Symbol α)) :=
  (setting.run steps parser state).andThen fun result middle =>
    match result with
    | .error mismatch => .done (.error ⟨mismatch, middle.policy.farthestFailure⟩) middle
    | .ok symbol =>
        (setting.run steps Parser.endOfInput middle).andThen fun atEnd final =>
          match atEnd with
          | .error mismatch => .done (.error ⟨mismatch, final.policy.farthestFailure⟩) final
          | .ok _ => .done (.ok symbol) final

def parse (setting : Setting ι α) (steps : Nat) (parser : Parser ι α) :
    Run α (Except ParseError (Symbol α)) :=
  setting.runToEnd steps parser (.initial .standard)

end Setting

end Packrat
