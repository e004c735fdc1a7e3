import Packrat.Mismatch
import Packrat.Span

/-!
# Calls and events

A call is one attempt to run a parser at a position.  Events are what the parts of
an engine put on record while calls are made, in order.
-/

namespace Packrat

structure Call where
  position : Nat
  tag : Option Tag
  remaining : Nat
  deriving DecidableEq, Repr

/-- A tagged call is known by its position and its tag. -/
structure Key where
  position : Nat
  tag : Tag
  deriving DecidableEq, Hashable, Repr

namespace Call

def key? (call : Call) : Option Key := call.tag.map (⟨call.position, ·⟩)

end Call

inductive Event where
  | memoHit (key : Key)
  | memoStore (key : Key) (matched : Bool)
  | recursionRefused (key : Key) (depth : Nat)
  | newFarthest (position : Nat) (mismatch : Mismatch)
  | sharedTag (tag : Option Tag) (position : Nat)
  | lexingStopped (span : Span)
  | documentRejected (position : Option Nat) (mismatch : Mismatch)
  | entered (recorder : String) (call : Call)
  | left (recorder : String) (call : Call) (extent : Except Mismatch Span)
  | executed (counter : String)

end Packrat
