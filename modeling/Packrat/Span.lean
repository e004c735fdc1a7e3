/-!
# Spans and faults

A span is the part of the input between two positions.  A fault is a broken rule
of the engine itself, as opposed to an input that does not match: it ends every run
that meets it.
-/

namespace Packrat

/-- A broken rule of the engine or of an evaluation step. -/
inductive Fault where
  | reversedSpan
  | offCursor
  | pastEnd
  | splitCharacter
  | overflow
  deriving DecidableEq, Repr

/-- The positions from `start` up to, and without, `stop`. -/
structure Span where
  start : Nat
  stop : Nat
  deriving DecidableEq, Repr

namespace Span

/-- The span between two positions; the second may not come before the first. -/
def between (start stop : Nat) : Except Fault Span :=
  if start ≤ stop then .ok ⟨start, stop⟩ else .error .reversedSpan

def length (span : Span) : Nat := span.stop - span.start

def isEmpty (span : Span) : Bool := span.start == span.stop

def order (one other : Span) : Ordering :=
  (compare one.start other.start).then (compare one.stop other.stop)

end Span

end Packrat
