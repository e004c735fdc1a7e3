import Packrat.Call

/-!
# Tracing the farthest failure

Backtracking throws most mismatches away, and the outermost one says least.  The
tracer remembers the mismatches of the calls that started farthest into the input,
each with the calls that were active when it arose.  Adjacent active calls with equal
position and tag share one frame, which counts them.
-/

namespace Packrat

/-- Adjacent active calls with one position and one tag. -/
structure TraceFrame where
  position : Nat
  tag : Option Tag
  depth : Nat
  deriving DecidableEq, Repr

namespace TraceFrame

def text (frame : TraceFrame) : String :=
  let name := s!"{frame.position}:{Tag.describe frame.tag}"
  if 1 < frame.depth then s!"{name}×{frame.depth}" else name

end TraceFrame

/-- The active calls, innermost first. -/
abbrev Trace := List TraceFrame

namespace Trace

def push (trace : Trace) (position : Nat) (tag : Option Tag) : Trace :=
  match trace with
  | [] => [⟨position, tag, 1⟩]
  | frame :: rest =>
      if frame.position = position ∧ frame.tag = tag then
        { frame with depth := frame.depth + 1 } :: rest
      else
        ⟨position, tag, 1⟩ :: frame :: rest

def pop (trace : Trace) : Trace :=
  match trace with
  | [] => []
  | frame :: rest =>
      if 1 < frame.depth then { frame with depth := frame.depth - 1 } :: rest else rest

def text (trace : Trace) : String :=
  " ◂ ".intercalate ((trace.filter fun frame => frame.tag.isSome).map TraceFrame.text)

end Trace

/-- A mismatch with the calls that were active when it arose. -/
structure Failure where
  trace : Trace
  mismatch : Mismatch
  deriving DecidableEq, Repr

/-- The failures at the farthest position, latest first. -/
structure FarthestFailure where
  position : Nat
  latest : List Failure
  deriving DecidableEq, Repr

namespace FarthestFailure

def failures (farthest : FarthestFailure) : List Failure := farthest.latest.reverse

def text (farthest : FarthestFailure) : String :=
  s!"Mismatches at position {farthest.position}:" ++
    String.join (farthest.failures.map fun failure =>
      "\n\n" ++ Trace.text failure.trace ++ "\n" ++ failure.mismatch.text)

end FarthestFailure

structure Tracer where
  stack : Trace
  farthest : Option FarthestFailure

namespace Tracer

def empty : Tracer := ⟨[], none⟩

def opened (tracer : Tracer) (call : Call) : Tracer :=
  { tracer with stack := tracer.stack.push call.position call.tag }

def closed (tracer : Tracer) : Tracer := { tracer with stack := tracer.stack.pop }

def isNewFarthest (tracer : Tracer) (position : Nat) : Bool :=
  tracer.farthest.all (·.position < position)

/--
Record a failure, which counts only at the farthest position and if it does not repeat the last
one.
-/
def register (tracer : Tracer) (position : Nat) (mismatch : Mismatch) : Tracer :=
  match tracer.farthest with
  | none => { tracer with farthest := some ⟨position, [⟨tracer.stack, mismatch⟩]⟩ }
  | some farthest =>
      if position < farthest.position then tracer
      else if farthest.position < position then
        { tracer with farthest := some ⟨position, [⟨tracer.stack, mismatch⟩]⟩ }
      else if farthest.latest.head?.map (·.mismatch) = some mismatch then tracer
      else
        { tracer with
          farthest := some ⟨position, ⟨tracer.stack, mismatch⟩ :: farthest.latest⟩ }

end Tracer

end Packrat
