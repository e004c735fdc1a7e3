import Packrat.Policy.Basic

/-!
# Policies given as data

A shape says which policies wrap the calls of an engine.  What the policies remember
can be looked at only where the shape names them; a standard chain keeps its parts to
itself.
-/

namespace Packrat.Workbench

inductive Shape where
  | identity
  | tracer
  | depthLimiter
  | memoizer
  | standard
  | recorder (name : String)
  | chain (outer inner : Shape)
  deriving DecidableEq, Repr

namespace Shape

variable {α : Type}

def policy : Shape → Policy α
  | identity => .identity
  | tracer => .tracer .empty
  | depthLimiter => .depthLimiter .empty
  | memoizer => .memoizer .empty
  | standard => .standard
  | recorder name => .recorder name
  | chain outer inner => .chain outer.policy inner.policy

def tracers : Shape → Policy α → List Tracer
  | tracer, .tracer state => [state]
  | chain outer inner, .chain one other => outer.tracers one ++ inner.tracers other
  | _, _ => []

def depthLimiters : Shape → Policy α → List DepthLimiter
  | depthLimiter, .depthLimiter state => [state]
  | chain outer inner, .chain one other => outer.depthLimiters one ++ inner.depthLimiters other
  | _, _ => []

def memoizers : Shape → Policy α → List (Memoizer α)
  | memoizer, .memoizer state => [state]
  | chain outer inner, .chain one other => outer.memoizers one ++ inner.memoizers other
  | _, _ => []

def changeMemoizers (change : Memoizer α → Memoizer α) : Shape → Policy α → Policy α
  | memoizer, .memoizer state => .memoizer (change state)
  | chain outer inner, .chain one other =>
      .chain (outer.changeMemoizers change one) (inner.changeMemoizers change other)
  | _, policy => policy

end Shape

end Packrat.Workbench
