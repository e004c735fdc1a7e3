import Std.Data.HashMap
import Packrat.Call

/-!
# Limiting re-entrancy

A match consumes at most the remaining input, so a rule that is entered again at an
unchanged position more often than elements are left cannot find anything new.  The
depth limiter counts the active calls of every key and refuses the ones beyond that
bound, which turns left recursion into a finite descent.
-/

namespace Packrat

/-- The numbers of active calls by position and tag, with no entries where no call is active. -/
structure DepthLimiter where
  depths : Std.HashMap Nat (Std.HashMap Tag Nat)

namespace DepthLimiter

def empty : DepthLimiter := ⟨∅⟩

def depth (limiter : DepthLimiter) (key : Key) : Nat :=
  ((limiter.depths[key.position]?).bind fun tags => tags[key.tag]?).getD 0

def withDepth (limiter : DepthLimiter) (key : Key) (depth : Nat) : DepthLimiter :=
  if 0 < depth then
    let tags := limiter.depths.getD key.position ∅
    ⟨limiter.depths.insert key.position (tags.insert key.tag depth)⟩
  else
    match limiter.depths[key.position]? with
    | none => limiter
    | some tags =>
        let others := tags.erase key.tag
        if others.isEmpty then ⟨limiter.depths.erase key.position⟩
        else ⟨limiter.depths.insert key.position others⟩

def refusal (call : Call) : Mismatch :=
  .expected call.tag
    s!"at most {call.remaining + 1} nested attempts at this position (recursion bound exceeded)"

/-- The key has more active calls than elements are left. -/
def refuses (limiter : DepthLimiter) (key : Key) (remaining : Nat) : Bool :=
  remaining < limiter.depth key

def opened (limiter : DepthLimiter) (key : Key) : DepthLimiter :=
  limiter.withDepth key (limiter.depth key + 1)

def closed (limiter : DepthLimiter) (key : Key) : DepthLimiter :=
  limiter.withDepth key (limiter.depth key - 1)

end DepthLimiter

end Packrat
