import Std.Data.HashMap
import Packrat.Call
import Packrat.Outcome

/-!
# Remembering outcomes

The memoizer keeps the outcome of every tagged call by its key and answers later
calls of the key from it.  While a call runs, calls of the same key that it makes may
have stored an outcome already; the new outcome then replaces the stored one only if
it improves on it.  Stored outcomes therefore only ever grow, which is what lets a left
recursive rule reach its longest match.
-/

namespace Packrat

structure Memoizer (α : Type) where
  entries : Std.HashMap Key (Outcome (Sealed α))

namespace Memoizer

variable {α : Type}

def empty : Memoizer α := ⟨∅⟩

def find? (memo : Memoizer α) (key : Key) : Option (Outcome (Sealed α)) := memo.entries[key]?

def insert (memo : Memoizer α) (key : Key) (outcome : Outcome (Sealed α)) : Memoizer α :=
  ⟨memo.entries.insert key outcome⟩

/-- A match improves on a mismatch and on a match that ends earlier. -/
def improves {σ : Type} (stored candidate : Outcome σ) : Bool :=
  match stored, candidate with
  | _, .error _ => false
  | .error _, .ok _ => true
  | .ok old, .ok new => old.span.stop < new.span.stop

/-- The outcome that a finished call returns: the stored one unless the new one improves on it. -/
def better {σ : Type} (stored : Option (Outcome σ)) (candidate : Outcome σ) : Outcome σ :=
  match stored with
  | none => candidate
  | some outcome => if improves outcome candidate then candidate else outcome

def stores {σ : Type} (stored : Option (Outcome σ)) (candidate : Outcome σ) : Bool :=
  stored.all (improves · candidate)

end Memoizer

end Packrat
