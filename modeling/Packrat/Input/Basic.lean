/-!
# Inputs

An input is an immutable sequence that is read by position.  Positions of a text
are byte offsets of its encoding, and positions of a token sequence are indices.
-/

namespace Packrat

class Input (ι : Type) where
  size : ι → Nat

namespace Input

variable {ι : Type} [Input ι]

/-- A bound on the number of elements from a position onward. -/
def remaining (input : ι) (position : Nat) : Nat := size input - position

end Input

instance {τ : Type} : Input (Array τ) where
  size := Array.size

end Packrat
