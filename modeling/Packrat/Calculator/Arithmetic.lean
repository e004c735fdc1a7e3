import Packrat.Parser.Basic
import Packrat.Signed

/-!
# Arithmetic on symbols

The calculators compute with signed integers of a fixed width.  Sums, differences and
products outside the width are faults.  A quotient without a value is a mismatch.
-/

namespace Packrat.Calculator

abbrev Value := Symbol Int

/-- Combine the integers of a pair; the result has to fit. -/
def combine (bits : Nat) (operation : Int → Int → Int) (value : Value) :
    Except Fault (Result Int) :=
  match value with
  | .pair (.atom left) (.atom right) =>
      if Signed.fits bits (operation left right) then .ok (.ok (.atom (operation left right)))
      else .error .overflow
  | other => .ok (.ok other)

/-- Divide the integers of a pair, rounding toward zero. -/
def divide (bits : Nat) (value : Value) : Result Int :=
  match value with
  | .pair (.atom left) (.atom right) =>
      match Signed.divide? bits left right with
      | some quotient => .ok (.atom quotient)
      | none => .error (.expected none "a non-zero divisor")
  | other => .ok other

def operands {ι : Type} (left operator right : Parser ι Int) : Parser ι Int :=
  (left.thenIgnore operator).followedBy right

def computed {ι : Type} (bits : Nat) (operation : Int → Int → Int)
    (left operator right : Parser ι Int) : Parser ι Int :=
  (operands left operator right).compute (combine bits operation)

def divided {ι : Type} (bits : Nat) (left operator right : Parser ι Int) : Parser ι Int :=
  (operands left operator right).tryMap (divide bits)

end Packrat.Calculator
