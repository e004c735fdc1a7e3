import Packrat.Double.Basic

/-!
# The shortest decimal that reads back

Among the decimals that are nearest to no other double, the one with the fewest digits
is written.  On the grid of decimals with a given number of digits only the two
neighbours of the exact value need to be tried; of two that read back the nearer one is
taken, and of two equally near ones the one with an even last digit.
-/

namespace Packrat.Double

structure Decimal where
  digits : Nat
  exponent : Int
  deriving DecidableEq, Repr

namespace Decimal

def code (decimal : Decimal) : Nat := ofDecimal decimal.digits decimal.exponent

/-- The decimal without zeros at the end of its digits; at most so many are dropped. -/
def trimmed (decimal : Decimal) : Nat → Decimal
  | 0 => decimal
  | count + 1 =>
      if decimal.digits % 10 = 0 && decimal.digits ≠ 0 then
        trimmed ⟨decimal.digits / 10, decimal.exponent + 1⟩ count
      else
        decimal

end Decimal

/--
The decimal exponent of a finite code: its value is below ten to that power and not below a tenth
of it.
-/
def decimalRank (code : Nat) : Int :=
  decimalLength (unitsOf code * Nat.pow 10 400 / Nat.pow 2 unitExponent) - 400

def inPowers (code : Nat) (exponent : Int) : Nat × Nat :=
  if 0 ≤ exponent then (unitsOf code, Nat.pow 2 unitExponent * Nat.pow 10 exponent.toNat)
  else (unitsOf code * Nat.pow 10 (-exponent).toNat, Nat.pow 2 unitExponent)

/-- A neighbour of the exact value that reads back, on the grid with the given power of ten. -/
def onGrid (code : Nat) (exponent : Int) : Option Decimal :=
  let (numerator, denominator) := inPowers code exponent
  let below := numerator / denominator
  let lower : Decimal := ⟨below, exponent⟩
  let upper : Decimal := ⟨below + 1, exponent⟩
  let twice := 2 * (numerator % denominator)
  let lowerFirst := twice < denominator || (twice == denominator && below % 2 == 0)
  let one := if lowerFirst then lower else upper
  let other := if lowerFirst then upper else lower
  if one.code = code then some one
  else if other.code = code then some other
  else none

def exactDecimal (code : Nat) : Decimal := ⟨unitsOf code * Nat.pow 5 unitExponent, -unitExponent⟩

def shortestFrom (code : Nat) (rank : Int) : Nat → Nat → Decimal
  | 0, _ => exactDecimal code
  | fuel + 1, digits =>
      match onGrid code (rank - digits) with
      | some decimal => decimal
      | none => shortestFrom code rank fuel (digits + 1)

/-- The shortest decimal that reads back as a finite code other than zero. -/
def shortest (code : Nat) : Decimal := (shortestFrom code (decimalRank code) 20 1).trimmed 20

end Packrat.Double
