/-!
# Doubles

A `Double` is a binary floating-point number of 64 bits that is a number or an
infinity.  Its magnitude is kept in the interchange encoding, so that greater
magnitudes have greater codes.  The value of a finite code is a whole number of units,
one unit being the smallest positive magnitude.
-/

namespace Packrat

/-- A signed magnitude, given by its code. -/
structure Double where
  negative : Bool
  code : Nat
  deriving DecidableEq, Repr

namespace Double

def binade : Nat := Nat.pow 2 52

def infinityCode : Nat := 2047 * binade

/-- One is `2 ^ unitExponent` units. -/
def unitExponent : Nat := 1074

def unitsOf (code : Nat) : Nat :=
  if code < binade then code else (binade + code % binade) * Nat.pow 2 (code / binade - 1)

def isFinite (double : Double) : Bool := double.code < infinityCode

def bits (double : Double) : Nat := (if double.negative then Nat.pow 2 63 else 0) + double.code

/-- The whole number nearest to a quotient, the even one of two that are equally near. -/
def nearestWhole (numerator denominator : Nat) : Nat :=
  let quotient := numerator / denominator
  let twice := 2 * (numerator % denominator)
  if twice < denominator then quotient
  else if denominator < twice then quotient + 1
  else quotient + quotient % 2

/-- The code nearest to a quotient; what lies beyond the finite codes is infinite. -/
def nearest (numerator denominator : Nat) : Nat :=
  let scaled := numerator * Nat.pow 2 unitExponent
  let shift := Nat.log2 (scaled / denominator) - 52
  min infinityCode (shift * binade + nearestWhole scaled (denominator * Nat.pow 2 shift))

def decimalLength (n : Nat) : Nat := (Nat.toDigits 10 n).length

/-- The code nearest to a decimal number, given by its digits and the power of ten they count. -/
def ofDecimal (digits : Nat) (exponent : Int) : Nat :=
  let rank := decimalLength digits + exponent
  if digits = 0 then 0
  else if 310 < rank then infinityCode
  else if rank < -330 then 0
  else if 0 ≤ exponent then nearest (digits * Nat.pow 10 exponent.toNat) 1
  else nearest digits (Nat.pow 10 (-exponent).toNat)

end Double

end Packrat
