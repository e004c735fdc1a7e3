/-!
# Signed integers of a fixed width

Integers of a fixed number of bits are integers in a range.  Operations either stay
inside the range, wrap around it, or have no value.
-/

namespace Packrat.Signed

def bound (bits : Nat) : Nat := Nat.pow 2 (bits - 1)

def fits (bits : Nat) (n : Int) : Bool := -(bound bits : Int) ≤ n && n < (bound bits : Int)

/-- The integer of the range that is equal up to a multiple of the number of values. -/
def wrap (bits : Nat) (n : Int) : Int := Int.bmod n (Nat.pow 2 bits)

/-- The quotient rounded toward zero, if the divisor is not zero and the quotient is in range. -/
def divide? (bits : Nat) (dividend divisor : Int) : Option Int :=
  if divisor = 0 then none
  else if fits bits (dividend.tdiv divisor) then some (dividend.tdiv divisor) else none

def digitsValue (digits : List Char) : Nat :=
  digits.foldl (fun value c => value * 10 + (c.toNat - '0'.toNat)) 0

def readDigits? (chars : List Char) : Option Nat :=
  if !chars.isEmpty && chars.all Char.isDigit then some (digitsValue chars) else none

/-- The integer in range that digits denote, with a sign before them or without one. -/
def read? (bits : Nat) (text : String) : Option Int :=
  let value : Option Int :=
    match text.toList with
    | '-' :: digits => (readDigits? digits).map fun n => -(n : Int)
    | '+' :: digits => (readDigits? digits).map Int.ofNat
    | digits => (readDigits? digits).map Int.ofNat
  value.filter (fits bits)

end Packrat.Signed
