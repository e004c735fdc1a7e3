import Packrat.Double.Basic
import Packrat.Signed

/-!
# Number literals

A literal has a sign, whole digits, a fraction and an exponent, of which only the whole
digits are required.  It denotes the nearest double.
-/

namespace Packrat.Double

def readExponent (chars : List Char) : Option Int :=
  match chars with
  | [] => some 0
  | mark :: rest =>
      if mark = 'e' || mark = 'E' then
        match rest with
        | '+' :: digits => (Signed.readDigits? digits).map Int.ofNat
        | '-' :: digits => (Signed.readDigits? digits).map fun n => -(n : Int)
        | digits => (Signed.readDigits? digits).map Int.ofNat
      else
        none

def readMagnitude (chars : List Char) : Option Nat :=
  let whole := chars.takeWhile Char.isDigit
  let afterWhole := chars.dropWhile Char.isDigit
  match afterWhole with
  | '.' :: rest => do
      let fraction := rest.takeWhile Char.isDigit
      let exponent ← readExponent (rest.dropWhile Char.isDigit)
      let digits ← Signed.readDigits? (whole ++ fraction)
      some (ofDecimal digits (exponent - fraction.length))
  | _ => do
      let exponent ← readExponent afterWhole
      let digits ← Signed.readDigits? whole
      some (ofDecimal digits exponent)

def ofLiteral? (literal : String) : Option Double :=
  match literal.toList with
  | '-' :: chars => (readMagnitude chars).map (⟨true, ·⟩)
  | chars => (readMagnitude chars).map (⟨false, ·⟩)

end Packrat.Double
