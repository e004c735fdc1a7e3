import Packrat.Double.Shortest

/-!
# Writing doubles

A double is written with the fewest digits that read back.  Zero and magnitudes from
`1e-5` up to, and without, `1e16` are written in plain notation and always have a
fraction; others have an exponent with its sign.
-/

namespace Packrat.Double

def digitsOf (n : Nat) : List Char := Nat.toDigits 10 n

/-- Digits of which the first counts the given power of ten, in plain notation. -/
def plainText (digits : List Char) (power : Int) : String :=
  if power < 0 then
    "0." ++ String.ofList (List.replicate (-power - 1).toNat '0' ++ digits)
  else
    let whole := digits.take (power.toNat + 1)
    let fraction := digits.drop (power.toNat + 1)
    String.ofList (whole ++ List.replicate (power.toNat + 1 - whole.length) '0') ++ "." ++
      (if fraction.isEmpty then "0" else String.ofList fraction)

def exponentText (digits : List Char) (power : Int) : String :=
  let fraction := digits.drop 1
  String.ofList (digits.take 1) ++
    (if fraction.isEmpty then "" else "." ++ String.ofList fraction) ++
    "e" ++ (if power < 0 then "-" else "+") ++ toString power.natAbs

def magnitudeText (code : Nat) : String :=
  if code = 0 then "0.0"
  else
    let decimal := shortest code
    let digits := digitsOf decimal.digits
    let power := decimal.exponent + digits.length - 1
    if -5 ≤ power && power < 16 then plainText digits power else exponentText digits power

def text (double : Double) : String :=
  (if double.negative then "-" else "") ++ magnitudeText double.code

end Packrat.Double
