import Packrat.Calculator.Arithmetic
import Packrat.Engine
import Packrat.Parser.OverText

/-!
# A calculator over texts

Sums and products are left recursive, so that operators of one rank associate to the
left.  The rules refer to one another through handles.
-/

namespace Packrat.Calculator.OverText

def blanks : Parser Text Int := .charsIn (.ofString " \t\n") (.atLeast 0)

def padded (parser : Parser Text Int) : Parser Text Int :=
  (blanks.ignoreThen parser).thenIgnore blanks

def expression : Parser Text Int := .handle ⟨"expr"⟩ 0

def sum : Parser Text Int := .handle ⟨"sum"⟩ 1

def product : Parser Text Int := .handle ⟨"product"⟩ 2

def readNumber (digits : Value) : Result Int :=
  match Signed.read? 64 (digits.plainText fun _ => "") with
  | some n => .ok (.atom n)
  | none => .error (.expected none "a number that fits in 64 bits")

def number : Parser Text Int :=
  ((Parser.charsIn (.range '0' '9') (.atLeast 1)).tryMap readNumber).labelled ⟨"number"⟩

def term : Parser Text Int :=
  .oneOfTagged ⟨"term"⟩ [
    padded number,
    ((padded (.literal "(")).ignoreThen expression).thenIgnore (padded (.literal ")"))]

def sumRule : Parser Text Int :=
  .oneOf [
    computed 64 (· + ·) sum (.literal "+") product,
    computed 64 (· - ·) sum (.literal "-") product,
    product]

def productRule : Parser Text Int :=
  .oneOf [
    computed 64 (· * ·) product (.literal "*") term,
    divided 64 product (.literal "/") term,
    term]

/-- The rules of all handles; an expression is a sum. -/
def arena : Arena Text Int := .ofParsers [sum, sumRule, productRule]

def evaluate (steps : Nat) (text : String) : Run Int (Except ParseError Value) :=
  Setting.parse ⟨.ofString text, arena⟩ steps expression

end Packrat.Calculator.OverText
