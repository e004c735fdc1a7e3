import Packrat.Calculator.Token
import Packrat.Engine
import Packrat.Parser.OverTokens

/-!
# A calculator over tokens

The rules are recursive parsers inside one another: an expression mentions products,
and the terms of a product mention the expression around it.
-/

namespace Packrat.Calculator.OverTokens

def just (token : Token) : Parser (Array Token) Int := .just Token.shown (fun _ => .unit) token

def readNumber (token : Token) : Option Value :=
  match token with
  | .number n => some (.atom n)
  | _ => none

def term (expression : Parser (Array Token) Int) : Parser (Array Token) Int :=
  .oneOfTagged ⟨"term"⟩ [
    .select readNumber,
    ((just .opening).ignoreThen expression).thenIgnore (just .closing)]

/-- Terms that are multiplied and divided; inside it the expression is one level up. -/
def product : Parser (Array Token) Int :=
  .recursive ⟨"product"⟩ (.oneOf [
    computed 32 (· * ·) (.self 0) (just .times) (term (.self 1)),
    divided 32 (.self 0) (just .dividedBy) (term (.self 1)),
    term (.self 1)])

def expression : Parser (Array Token) Int :=
  .recursive ⟨"expr"⟩ (.oneOf [
    computed 32 (· + ·) (.self 0) (just .plus) product,
    computed 32 (· - ·) (.self 0) (just .minus) product,
    product])

def evaluate (steps : Nat) (tokens : Array Token) : Run Int (Except ParseError Value) :=
  Setting.parse ⟨tokens, .empty⟩ steps expression

end Packrat.Calculator.OverTokens
