import Packrat.Calculator.Arithmetic
import Packrat.Lexer
import Packrat.Unicode.DecimalDigit

/-!
# Tokens of the calculator

A source is cut into operators, parentheses and numbers, with blanks in between that
are dropped.  A number is a longest run of decimal digits of any script, but only digits
of ASCII have a value, and the value has to fit into 32 bits.
-/

namespace Packrat.Calculator

inductive Token where
  | plus
  | minus
  | times
  | dividedBy
  | opening
  | closing
  | number (n : Int)
  deriving DecidableEq, Repr

namespace Token

def shown : Token → String
  | plus => "Plus"
  | minus => "Minus"
  | times => "Mul"
  | dividedBy => "Div"
  | opening => "LParen"
  | closing => "RParen"
  | number n => s!"Number({n})"

def ofCharacter? (c : Char) : Option Token :=
  match c with
  | '+' => some plus
  | '-' => some minus
  | '*' => some times
  | '/' => some dividedBy
  | '(' => some opening
  | ')' => some closing
  | _ => none

def isBlank (c : Char) : Bool := c = ' ' || c = '\t' || c = '\n' || c = '\x0c'

/-- A blank, an operator, a parenthesis, or a longest run of digits. -/
def lexer : Lexer Token where
  cut c rest :=
    if isBlank c then .skipped 0
    else
      match ofCharacter? c with
      | some token => .token token 0
      | none =>
          if Unicode.isDecimalDigit c then
            let digits := rest.takeWhile Unicode.isDecimalDigit
            match Signed.read? 32 (String.ofList (c :: digits)) with
            | some n => .token (.number n) digits.length
            | none => .unknown digits.length
          else
            .unknown 0

end Token

def lex (source : String) : Except LexError (Lexed Token) := Token.lexer.lex source

end Packrat.Calculator
