import Packrat.Signed
import Packrat.Symbol
import Packrat.Text.Quoted

/-!
# Values of the workbench

The workbench runs grammars that are given as data.  Their symbols are built from
characters, strings, integers and tokens, and every symbol can be read as a text, as
an integer or as a length.
-/

namespace Packrat.Workbench

inductive Token where
  | number (n : Int)
  | word (text : String)
  deriving DecidableEq, Repr

namespace Token

def shown : Token → String
  | number n => toString n
  | word text => Text.quoted text

def text : Token → String
  | number n => toString n
  | word text => text

end Token

inductive Datum where
  | integer (n : Int)
  | token (token : Token)
  deriving DecidableEq, Repr

namespace Datum

def text : Datum → String
  | integer n => toString n
  | token held => held.text

end Datum

abbrev Value := Symbol Datum

def integerSymbol (n : Int) : Value := .atom (.integer n)

def tokenSymbol (token : Token) : Value := .atom (.token token)

def textOf (value : Value) : String := value.plainText Datum.text

/-- A value as an integer of 64 bits; zero if its text is none. -/
def numberOf (value : Value) : Int :=
  match value with
  | .atom (.integer n) => n
  | .atom (.token (.number n)) => n
  | other => (Signed.read? 64 (textOf other)).getD 0

/-- The number of items of a list, and otherwise the number of characters of the text. -/
def lengthOf (value : Value) : Nat :=
  match value with
  | .list items => items.length
  | other => (textOf other).length

end Packrat.Workbench
