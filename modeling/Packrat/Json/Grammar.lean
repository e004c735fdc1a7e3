import Packrat.Double.Literal
import Packrat.Engine
import Packrat.Json.Basic
import Packrat.Parser.OverText
import Packrat.Regex.Pattern

/-!
# The grammar of JSON

A document is a value with blanks around it.  Blanks may stand before every token.
The later of two members with one key wins.
-/

namespace Packrat.Json.Grammar

inductive Part where
  | number (value : Double)
  | truth (value : Bool)
  | json (value : Json)

abbrev Value := Symbol Part

abbrev Rule := Parser Text Part

def textOf (value : Value) : String := value.plainText fun _ => ""

def joined (value : Value) : Value := .text (textOf value)

def jsonSymbol (json : Json) : Value := .atom (.json json)

def whitespace : Rule := (Parser.charsIn (.ofString " \t\n\r") (.atLeast 0)).labelled ⟨"whitespace"⟩

def token (parser : Rule) : Rule := whitespace.ignoreThen parser

def unescaped : CharSet :=
  ((CharSet.ofString "\"\\").union (.range '\x00' '\x1f')).inverted

def decodeShort (value : Value) : Value :=
  match value with
  | .character 'b' => .character '\x08'
  | .character 'f' => .character '\x0c'
  | .character 'n' => .character '\n'
  | .character 'r' => .character '\r'
  | .character 't' => .character '\t'
  | other => other

def hexValue (digits : String) : Nat :=
  digits.toList.foldl (fun value c => value * 16 + hexDigit c) 0
where
  hexDigit (c : Char) : Nat :=
    if c.isDigit then c.toNat - '0'.toNat
    else if 'a' ≤ c then c.toNat - 'a'.toNat + 10
    else c.toNat - 'A'.toNat + 10

/-- The character of a code point; surrogates are none. -/
def characterOf? (point : Nat) : Option Char :=
  if point.isValidChar then some (Char.ofNat point) else none

/-- The character of an escape by number, of which the second part is a low surrogate. -/
def decodeNumbers? (first second : Option String) : Option Char :=
  match first, second with
  | none, _ => none
  | some point, none => characterOf? (hexValue point)
  | some high, some low =>
      if 0xD800 ≤ hexValue high && hexValue high < 0xDC00 then
        characterOf? (0x10000 + (hexValue high - 0xD800) * 1024 + (hexValue low - 0xDC00))
      else
        none

def decodeEscape (value : Value) : Result Part :=
  match value with
  | .captures found =>
      match decodeNumbers? (found.group 1) (found.group 2) with
      | some c => .ok (.character c)
      | none => .error (.expected none ("a valid unicode escape, not `" ++ found.text ++ "`"))
  | other => .ok other

/-- Four hexadecimal digits and after them, if it follows, the escape of a low surrogate. -/
def escapePattern : String :=
  "([0-9A-Fa-f]\x7b4\x7d)(?:\\\\u([dD][c-fC-F][0-9A-Fa-f]\x7b2\x7d))?"

def compiledEscape : Except Regex.Pattern.Error Regex.Pattern :=
  Regex.Pattern.ofString escapePattern

def numberedEscape (text : Text) (start : Nat) : Option Captures := do
  (← compiledEscape.toOption).matchAt text start

def numbered : Rule := .matching ("regular expression `" ++ escapePattern ++ "`") numberedEscape

def shortEscape : Rule := (Parser.charIn (.ofString "\"\\/bfnrt")).map decodeShort

def unicodeEscape : Rule := ((Parser.literal "u").ignoreThen numbered).tryMap decodeEscape

def escape : Rule :=
  (((Parser.literal "\\").ignoreThen (.oneOf [shortEscape, unicodeEscape])).map joined).labelled
    ⟨"escape sequence"⟩

def string : Rule :=
  (((Parser.literal "\"").ignoreThen
    (Parser.many (.oneOf [.charsIn unescaped (.atLeast 1), escape]))).thenIgnore
      (.literal "\"")).map joined

def digits (limit : CountLimit) : Rule := .charsIn (.range '0' '9') limit

/-- The whole part of a number, which has no zero in front of other digits. -/
def integer : Rule :=
  .oneOf [
    .literal "0",
    ((Parser.charIn (.range '1' '9')).followedBy (digits (.atLeast 0))).map joined]

def fraction : Rule := ((Parser.literal ".").followedBy (digits (.atLeast 1))).map joined

def exponent : Rule :=
  (((Parser.charIn (.ofString "eE")).followedBy (Parser.maybe (.charIn (.ofString "+-")))).followedBy
    (digits (.atLeast 1))).map joined

def readNumber (value : Value) : Result Part :=
  match Double.ofLiteral? (textOf value) with
  | some double => .ok (.atom (.number double))
  | none => .error (.expected none "a double precision floating point number")

def number : Rule :=
  (token ((((Parser.maybe (.literal "-")).followedBy integer).followedBy
    (Parser.maybe fraction)).followedBy (Parser.maybe exponent))).tryMap readNumber

def toJson (value : Value) : Value :=
  match value with
  | .atom (.number double) => jsonSymbol (.number double)
  | .atom (.truth truth) => jsonSymbol (.bool truth)
  | .text text => jsonSymbol (.string text)
  | other => other

/-- The JSON values of symbols, as far as they have one. -/
def jsonItems (values : List Value) : List Json :=
  values.filterMap fun value =>
    match value with
    | .atom (.json json) => some json
    | _ => none

def jsonMembers (values : List Value) : List (String × Json) :=
  values.filterMap fun value =>
    match value with
    | .pair (.text key) (.atom (.json json)) => some (key, json)
    | _ => none

def toArray (value : Value) : Value :=
  match value with
  | .list items => jsonSymbol (.array (jsonItems items))
  | other => other

/-- Order the members of a list and keep the last one with each key. -/
def collectMembers (value : Value) : Value :=
  match value with
  | .list items =>
      .list ((orderMembers (jsonMembers items)).map fun (key, json) =>
        .pair (.text key) (jsonSymbol json))
  | other => other

def toObject (value : Value) : Value :=
  match value with
  | .list items => jsonSymbol (.object (jsonMembers items))
  | other => other

/-- A value; the one handle of the grammar. -/
def value : Rule := .handle ⟨"value"⟩ 0

def property : Rule :=
  (((token string).thenIgnore (token (.literal ":"))).followedBy value).labelled ⟨"property"⟩

def members : Rule :=
  (((token (.literal "\x7b")).ignoreThen (.list property (token (.literal ",")))).thenIgnore
    (token (.literal "\x7d"))).map collectMembers

def items : Rule :=
  ((token (.literal "[")).ignoreThen (.list value (token (.literal ",")))).thenIgnore
    (token (.literal "]"))

def boolean : Rule :=
  token (.oneOf [
    (Parser.literal "true").map fun _ => .atom (.truth true),
    (Parser.literal "false").map fun _ => .atom (.truth false)])

def valueRule : Rule :=
  .oneOfTagged ⟨"value"⟩ [
    (members.map toObject).labelled ⟨"object"⟩,
    (items.map toArray).labelled ⟨"array"⟩,
    (number.map toJson).labelled ⟨"number"⟩,
    ((token string).map toJson).labelled ⟨"string literal"⟩,
    (boolean.map toJson).labelled ⟨"boolean literal"⟩,
    ((token (.literal "null")).map fun _ => jsonSymbol .null).labelled ⟨"null"⟩]

def arena : Arena Text Part := .ofParsers [valueRule]

/-- A whole document, of which the end of the input is not a part. -/
def document : Rule := value.thenIgnore whitespace

end Packrat.Json.Grammar
