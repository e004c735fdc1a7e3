import Packrat.Double.Notation
import Packrat.Json.Basic
import Packrat.Text.Quoted

/-!
# Writing JSON

The compact form has no blanks.  The pretty form puts every item and member on a line
of its own, indented by two spaces for each level.  An infinite number has no literal
and is written as null.
-/

namespace Packrat.Json

def escapeCharacter (c : Char) : List Char :=
  match c with
  | '"' => ['\\', '"']
  | '\\' => ['\\', '\\']
  | '\x08' => ['\\', 'b']
  | '\x0c' => ['\\', 'f']
  | '\n' => ['\\', 'n']
  | '\r' => ['\\', 'r']
  | '\t' => ['\\', 't']
  | _ =>
      if c.toNat < 0x20 then
        let digits := Nat.toDigits 16 c.toNat
        '\\' :: 'u' :: (List.replicate (4 - digits.length) '0' ++ digits)
      else
        [c]

def stringLiteral (text : String) : String :=
  "\"" ++ String.ofList (text.toList.flatMap escapeCharacter) ++ "\""

def numberLiteral (value : Double) : String :=
  if value.isFinite then value.text else "null"

def boolLiteral (value : Bool) : String := if value then "true" else "false"

mutual

def compact : Json → String
  | object members => "\x7b" ++ compactMembers members ++ "\x7d"
  | array items => "[" ++ compactItems items ++ "]"
  | number value => numberLiteral value
  | string text => stringLiteral text
  | bool value => boolLiteral value
  | null => "null"

def compactItems : List Json → String
  | [] => ""
  | [item] => item.compact
  | item :: rest => item.compact ++ "," ++ compactItems rest

def compactMembers : List (String × Json) → String
  | [] => ""
  | [(key, value)] => stringLiteral key ++ ":" ++ value.compact
  | (key, value) :: rest =>
      stringLiteral key ++ ":" ++ value.compact ++ "," ++ compactMembers rest

end

def newLine (level : Nat) : String := "\n".pushn ' ' (2 * level)

mutual

def prettyPieces (level : Nat) : Json → List String
  | object [] => ["\x7b\x7d"]
  | object (member :: rest) =>
      "\x7b" :: (prettyMembers (level + 1) (member :: rest) ++ [newLine level, "\x7d"])
  | array [] => ["[]"]
  | array (item :: rest) =>
      "[" :: (prettyItems (level + 1) (item :: rest) ++ [newLine level, "]"])
  | number value => [numberLiteral value]
  | string text => [stringLiteral text]
  | bool value => [boolLiteral value]
  | null => ["null"]

def prettyItems (level : Nat) : List Json → List String
  | [] => []
  | [item] => newLine level :: prettyPieces level item
  | item :: rest => newLine level :: (prettyPieces level item ++ "," :: prettyItems level rest)

def prettyMembers (level : Nat) : List (String × Json) → List String
  | [] => []
  | [(key, value)] => newLine level :: stringLiteral key :: ": " :: prettyPieces level value
  | (key, value) :: rest =>
      newLine level :: stringLiteral key :: ": " ::
        (prettyPieces level value ++ "," :: prettyMembers level rest)

end

def pretty (json : Json) : String := String.join (prettyPieces 0 json)

end Packrat.Json
