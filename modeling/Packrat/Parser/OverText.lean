import Packrat.CharSet.Notation
import Packrat.Input.Text
import Packrat.Parser.Basic

/-!
# Terminals over texts

Each terminal looks at the characters from the cursor onward and covers as many bytes
as the characters that it takes.  Looking from inside a character is a fault.
-/

namespace Packrat.Parser

variable {α : Type}

def characters (expectation : String) (find : List Char → Option (Symbol α × Nat)) :
    Parser Text α :=
  terminal expectation fun text position =>
    match text.rest position with
    | none => .error .splitCharacter
    | some chars => .ok (find chars)

def literal (wanted : String) : Parser Text α :=
  characters (Text.quoted wanted) fun chars =>
    if wanted.toList.isPrefixOf chars then some (.text wanted, wanted.utf8ByteSize) else none

def oneCharacter (expectation : String) (accepts : Char → Bool) : Parser Text α :=
  characters expectation fun chars =>
    match chars with
    | [] => none
    | c :: _ => if accepts c then some (.character c, c.utf8Size) else none

def satisfying (accepts : Char → Bool) : Parser Text α :=
  oneCharacter "a matching character" accepts

def charIn (set : CharSet) : Parser Text α := oneCharacter ("one of " ++ set.text) set.contains

/-- The longest run of accepted characters from the start that the greatest count allows. -/
def runOf (limit : CountLimit) (accepts : Char → Bool) (chars : List Char) : List Char :=
  match limit.greatest with
  | none => chars.takeWhile accepts
  | some greatest => (chars.take greatest).takeWhile accepts

/-- A run of accepted characters whose length the limit admits. -/
def characterRun (expectation : String) (limit : CountLimit) (accepts : Char → Bool) :
    Parser Text α :=
  characters expectation fun chars =>
    let run := runOf limit accepts chars
    if limit.admits run.length then some (.text (String.ofList run), byteLength run) else none

def takeWhile (limit : CountLimit) (accepts : Char → Bool) : Parser Text α :=
  characterRun (limit.text ++ " matching characters") limit accepts

def charsIn (set : CharSet) (limit : CountLimit) : Parser Text α :=
  characterRun (limit.text ++ " characters of " ++ set.text) limit set.contains

/-- What a matcher finds at the cursor; the description says what it looks for. -/
def matching (description : String) (matcher : Text → Nat → Option Captures) : Parser Text α :=
  terminal ("text matching " ++ description) fun text position =>
    .ok ((matcher text position).map fun found => (.captures found, found.text.utf8ByteSize))

end Packrat.Parser
