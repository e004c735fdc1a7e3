import Packrat.Parser.OverText
import Packrat.Parser.OverTokens
import Packrat.Regex.Pattern
import Packrat.Workbench.Value

/-!
# Terminals given as data

A leaf names a terminal.  Each kind of input has its own leaves; a leaf that belongs to
the other kind, or whose pattern is malformed, gives no parser.
-/

namespace Packrat.Workbench

inductive BuildError where
  | badPattern (pattern : String) (error : Regex.Pattern.Error)
  | wrongInput
  | unknownName (name : String)
  deriving DecidableEq, Repr

namespace BuildError

def message : BuildError → String
  | badPattern pattern error =>
      "invalid regular expression `" ++ pattern ++ "`: " ++ error.message
  | wrongInput => "terminal of another kind of input"
  | unknownName name => "unknown name `" ++ name ++ "`"

end BuildError

inductive CharTest where
  | any
  | digit
  | letter
  | lower
  | beyondAscii
  | among (chars : String)
  | not (test : CharTest)
  deriving DecidableEq, Repr

namespace CharTest

def passes (c : Char) : CharTest → Bool
  | any => true
  | digit => c.isDigit
  | letter => c.isAlpha
  | lower => c.isLower
  | beyondAscii => 128 ≤ c.toNat
  | among chars => chars.toList.contains c
  | not test => !test.passes c

end CharTest

inductive TokenTest where
  | any
  | number
  | word
  | even
  deriving DecidableEq, Repr

namespace TokenTest

def passes (token : Token) (test : TokenTest) : Bool :=
  match test, token with
  | any, _ => true
  | number, .number _ => true
  | word, .word _ => true
  | even, .number n => n % 2 = 0
  | _, _ => false

end TokenTest

inductive TokenChoice where
  | number
  | word
  | half
  deriving DecidableEq, Repr

namespace TokenChoice

def select (token : Token) (choice : TokenChoice) : Option Value :=
  match choice, token with
  | number, .number n => some (integerSymbol n)
  | word, .word text => some (.text text)
  | half, .number n => if 5 < n then some (integerSymbol (n.tdiv 2)) else none
  | _, _ => none

end TokenChoice

inductive Leaf where
  | literal (text : String)
  | satisfying (test : CharTest)
  | charIn (set : CharSet)
  | takeWhile (limit : CountLimit) (test : CharTest)
  | charsIn (set : CharSet) (limit : CountLimit)
  | regex (pattern : String)
  | digitsThenLetters (description : String)
  | just (token : Token)
  | tokens (tokens : List Token)
  | tokenIf (test : TokenTest)
  | select (choice : TokenChoice)

/-- The longest run of digits and then of letters at the front, unless both are empty. -/
def digitsThenLetters (chars : List Char) : Option Captures :=
  let digits := chars.takeWhile Char.isDigit
  let letters := (chars.drop digits.length).takeWhile Char.isAlpha
  let part (run : List Char) := if run.isEmpty then none else some (String.ofList run)
  if digits.isEmpty && letters.isEmpty then none
  else some ⟨String.ofList (digits ++ letters), [part digits, part letters]⟩

inductive Piece where
  | text (text : String)
  | tokens (tokens : List Token)
  deriving DecidableEq, Repr

/-- A kind of input that the workbench can run grammars on. -/
class Medium (ι : Type) extends Input ι where
  leaf : Leaf → Except BuildError (Parser ι Datum)
  same : Value → Parser ι Datum
  rest : ι → Nat → Except Fault Piece
  /-- The given number of elements from a position onward and the positions they cover. -/
  take : ι → Nat → Nat → Except Fault (Option (Piece × Nat))

instance : Medium Text where
  leaf
    | .literal text => .ok (.literal text)
    | .satisfying test => .ok (.satisfying (test.passes ·))
    | .charIn set => .ok (.charIn set)
    | .takeWhile limit test => .ok (.takeWhile limit (test.passes ·))
    | .charsIn set limit => .ok (.charsIn set limit)
    | .regex source =>
        match Regex.Pattern.ofString source with
        | .ok pattern => .ok (.matching ("regular expression `" ++ source ++ "`") pattern.matchAt)
        | .error error => .error (.badPattern source error)
    | .digitsThenLetters description =>
        .ok (.characters ("text matching " ++ description) fun chars =>
          (digitsThenLetters chars).map fun found =>
            (.captures found, found.text.utf8ByteSize))
    | _ => .error .wrongInput
  same value := .literal (textOf value)
  rest text position :=
    match text.rest position with
    | some chars => .ok (.text (String.ofList chars))
    | none => .error .splitCharacter
  take text position count :=
    match text.rest position with
    | some chars =>
        let taken := chars.take count
        .ok (if taken.length = count then some (.text (String.ofList taken), byteLength taken)
          else none)
    | none => .error .splitCharacter

instance : Medium (Array Token) where
  leaf
    | .just token => .ok (.just Token.shown tokenSymbol token)
    | .tokens tokens => .ok (.tokenRun Token.shown tokenSymbol tokens)
    | .tokenIf test =>
        .ok (.select fun token => if test.passes token then some (tokenSymbol token) else none)
    | .select choice => .ok (.select (choice.select ·))
    | _ => .error .wrongInput
  same value :=
    let wanted : Token :=
      match value with
      | .atom (.token token) => token
      | .atom (.integer n) => .number n
      | other => .word (textOf other)
    .just Token.shown tokenSymbol wanted
  rest tokens position := .ok (.tokens (tokens.extract position tokens.size).toList)
  take tokens position count :=
    .ok (if count ≤ tokens.size - position then
      some (.tokens (tokens.extract position (position + count)).toList, count)
    else
      none)

end Packrat.Workbench
