import Packrat.CountLimit
import Packrat.Input.Basic
import Packrat.Policy.Basic

/-!
# Parsers

A parser is a value that describes how to read a symbol from an input.  It has an
optional tag and a body; a body reads the input at the cursor and calls other parsers.
The constructors below are the shapes a body can have, and the functions that follow
are the vocabulary in which grammars are written.

A recursive parser stands for its own body with itself in place of `self`.  A handle
stands for a parser that an arena holds.
-/

namespace Packrat

/-- What a terminal finds at a position: a symbol and the number of positions it covers. -/
abbrev Probe (ι α : Type) := ι → Nat → Except Fault (Option (Symbol α × Nat))

/-- What becomes of the result of a called parser. -/
abbrev Finish (α : Type) := Result α → Except Fault (Result α)

inductive Parser (ι α : Type) : Type where
  | terminal (expectation : String) (probe : Probe ι α)
  /-- Reads nothing and answers from the position alone. -/
  | answer (look : Nat → Result α)
  /-- Reads nothing and answers from what the policies remember. -/
  | inspect (look : Policy α → Nat → Symbol α)
  /-- Calls a parser and finishes its result; without a kind the symbol keeps its kind. -/
  | wrap (tag : Option Tag) (kind : Option Kind) (inner : Parser ι α) (finish : Finish α)
  | both (first second : Parser ι α) (combine : Symbol α → Symbol α → Symbol α)
  | andThen (first : Parser ι α) (next : Symbol α → Parser ι α)
  | repetition (tag : Option Tag) (item : Parser ι α) (limit : CountLimit)
  | separated (tag : Option Tag) (item separator : Parser ι α)
  | choice (tag : Option Tag) (alternatives : List (Parser ι α))
  /-- Runs the body of a parser under another tag. -/
  | retag (tag : Tag) (inner : Parser ι α)
  | recording (events : List Event) (inner : Parser ι α)
  /-- Calls its body, in which `self` of the same depth stands for the parser itself. -/
  | recursive (tag : Tag) (body : Parser ι α)
  /-- The recursive parser that is `depth` levels up. -/
  | self (depth : Nat)
  /-- Runs the body of the parser that a slot of the arena holds. -/
  | handle (tag : Tag) (slot : Nat)

namespace Parser

variable {ι α : Type}

def tag : Parser ι α → Option Tag
  | wrap tag _ _ _ => tag
  | repetition tag _ _ => tag
  | separated tag _ _ => tag
  | choice tag _ => tag
  | retag tag _ => some tag
  | recording _ inner => inner.tag
  | recursive tag _ => some tag
  | handle tag _ => some tag
  | _ => none

def kind : Parser ι α → Kind
  | wrap _ (some kind) _ _ => kind
  | wrap _ none inner _ => inner.kind
  | retag _ inner => inner.kind
  | recording _ inner => inner.kind
  | _ => .general

mutual

def replaceSelf (replacement : Parser ι α) (depth : Nat) : Parser ι α → Parser ι α
  | terminal expectation probe => terminal expectation probe
  | answer look => answer look
  | inspect look => inspect look
  | wrap tag kind inner finish => wrap tag kind (replaceSelf replacement depth inner) finish
  | both first second combine =>
      both (replaceSelf replacement depth first) (replaceSelf replacement depth second) combine
  | andThen first next =>
      andThen (replaceSelf replacement depth first)
        fun symbol => replaceSelf replacement depth (next symbol)
  | repetition tag item limit => repetition tag (replaceSelf replacement depth item) limit
  | separated tag item separator =>
      separated tag (replaceSelf replacement depth item) (replaceSelf replacement depth separator)
  | choice tag alternatives => choice tag (replaceSelfAll replacement depth alternatives)
  | retag tag inner => retag tag (replaceSelf replacement depth inner)
  | recording events inner => recording events (replaceSelf replacement depth inner)
  | recursive tag body => recursive tag (replaceSelf replacement (depth + 1) body)
  | self level => if level = depth then replacement else self level
  | handle tag slot => handle tag slot

def replaceSelfAll (replacement : Parser ι α) (depth : Nat) :
    List (Parser ι α) → List (Parser ι α)
  | [] => []
  | parser :: rest =>
      replaceSelf replacement depth parser :: replaceSelfAll replacement depth rest

end

def unfold (tag : Tag) (body : Parser ι α) : Parser ι α :=
  replaceSelf (recursive tag body) 0 body

/-- The parser under another tag; a recursive parser takes its tag along when it calls itself. -/
def renamed (tag : Tag) : Parser ι α → Parser ι α
  | recursive _ body => recursive tag body
  | retag _ inner => renamed tag inner
  | other => other

def onSymbol (f : Symbol α → Symbol α) : Finish α := fun result => .ok (result.map f)

def onMismatch (f : Mismatch → Mismatch) : Finish α := fun result => .ok (result.mapError f)

/-! ## Vocabulary -/

def map (parser : Parser ι α) (f : Symbol α → Symbol α) : Parser ι α :=
  wrap none (some .general) parser (onSymbol f)

def mapTo (kind : Kind) (parser : Parser ι α) (f : Symbol α → Symbol α) : Parser ι α :=
  wrap none (some kind) parser (onSymbol f)

def tryMap (parser : Parser ι α) (f : Symbol α → Result α) : Parser ι α :=
  wrap none (some .general) parser fun result => .ok (result.bind f)

/-- Change the symbol by a step that may break a rule of the evaluation. -/
def compute (parser : Parser ι α) (f : Symbol α → Except Fault (Result α)) : Parser ι α :=
  wrap none (some .general) parser fun result =>
    match result with
    | .ok symbol => f symbol
    | .error mismatch => .ok (.error mismatch)

def mapError (parser : Parser ι α) (f : Mismatch → Mismatch) : Parser ι α :=
  wrap none none parser (onMismatch f)

/-- Name the parser; its mismatches become causes. -/
def labelled (parser : Parser ι α) (tag : Tag) : Parser ι α :=
  wrap (some tag) none parser (onMismatch (.causedBy (some tag)))

def followedBy (first second : Parser ι α) : Parser ι α := both first second .pair

def thenIgnore (first second : Parser ι α) : Parser ι α := both first second fun one _ => one

def ignoreThen (first second : Parser ι α) : Parser ι α := both first second fun _ other => other

/-- The parser or nothing; never a mismatch. -/
def maybe (parser : Parser ι α) : Parser ι α :=
  wrap none (some .general) parser fun result =>
    match result with
    | .ok symbol => .ok (.ok (.present symbol))
    | .error _ => .ok (.ok .absent)

/-- The parser if it matches, without its symbol; never a mismatch. -/
def skip (parser : Parser ι α) : Parser ι α :=
  wrap none (some .general) parser fun _ => .ok (.ok .unit)

def deferred (parser : Parser ι α) : Parser ι α := wrap none none parser .ok

def rule (tag : Tag) (parser : Parser ι α) : Parser ι α := wrap (some tag) none parser .ok

/-- The same parser, seen only from outside: when it is retagged, its inside keeps its tags. -/
def boxed (parser : Parser ι α) : Parser ι α := recording [] parser

/-- The parser, of which every run of the body is put on record. -/
def counted (counter : String) (parser : Parser ι α) : Parser ι α :=
  recording [.executed counter] parser

def repeated (parser : Parser ι α) (limit : CountLimit) : Parser ι α :=
  repetition none parser limit

def many (parser : Parser ι α) : Parser ι α := repeated parser .unlimited

def atLeastOne (parser : Parser ι α) : Parser ι α := repeated parser (.atLeast 1)

def list (item separator : Parser ι α) : Parser ι α := separated none item separator

def oneOf (alternatives : List (Parser ι α)) : Parser ι α := choice none alternatives

def oneOfTagged (tag : Tag) (alternatives : List (Parser ι α)) : Parser ι α :=
  choice (some tag) alternatives

def empty : Parser ι α := answer fun _ => .ok .unit

def fail (mismatch : Mismatch) : Parser ι α := answer fun _ => .error mismatch

def endOfInput [Input ι] : Parser ι α :=
  terminal "end of input" fun input position =>
    .ok (if Input.size input ≤ position then some (.unit, 0) else none)

end Parser

end Packrat
