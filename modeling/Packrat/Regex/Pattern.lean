import Packrat.Input.Text
import Packrat.Regex.Search
import Packrat.Symbol
import Packrat.Unicode.CaseFolding

/-!
# Patterns

A pattern is the written form of a regular expression.  Reading it fails if a bracket or
a group is left open, a range runs backwards, a repetition has nothing to repeat, or the
pattern is nested too deeply.  A pattern whose program would be too large is refused.
-/

namespace Packrat.Regex

structure Pattern where
  code : Code
  groupCount : Nat
  deriving DecidableEq

namespace Pattern

inductive Error where
  | malformed
  | tooLarge
  deriving DecidableEq, Repr

namespace Error

def message : Error → String
  | malformed => "error parsing pattern 0"
  | tooLarge => "error building NFA"

end Error

/-- A part of a pattern: its expression and how deeply it is nested. -/
structure Piece where
  regex : Regex
  depth : Nat

namespace Piece

def nothing : Piece := ⟨.empty, 0⟩

def greatestDepth (pieces : List Piece) : Nat :=
  pieces.foldl (fun depth piece => max depth piece.depth) 0

/-- Pieces one after the other; two or more of them are a level of their own. -/
def row (pieces : List Piece) : Piece :=
  match pieces with
  | [] => nothing
  | [piece] => piece
  | _ => ⟨Regex.row (pieces.map Piece.regex), greatestDepth pieces + 1⟩

def choice (pieces : List Piece) : Piece :=
  match pieces with
  | [piece] => piece
  | _ => ⟨Regex.choice (pieces.map Piece.regex), greatestDepth pieces + 1⟩

def group (number : Option Nat) (inner : Piece) : Piece :=
  match number with
  | some number => ⟨.group number inner.regex, inner.depth + 1⟩
  | none => ⟨inner.regex, inner.depth + 1⟩

def repeated (least : Nat) (greatest : Option Nat) (greedy : Bool) (inner : Piece) : Piece :=
  ⟨inner.regex.repeated least greatest greedy, inner.depth + 1⟩

end Piece

structure Reader where
  ahead : List Char
  groupCount : Nat
  caseless : Bool

def literalSet (caseless : Bool) (c : Char) : CharSet :=
  let set := CharSet.ofList [c]
  if caseless then Unicode.closeUnderCase set else set

def anyInLine : CharSet := (CharSet.ofList ['\n']).inverted

def escaped (c : Char) : Option Char :=
  if c = 't' then some '\t'
  else if c = 'n' then some '\n'
  else if c = 'r' then some '\r'
  else if c = 'f' then some '\x0c'
  else if c = 'v' then some '\x0b'
  else if c = 'a' then some '\x07'
  else if c.toNat < 128 && !c.isAlphanum && c ≠ '<' && c ≠ '>' then some c
  else none

def readSetCharacter : List Char → Option (Char × List Char)
  | '\\' :: c :: rest => (escaped c).map (·, rest)
  | ['\\'] => none
  | c :: rest => some (c, rest)
  | [] => none

def readSetRange (chars : List Char) : Option (CodeRange × List Char) := do
  let (first, rest) ← readSetCharacter chars
  match rest with
  | '-' :: next :: _ =>
      if next = ']' || next = '-' then
        some (.single first, rest)
      else do
        let (last, rest) ← readSetCharacter (rest.drop 1)
        if first ≤ last then some (⟨first.toNat, last.toNat⟩, rest) else none
  | _ => some (.single first, rest)

/--
The members of a bracketed set: their union, how many there are, and how deeply sets are nested.
-/
structure Members where
  set : CharSet
  count : Nat
  depth : Nat

namespace Members

def none : Members := ⟨.empty, 0, 0⟩

def add (members : Members) (set : CharSet) (depth : Nat) : Members :=
  ⟨members.set.union set, members.count + 1, max members.depth depth⟩

/-- The set with these members and its depth; two or more members are a level of their own. -/
def close (members : Members) (caseless negated : Bool) : CharSet × Nat :=
  let cased := if caseless then Unicode.closeUnderCase members.set else members.set
  (if negated then cased.inverted else cased,
    members.depth + (if 1 < members.count then 2 else 1))

end Members

/--
The opening of a set: whether it is negated, and its first members, which stand for themselves.
-/
def readSetOpening (chars : List Char) : Bool × Members × List Char :=
  match chars with
  | '^' :: rest => (true, plainMembers rest)
  | _ => (false, plainMembers chars)
where
  /-- Hyphens, or else a closing bracket, that open a set stand for themselves. -/
  plainMembers (chars : List Char) : Members × List Char :=
    match chars with
    | '-' :: _ =>
        (⟨.ofList ['-'], (chars.takeWhile (· = '-')).length, 0⟩, chars.dropWhile (· = '-'))
    | ']' :: rest => (Members.none.add (.ofList [']']) 0, rest)
    | _ => (.none, chars)

def readMembers : Nat → Bool → Bool → Members → List Char → Option ((CharSet × Nat) × List Char)
  | 0, _, _, _, _ => none
  | fuel + 1, caseless, negated, members, chars =>
      match chars with
      | [] => none
      | ']' :: rest => some (members.close caseless negated, rest)
      | '[' :: rest => do
          let (innerNegated, innerMembers, rest) := readSetOpening rest
          let ((set, depth), rest) ← readMembers fuel caseless innerNegated innerMembers rest
          readMembers fuel caseless negated (members.add set depth) rest
      | _ => do
          let (range, rest) ← readSetRange chars
          readMembers fuel caseless negated (members.add (.ofRanges [range]) 0) rest

def readSet (caseless : Bool) (chars : List Char) : Option ((CharSet × Nat) × List Char) :=
  let (negated, members, rest) := readSetOpening chars
  readMembers (chars.length + 1) caseless negated members rest

def blanks : CharSet := ⟨#[
    ⟨0x9, 0xD⟩, ⟨0x20, 0x20⟩, ⟨0x85, 0x85⟩, ⟨0xA0, 0xA0⟩, ⟨0x1680, 0x1680⟩, ⟨0x2000, 0x200A⟩,
    ⟨0x2028, 0x2029⟩, ⟨0x202F, 0x202F⟩, ⟨0x205F, 0x205F⟩, ⟨0x3000, 0x3000⟩]⟩

def readCount (chars : List Char) : Option (Nat × List Char) :=
  let start := chars.dropWhile blanks.contains
  let digits := start.takeWhile Char.isDigit
  let count := digits.foldl (fun value c => value * 10 + (c.toNat - '0'.toNat)) 0
  if digits.isEmpty || UInt32.size ≤ count then none
  else some (count, (start.dropWhile Char.isDigit).dropWhile blanks.contains)

def readBounds (chars : List Char) : Option (Nat × Option Nat × List Char) := do
  let (least, rest) ← readCount chars
  match rest with
  | '\x7d' :: rest => some (least, some least, rest)
  | ',' :: '\x7d' :: rest => some (least, none, rest)
  | ',' :: rest => do
      let (greatest, rest) ← readCount rest
      match rest with
      | '\x7d' :: rest => if least ≤ greatest then some (least, some greatest, rest) else none
      | _ => none
  | _ => none

def opensSign (c : Char) : Bool := c = '*' || c = '+' || c = '?' || c = '\x7b'

def readSign (chars : List Char) : Option (Option (Nat × Option Nat) × List Char) :=
  match chars with
  | '*' :: rest => some (some (0, none), rest)
  | '+' :: rest => some (some (1, none), rest)
  | '?' :: rest => some (some (0, some 1), rest)
  | '\x7b' :: rest => (readBounds rest).map fun (least, greatest, rest) =>
      (some (least, greatest), rest)
  | _ => some (none, chars)

def readSigns : Nat → Piece → List Char → Option (Piece × List Char)
  | 0, _, _ => none
  | fuel + 1, piece, chars => do
      let (sign, rest) ← readSign chars
      match sign with
      | none => some (piece, chars)
      | some (least, greatest) =>
          match rest with
          | '?' :: rest => readSigns fuel (piece.repeated least greatest false) rest
          | _ => readSigns fuel (piece.repeated least greatest true) rest

/-! ## Expressions -/

inductive Opening where
  | capturing
  /-- A group without a number, in which case is ignored or not. -/
  | plain (caseless : Bool)
  /-- No group but a change for the rest of the group around it. -/
  | setting (caseless : Bool)

def readOpening (caseless : Bool) (chars : List Char) : Option (Opening × List Char) :=
  match chars with
  | '?' :: ':' :: rest => some (.plain caseless, rest)
  | '?' :: 'i' :: ')' :: rest => some (.setting true, rest)
  | '?' :: '-' :: 'i' :: ')' :: rest => some (.setting false, rest)
  | '?' :: 'i' :: ':' :: rest => some (.plain true, rest)
  | '?' :: '-' :: 'i' :: ':' :: rest => some (.plain false, rest)
  | '?' :: _ => none
  | _ => some (.capturing, chars)

def readSimple (caseless : Bool) (chars : List Char) : Option (Piece × List Char) :=
  match chars with
  | [] => none
  | '.' :: rest => some (⟨.one anyInLine, 0⟩, rest)
  | '^' :: rest => some (⟨.require .textStart, 0⟩, rest)
  | '$' :: rest => some (⟨.require .textEnd, 0⟩, rest)
  | '[' :: rest => (readSet caseless rest).map fun ((set, depth), rest) => (⟨.one set, depth⟩, rest)
  | '\\' :: 'b' :: rest => some (⟨.require .wordBoundary, 0⟩, rest)
  | '\\' :: c :: rest => (escaped c).map fun c => (⟨.one (literalSet caseless c), 0⟩, rest)
  | ['\\'] => none
  | c :: rest => if opensSign c then none else some (⟨.one (literalSet caseless c), 0⟩, rest)

mutual

def readAlternatives : Nat → Reader → Option (List Piece × Reader)
  | 0, _ => none
  | fuel + 1, reader => do
      let (items, reader) ← readItems fuel reader
      match reader.ahead with
      | '|' :: rest =>
          let (others, reader) ← readAlternatives fuel { reader with ahead := rest }
          some (.row items :: others, reader)
      | _ => some ([.row items], reader)

def readItems : Nat → Reader → Option (List Piece × Reader)
  | 0, _ => none
  | fuel + 1, reader =>
      match reader.ahead with
      | [] => some ([], reader)
      | '|' :: _ => some ([], reader)
      | ')' :: _ => some ([], reader)
      | '(' :: rest => do
          let (opening, rest) ← readOpening reader.caseless rest
          match opening with
          | .setting caseless =>
              if rest.head?.any opensSign then none
              else do
                let (others, reader) ←
                  readItems fuel { reader with ahead := rest, caseless := caseless }
                some (.nothing :: others, reader)
          | .plain caseless => do
              let (inner, closed) ←
                readGroup fuel none { reader with ahead := rest, caseless := caseless }
              readRepeated fuel inner { closed with caseless := reader.caseless }
          | .capturing => do
              let number := reader.groupCount + 1
              let (inner, closed) ←
                readGroup fuel (some number) { reader with ahead := rest, groupCount := number }
              readRepeated fuel inner { closed with caseless := reader.caseless }
      | chars => do
          let (simple, rest) ← readSimple reader.caseless chars
          readRepeated fuel simple { reader with ahead := rest }

def readGroup : Nat → Option Nat → Reader → Option (Piece × Reader)
  | 0, _, _ => none
  | fuel + 1, number, reader => do
      let (alternatives, reader) ← readAlternatives fuel reader
      match reader.ahead with
      | ')' :: rest => some (.group number (.choice alternatives), { reader with ahead := rest })
      | _ => none

def readRepeated : Nat → Piece → Reader → Option (List Piece × Reader)
  | 0, _, _ => none
  | fuel + 1, piece, reader => do
      let (repeated, rest) ← readSigns (reader.ahead.length + 1) piece reader.ahead
      let (others, reader) ← readItems fuel { reader with ahead := rest }
      some (repeated :: others, reader)

end

def greatestDepth : Nat := 250

def read? (source : String) : Option Regex := do
  let chars := source.toList
  let (alternatives, reader) ← readAlternatives (4 * chars.length + 4) ⟨chars, 0, false⟩
  let whole := Piece.choice alternatives
  if reader.ahead.isEmpty && whole.depth ≤ greatestDepth then some whole.regex else none

def ofString (source : String) : Except Error Pattern :=
  match read? source with
  | none => .error .malformed
  | some regex =>
      if greatestBytes < regex.bytes then .error .tooLarge
      else .ok ⟨regex.program, regex.groupCount⟩

/-- The match that starts exactly at a position of a text, if there is one. -/
def matchAt (pattern : Pattern) (text : Text) (start : Nat) : Option Captures := do
  let ahead ← text.rest start
  let place : Place := ⟨text.characterBefore start, 0, ahead⟩
  let accepted ← pattern.code.match? place
  let group (number : Nat) : Option String := do
    let first ← accepted.marks.lookup (startSlot number)
    let last ← accepted.marks.lookup (stopSlot number)
    some (place.textBetween first last)
  some {
    text := place.textBetween 0 accepted.place.index
    groups := (List.range pattern.groupCount).map fun index => group (index + 1) }

end Pattern

end Packrat.Regex
