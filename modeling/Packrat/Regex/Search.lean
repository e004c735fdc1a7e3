import Std.Data.HashSet
import Packrat.Regex.Program
import Packrat.Unicode.WordCharacter

/-!
# Matching

A program is matched from a fixed place of a text.  Where an instruction has several
ways to go on, all are tried in their order of preference, and the first that leads to
acceptance decides.  No instruction is tried twice at one place: what failed once fails
again, and what is still being tried would only go round in a circle.
-/

namespace Packrat.Regex

/-- A place in a text: the character before it, the characters read so far and those ahead. -/
structure Place where
  before : Option Char
  index : Nat
  ahead : List Char

namespace Place

def textBetween (place : Place) (start stop : Nat) : String :=
  String.ofList ((place.ahead.drop (start - place.index)).take (stop - start))

def satisfies (place : Place) : Assertion → Bool
  | .textStart => place.before.isNone
  | .textEnd => place.ahead.isEmpty
  | .wordBoundary =>
      place.before.any Unicode.isWordCharacter != place.ahead.head?.any Unicode.isWordCharacter

end Place

/-- The indices at which slots were last passed. -/
abbrev Marks := List (Nat × Nat)

def Marks.put (marks : Marks) (slot index : Nat) : Marks :=
  (slot, index) :: marks.filter fun mark => mark.1 ≠ slot

structure Thread where
  instruction : Nat
  place : Place
  marks : Marks

inductive Thread.Turn where
  | accept
  | goOn (threads : List Thread)

def Thread.turn (thread : Thread) (instruction : Instruction) : Thread.Turn :=
  match instruction with
  | .accept => .accept
  | .fork nexts => .goOn (nexts.map fun next => { thread with instruction := next })
  | .mark slot next =>
      .goOn [⟨next, thread.place, thread.marks.put slot thread.place.index⟩]
  | .require assertion next =>
      .goOn (if thread.place.satisfies assertion then [{ thread with instruction := next }] else [])
  | .read set next =>
      match thread.place.ahead with
      | [] => .goOn []
      | c :: rest =>
          .goOn (if set.contains c then [⟨next, ⟨some c, thread.place.index + 1, rest⟩, thread.marks⟩]
            else [])

/-- Follow threads, the preferred one first, until one accepts. -/
def follow (instructions : Array Instruction) :
    Nat → Std.HashSet Nat → List Thread → Option Thread
  | 0, _, _ => none
  | _ + 1, _, [] => none
  | fuel + 1, tried, thread :: rest =>
      let key := thread.place.index * instructions.size + thread.instruction
      if tried.contains key then
        follow instructions fuel tried rest
      else
        match instructions[thread.instruction]? with
        | none => follow instructions fuel tried rest
        | some instruction =>
            match thread.turn instruction with
            | .accept => some thread
            | .goOn threads => follow instructions fuel (tried.insert key) (threads ++ rest)

def wayCount (instructions : Array Instruction) : Nat :=
  instructions.foldl (fun count instruction => count + ways instruction) 0
where
  ways : Instruction → Nat
    | .fork nexts => nexts.length
    | _ => 1

/--
The thread that accepts first from a place; every way at every place is followed once at most.
-/
def Code.match? (code : Code) (place : Place) : Option Thread :=
  follow code.instructions ((place.ahead.length + 1) * wayCount code.instructions + 2)
    (Std.HashSet.emptyWithCapacity 8) [⟨code.entry, place, []⟩]

end Packrat.Regex
