import Packrat.Regex.Basic

/-!
# Programs of regular expressions

An expression is matched by a program whose instructions say where to go on.  A fork has
several ways to go on, in their order of preference.  Repetitions with a bound are
written out.  An unbounded repetition forks before every round.  Where a round can read
nothing, the fork before the first round is one of its own, so that such a round is tried
before the repetition is left.
-/

namespace Packrat.Regex

inductive Instruction where
  | read (set : CharSet) (next : Nat)
  | require (assertion : Assertion) (next : Nat)
  | fork (nexts : List Nat)
  | mark (slot : Nat) (next : Nat)
  | accept
  deriving DecidableEq, Repr

def startSlot (number : Nat) : Nat := 2 * number

def stopSlot (number : Nat) : Nat := 2 * number + 1

/-- Instructions that have been written, and the number of the one to begin with. -/
structure Code where
  entry : Nat
  instructions : Array Instruction
  deriving DecidableEq

namespace Code

def before (code : Code) (instruction : Nat → Instruction) : Code :=
  ⟨code.instructions.size, code.instructions.push (instruction code.entry)⟩

def roundOr (greedy : Bool) (round next : Nat) : Instruction :=
  .fork (if greedy then [round, next] else [next, round])

def rounds (write : Code → Code) : Nat → Code → Code
  | 0, code => code
  | count + 1, code => rounds write count (write code)

/-- At most so many rounds before the code, each of which can be the last. -/
def optionalRounds (write : Code → Code) (greedy : Bool) (next : Nat) : Nat → Code → Code
  | 0, code => code
  | count + 1, code =>
      let round := write code
      optionalRounds write greedy next count
        ⟨round.instructions.size, round.instructions.push (roundOr greedy round.entry next)⟩

/--
One round and then any number of rounds before the code; also the fork before a further round.
-/
def loop (write : Code → Code) (greedy : Bool) (code : Code) : Code × Nat :=
  let again := code.instructions.size
  let round := write ⟨again, code.instructions.push (.fork [])⟩
  (⟨round.entry, round.instructions.setIfInBounds again (roundOr greedy round.entry code.entry)⟩,
    again)

def oneOrMore (write : Code → Code) (greedy : Bool) (code : Code) : Code :=
  (loop write greedy code).1

/-- Any number of rounds before the code, each of which reads something. -/
def anyNumber (write : Code → Code) (greedy : Bool) (code : Code) : Code :=
  let (rounds, again) := loop write greedy code
  ⟨again, rounds.instructions⟩

/-- Any number of rounds before the code, which may read nothing. -/
def maybeSome (write : Code → Code) (greedy : Bool) (code : Code) : Code :=
  let rounds := oneOrMore write greedy code
  ⟨rounds.instructions.size,
    rounds.instructions.push (roundOr greedy rounds.entry code.entry)⟩

end Code

/-- Write the code of an expression before the code of what follows. -/
def write : Regex → Code → Code
  | empty, code => code
  | one set, code => code.before (.read set)
  | require assertion, code => code.before (.require assertion)
  | concat first second, code => write first (write second code)
  | either first second, code =>
      let one := write first code
      let other := write second ⟨code.entry, one.instructions⟩
      ⟨other.instructions.size, other.instructions.push (.fork [one.entry, other.entry])⟩
  | group number inner, code =>
      (write inner (code.before (.mark (stopSlot number)))).before (.mark (startSlot number))
  | repetition least (some greatest) greedy inner, code =>
      Code.rounds (write inner) least
        (Code.optionalRounds (write inner) greedy code.entry (greatest - least) code)
  | repetition 0 none greedy inner, code =>
      if inner.readsSomething then Code.anyNumber (write inner) greedy code
      else Code.maybeSome (write inner) greedy code
  | repetition (least + 1) none greedy inner, code =>
      Code.rounds (write inner) least (Code.oneOrMore (write inner) greedy code)

def program (regex : Regex) : Code := regex.write ⟨0, #[.accept]⟩

/-- The bytes that one character takes in a program over bytes. -/
def characterBytes (point : Nat) : Nat :=
  if point < 0x80 then 32 else if point < 0x800 then 64 else if point < 0x10000 then 96 else 128

def rangeBytes (range : CodeRange) : Nat :=
  if range.first = range.last then 4 + characterBytes range.first
  else
    (if range.first < 0x80 then 36 else 0) +
      (if range.first < 0x800 && 0x80 ≤ range.last then 68 else 0) +
      (if range.first < 0x10000 && 0x800 ≤ range.last then 400 else 0) +
      (if 0x10000 ≤ range.last then 396 else 0)

def setBytes (set : CharSet) : Nat :=
  match set.ranges.toList with
  | [range] =>
      if range.first = range.last then characterBytes range.first else 64 + rangeBytes range
  | ranges => 64 + ranges.foldr (fun range total => rangeBytes range + total) 0

def bytes : Regex → Nat
  | empty => 32
  | one set => setBytes set
  | require _ => 32
  | concat first second => first.bytes + second.bytes
  | either first second => first.bytes + second.bytes + 72
  | group _ inner => inner.bytes + 64
  | repetition least none _ inner => (max least 1) * inner.bytes + 72
  | repetition least (some greatest) _ inner =>
      least * inner.bytes + (greatest - least) * (inner.bytes + 40) + 32

def greatestBytes : Nat := 10 * 1024 * 1024

end Packrat.Regex
