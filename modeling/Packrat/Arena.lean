import Packrat.Parser.Basic

/-!
# Arenas

An arena holds the parsers behind handles.  A handle is declared first, so that other
parsers can refer to it, and defined once later.  When the arena is gone, its handles
match nothing.
-/

namespace Packrat

inductive DefinitionError where
  | redefined
  | arenaDropped
  deriving DecidableEq, Repr

namespace DefinitionError

def message (tag : Tag) : DefinitionError → String
  | redefined => "rule `" ++ tag.name ++ "` is already defined"
  | arenaDropped => "rule `" ++ tag.name ++ "` was defined after its arena was dropped"

end DefinitionError

/-- The parsers of declared handles; a slot is vacant until its handle is defined. -/
structure Arena (ι α : Type) where
  slots : Array (Option (Parser ι α))
  alive : Bool

namespace Arena

variable {ι α : Type}

def empty : Arena ι α := ⟨#[], true⟩

def ofParsers (parsers : List (Parser ι α)) : Arena ι α := ⟨(parsers.map some).toArray, true⟩

def declare (arena : Arena ι α) : Nat × Arena ι α :=
  (arena.slots.size, { arena with slots := arena.slots.push none })

def define (arena : Arena ι α) (slot : Nat) (parser : Parser ι α) :
    Except DefinitionError (Arena ι α) :=
  if arena.alive then
    match arena.slots[slot]? with
    | some none => .ok { arena with slots := arena.slots.setIfInBounds slot (some parser) }
    | _ => .error .redefined
  else
    .error .arenaDropped

def redefine (arena : Arena ι α) (slot : Nat) (parser : Parser ι α) : Arena ι α :=
  { arena with slots := arena.slots.setIfInBounds slot (some parser) }

def drop (arena : Arena ι α) : Arena ι α := { arena with alive := false }

def resolve (arena : Arena ι α) (tag : Tag) (slot : Nat) : Except Mismatch (Parser ι α) :=
  if arena.alive then
    match arena.slots[slot]? with
    | some (some parser) => .ok parser
    | _ => .error (.expected (some tag) "a defined rule (declared but never defined)")
  else
    .error (.expected (some tag) "a rule whose arena is still alive")

end Arena

end Packrat
