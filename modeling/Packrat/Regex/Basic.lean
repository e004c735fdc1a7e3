import Packrat.CharSet.Basic

/-!
# Regular expressions

Expressions are kept in a plain form.  Rows and choices lean to the right, a row holds
no empty part, a choice between single characters is one set, alternatives that begin
alike share that beginning, and a repetition that can only be empty or single is none.
The functions below build that form.

Which alternative is preferred depends on the form: a shared beginning is matched once,
so its own choices come before the choice of the alternative.
-/

namespace Packrat

inductive Assertion where
  | textStart
  | textEnd
  | wordBoundary
  deriving DecidableEq, Repr

/-- A regular expression; groups are numbered from one. -/
inductive Regex where
  | empty
  | one (set : CharSet)
  | require (assertion : Assertion)
  | concat (first second : Regex)
  | either (first second : Regex)
  | group (number : Nat) (inner : Regex)
  | repetition (least : Nat) (greatest : Option Nat) (greedy : Bool) (inner : Regex)
  deriving DecidableEq, Repr

namespace Regex

def readsNothing : Regex → Bool
  | empty => true
  | one _ => false
  | require _ => true
  | concat first second => first.readsNothing && second.readsNothing
  | either first second => first.readsNothing && second.readsNothing
  | group _ inner => inner.readsNothing
  | repetition _ greatest _ inner => greatest = some 0 || inner.readsNothing

def readsSomething : Regex → Bool
  | empty => false
  | one set => !set.isEmpty
  | require _ => false
  | concat first second => first.readsSomething || second.readsSomething
  | either first second => first.readsSomething && second.readsSomething
  | group _ inner => inner.readsSomething
  | repetition least _ _ inner => 0 < least && inner.readsSomething

def groupCount : Regex → Nat
  | empty => 0
  | one _ => 0
  | require _ => 0
  | concat first second => max first.groupCount second.groupCount
  | either first second => max first.groupCount second.groupCount
  | group number inner => max number inner.groupCount
  | repetition _ _ _ inner => inner.groupCount

def parts : Regex → List Regex
  | empty => []
  | concat first second => first :: second.parts
  | other => [other]

def ofParts : List Regex → Regex
  | [] => empty
  | [part] => part
  | part :: rest => concat part (ofParts rest)

def row (items : List Regex) : Regex := ofParts (items.flatMap parts)

def branches : Regex → List Regex
  | either first second => first :: second.branches
  | other => [other]

def set? : Regex → Option CharSet
  | one set => some set
  | _ => none

def ofBranches : List Regex → Regex
  | [] => one .empty
  | [branch] => branch
  | branch :: rest => either branch (ofBranches rest)

def sharedParts : List Regex → List Regex → List Regex
  | first :: firsts, other :: others =>
      if first = other then first :: sharedParts firsts others else []
  | _, _ => []

/-- A choice between alternatives, of which single characters are united. -/
def choiceOf (alternatives : List Regex) : Regex :=
  match alternatives.mapM set? with
  | some (set :: sets) => one (sets.foldl CharSet.union set)
  | _ => ofBranches alternatives

/-- A choice between rows; what all of them begin with is matched once. -/
def choiceOfRows (rows : List (List Regex)) : Regex :=
  match rows with
  | first :: second :: rest =>
      let shared := (second :: rest).foldl sharedParts first
      if shared.isEmpty || rows.any (·.length < 2) then
        choiceOf (rows.map ofParts)
      else
        let remainders := rows.map fun items => ofParts (items.drop shared.length)
        row (shared ++ [choiceOf (remainders.flatMap branches)])
  | _ => choiceOf (rows.map ofParts)

def choice (alternatives : List Regex) : Regex :=
  choiceOfRows ((alternatives.flatMap branches).map parts)

/-- As many rounds as the bounds allow; what reads nothing need not be repeated. -/
def repeated (least : Nat) (greatest : Option Nat) (greedy : Bool) (inner : Regex) : Regex :=
  let (least, greatest) :=
    if inner.readsNothing then (min least 1, some (min (greatest.getD 1) 1)) else (least, greatest)
  if greatest = some 0 then empty
  else if least = 1 && greatest = some 1 then inner
  else repetition least greatest greedy inner

end Regex

end Packrat
