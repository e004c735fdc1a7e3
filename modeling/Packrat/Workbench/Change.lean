import Packrat.Outcome
import Packrat.Workbench.Value

/-!
# Named changes

Grammars that are given as data name the functions that change symbols and
mismatches.  A change that does not apply to the shape of a symbol leaves it as it is.
-/

namespace Packrat.Workbench

inductive Change where
  | keep
  | unit
  | text
  | number
  | length
  | first
  | second
  | add
  | subtract
  | multiply
  | increment
  | sum
  | push
  | constant (text : String)
  | group (index : Nat)
  deriving DecidableEq, Repr

namespace Change

/-- Combine the integers of a pair, wrapping around 64 bits. -/
def combine (operation : Int → Int → Int) (value : Value) : Value :=
  match value with
  | .pair left right => integerSymbol (Signed.wrap 64 (operation (numberOf left) (numberOf right)))
  | other => other

def total (values : List Value) : Int :=
  values.foldl (fun sum item => Signed.wrap 64 (sum + numberOf item)) 0

def apply (change : Change) (value : Value) : Value :=
  match change with
  | keep => value
  | unit => .unit
  | text => .text (textOf value)
  | number => integerSymbol (numberOf value)
  | length => integerSymbol (lengthOf value)
  | first =>
      match value with
      | .pair left _ => left
      | other => other
  | second =>
      match value with
      | .pair _ right => right
      | other => other
  | add => combine (· + ·) value
  | subtract => combine (· - ·) value
  | multiply => combine (· * ·) value
  | increment => integerSymbol (Signed.wrap 64 (numberOf value + 1))
  | sum =>
      match value with
      | .list items => integerSymbol (total items)
      | other => other
  | push =>
      match value with
      | .pair (.list items) item => .list (items ++ [item])
      | .pair left right => .list [left, right]
      | other => other
  | constant content => .text content
  | group index =>
      match value with
      | .captures found =>
          match found.group index with
          | some content => .present (.text content)
          | none => .absent
      | other => other

end Change

inductive Check where
  | integer
  | divide
  | even
  | failIf (text : String) (mismatch : Mismatch)
  | fail (mismatch : Mismatch)
  deriving DecidableEq, Repr

namespace Check

def apply (check : Check) (value : Value) : Result Datum :=
  match check with
  | integer =>
      match Signed.read? 64 (textOf value) with
      | some n => .ok (integerSymbol n)
      | none => .error (.expected none "a number that fits in 64 bits")
  | divide =>
      match value with
      | .pair left right =>
          match Signed.divide? 64 (numberOf left) (numberOf right) with
          | some n => .ok (integerSymbol n)
          | none => .error (.expected none "a non-zero divisor")
      | other => .ok other
  | even =>
      if numberOf value % 2 = 0 then .ok (integerSymbol (numberOf value))
      else .error (.expected none "an even digit")
  | failIf text mismatch => if textOf value = text then .error mismatch else .ok value
  | fail mismatch => .error mismatch

end Check

inductive Blame where
  | replace (mismatch : Mismatch)
  | wrap (tag : Option Tag)
  | root
  | clear
  deriving DecidableEq, Repr

namespace Blame

def apply (blame : Blame) (mismatch : Mismatch) : Mismatch :=
  match blame with
  | replace other => other
  | wrap tag => .causedBy tag mismatch
  | root => mismatch.rootCause
  | clear => .empty

end Blame

end Packrat.Workbench
