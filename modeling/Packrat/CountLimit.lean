/-!
# Limits on a number of repetitions

A limit has a least count and possibly a greatest one.  A repetition asks for
more while the greatest count is not reached, and its final count is accepted when
it lies between the two.
-/

namespace Packrat

inductive CountLimit where
  | atLeast (least : Nat)
  | atMost (greatest : Nat)
  | between (least greatest : Nat)
  | exactly (count : Nat)
  deriving DecidableEq, Repr

namespace CountLimit

def least : CountLimit → Nat
  | atLeast n => n
  | atMost _ => 0
  | between n _ => n
  | exactly n => n

def greatest : CountLimit → Option Nat
  | atLeast _ => none
  | atMost n => some n
  | between _ n => some n
  | exactly n => some n

def admits (limit : CountLimit) (count : Nat) : Bool :=
  limit.least ≤ count && limit.greatest.all (count ≤ ·)

def wantsMore (limit : CountLimit) (count : Nat) : Bool :=
  limit.greatest.all (count < ·)

def unlimited : CountLimit := atLeast 0

def text : CountLimit → String
  | atLeast n => s!"at least {n}"
  | atMost n => s!"at most {n}"
  | between n m => s!"between {n} and {m}"
  | exactly n => s!"exactly {n}"

end CountLimit

end Packrat
