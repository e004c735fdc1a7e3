/-!
# Sets of code points

A `CharSet` stores code points as an array of closed ranges.  Every set that is
built by the operations of this module keeps its ranges sorted, disjoint and
separated by at least one missing code point, so two sets with the same members
have the same ranges.
-/

namespace Packrat

structure CodeRange where
  first : Nat
  last : Nat
  deriving DecidableEq, Repr

namespace CodeRange

def Covers (range : CodeRange) (point : Nat) : Prop :=
  range.first ≤ point ∧ point ≤ range.last

instance (range : CodeRange) (point : Nat) : Decidable (range.Covers point) :=
  inferInstanceAs (Decidable (_ ∧ _))

def single (c : Char) : CodeRange := ⟨c.toNat, c.toNat⟩

def le (one other : CodeRange) : Bool :=
  one.first < other.first || (one.first == other.first && one.last ≤ other.last)

end CodeRange

structure CharSet where
  ranges : Array CodeRange
  deriving DecidableEq, Repr

namespace CharSet

def maxPoint : Nat := 0x10FFFF

/-- Add one range to merged ranges, given last range first, whose ranges start no later. -/
def absorb (merged : List CodeRange) (range : CodeRange) : List CodeRange :=
  match merged with
  | [] => [range]
  | top :: rest =>
      if range.first ≤ top.last + 1 then
        ⟨top.first, max top.last range.last⟩ :: rest
      else
        range :: top :: rest

/-- The set of all code points that some range of a list covers; reversed ranges cover nothing. -/
def ofRanges (ranges : List CodeRange) : CharSet :=
  let sorted := (ranges.filter fun range => range.first ≤ range.last).mergeSort CodeRange.le
  ⟨(sorted.foldl absorb []).reverse.toArray⟩

def empty : CharSet := ⟨#[]⟩

def ofList (chars : List Char) : CharSet := ofRanges (chars.map CodeRange.single)

def ofString (chars : String) : CharSet := ofList chars.toList

def range (first last : Char) : CharSet := ofRanges [⟨first.toNat, last.toNat⟩]

def union (one other : CharSet) : CharSet :=
  ofRanges (one.ranges.toList ++ other.ranges.toList)

/-- The gaps that ascending ranges leave from `next` up to the greatest code point. -/
def gaps (next : Nat) : List CodeRange → List CodeRange
  | [] => if next ≤ maxPoint then [⟨next, maxPoint⟩] else []
  | range :: rest =>
      let later := gaps (range.last + 1) rest
      if next < range.first then ⟨next, range.first - 1⟩ :: later else later

def inverted (set : CharSet) : CharSet := ⟨(gaps 0 set.ranges.toList).toArray⟩

def isEmpty (set : CharSet) : Bool := set.ranges.isEmpty

/--
Look for a range that covers `point` among the ranges with indices from `low`
up to, and without, `high`, by halving that interval.
-/
def search (ranges : Array CodeRange) (point low high : Nat) : Bool :=
  if _h : low < high then
    let middle := low + (high - low) / 2
    match ranges[middle]? with
    | none => false
    | some range =>
        if range.last < point then search ranges point (middle + 1) high
        else if point < range.first then search ranges point low middle
        else true
  else
    false
termination_by high - low

def hasPoint (set : CharSet) (point : Nat) : Bool :=
  search set.ranges point 0 set.ranges.size

def contains (set : CharSet) (c : Char) : Bool := set.hasPoint c.toNat

end CharSet

end Packrat
