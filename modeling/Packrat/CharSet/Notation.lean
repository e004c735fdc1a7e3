import Packrat.CharSet.Basic
import Packrat.Text.Quoted

/-!
# Writing a set of code points

A set is written in brackets.  A range of one or two code points lists them, and
a longer range puts a hyphen between its ends.
-/

namespace Packrat.CharSet

/-- A code point as it stands in a set; surrogates, which are no characters, are given by number. -/
def pointText (point : Nat) : String :=
  if 0xD800 ≤ point && point ≤ 0xDFFF then Text.pointEscape point
  else Text.escapeAlone (Char.ofNat point)

def rangeText (range : CodeRange) : String :=
  if range.last ≤ range.first then pointText range.first
  else if range.last = range.first + 1 then pointText range.first ++ pointText range.last
  else pointText range.first ++ "-" ++ pointText range.last

def text (set : CharSet) : String :=
  "[" ++ String.join (set.ranges.toList.map rangeText) ++ "]"

end Packrat.CharSet
