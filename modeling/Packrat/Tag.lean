/-!
# Tags

A tag names a parser.  Tags appear in messages and call traces, and together with
a position they identify a call for the memo table and the re-entrancy limit.
-/

namespace Packrat

structure Tag where
  name : String
  deriving DecidableEq, Hashable, Repr

namespace Tag

/-- Tags are ordered as their names are, by code points. -/
def order (one other : Tag) : Ordering := compare one.name other.name

def describe : Option Tag → String
  | some tag => tag.name
  | none => "<untagged>"

end Tag

end Packrat
