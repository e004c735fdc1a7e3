import Packrat.Tag

/-!
# Mismatches

A mismatch says why a parser did not match.  It may name the parser, and it may
give either what was expected in its place or the mismatch that caused it.
-/

namespace Packrat

/-- A parser that did not match, with the reason if there is one. -/
inductive Mismatch where
  | bare (tag : Option Tag)
  | expected (tag : Option Tag) (expectation : String)
  | causedBy (tag : Option Tag) (cause : Mismatch)
  deriving DecidableEq, Repr

namespace Mismatch

def empty : Mismatch := bare none

def tag : Mismatch → Option Tag
  | bare tag => tag
  | expected tag _ => tag
  | causedBy tag _ => tag

def rootCause : Mismatch → Mismatch
  | causedBy _ cause => cause.rootCause
  | other => other

def text : Mismatch → String
  | bare none => "No match"
  | bare (some tag) => "Cannot parse " ++ tag.name
  | expected none expectation => "Expected " ++ expectation
  | expected (some tag) expectation => "Cannot parse " ++ tag.name ++ ": expected " ++ expectation
  | causedBy none cause => cause.text
  | causedBy (some tag) cause => "Cannot parse " ++ tag.name ++ ": " ++ cause.text

end Mismatch

end Packrat
