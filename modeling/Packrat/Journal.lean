import Packrat.Call

/-!
# The journal in words

Diagnostic events have a level, the part of the program that they come from, and a
message with fields.  The events of a recorder are lines of their own.
-/

namespace Packrat

/-- How much a diagnostic event matters, the least first. -/
inductive Level where
  | trace
  | debug
  | info
  | warn
  | error
  deriving DecidableEq, Repr

namespace Level

def text : Level → String
  | trace => "TRACE"
  | debug => "DEBUG"
  | info => "INFO"
  | warn => "WARN"
  | error => "ERROR"

def rank : Level → Nat
  | trace => 0
  | debug => 1
  | info => 2
  | warn => 3
  | error => 4

def isShown (threshold level : Level) : Bool := threshold.rank ≤ level.rank

end Level

structure Diagnostic where
  level : Level
  target : String
  message : String
  deriving DecidableEq, Repr

namespace Diagnostic

def line (diagnostic : Diagnostic) : String :=
  diagnostic.level.text ++ " " ++ diagnostic.message

def targetLine (diagnostic : Diagnostic) : String :=
  diagnostic.level.text ++ " " ++ diagnostic.target ++ ": " ++ diagnostic.message

end Diagnostic

namespace Key

def fields (key : Key) : String := s!"tag={key.tag.name} position={key.position}"

end Key

namespace Event

/-- The diagnostic event, unless the event belongs to a recorder or a counter. -/
def diagnostic? : Event → Option Diagnostic
  | memoHit key =>
      some ⟨.trace, "parse_core::policy::memo", s!"memo hit {key.fields}"⟩
  | memoStore key matched =>
      some ⟨.trace, "parse_core::policy::memo", s!"memo store {key.fields} matched={matched}"⟩
  | recursionRefused key depth =>
      some ⟨.debug, "parse_core::policy::depth",
        s!"recursion refused {key.fields} depth={depth}"⟩
  | newFarthest position mismatch =>
      some ⟨.debug, "parse_core::policy::farthest",
        s!"new farthest failure position={position} mismatch={mismatch.text}"⟩
  | sharedTag tag position =>
      some ⟨.warn, "parse_core::engine",
        s!"tag shared by rules of different symbol types tag={Tag.describe tag} " ++
          s!"position={position}"⟩
  | lexingStopped span =>
      some ⟨.debug, "parse_core::lexer", s!"lexing stopped start={span.start} end={span.stop}"⟩
  | documentRejected position mismatch =>
      let shown :=
        match position with
        | some offset => s!"Some({offset})"
        | none => "None"
      some ⟨.debug, "parse_json",
        s!"document rejected position={shown} error={mismatch.text}"⟩
  | _ => none

def recordedTag : Option Tag → String
  | some tag => tag.name
  | none => "-"

def recorded? : Event → Option String
  | entered recorder call =>
      some s!"{recorder}> {call.position} {recordedTag call.tag} r{call.remaining}"
  | left recorder call (.ok span) =>
      some s!"{recorder}< {call.position} {recordedTag call.tag} ok {span.start}..{span.stop}"
  | left recorder call (.error mismatch) =>
      some s!"{recorder}< {call.position} {recordedTag call.tag} err {mismatch.text}"
  | _ => none

end Event

end Packrat
