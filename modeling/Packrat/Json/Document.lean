import Packrat.Json.Grammar

/-!
# JSON documents

Parsing a document gives its value, or an error that blames the farthest failure.  A
rejected document is put on record.
-/

namespace Packrat.Json

/-- The JSON value of a symbol; the grammar yields no other symbols for documents. -/
def ofSymbol (value : Grammar.Value) : Json :=
  match value with
  | .atom (.json json) => json
  | _ => .null

def parse (steps : Nat) (source : String) : Run Grammar.Part (Except ParseError Json) :=
  (Setting.parse ⟨.ofString source, Grammar.arena⟩ steps Grammar.document).andThen
    fun result state =>
      match result with
      | .ok symbol => .done (.ok (ofSymbol symbol)) state
      | .error error =>
          .done (.error error) (state.record [.documentRejected error.position error.mismatch])

end Packrat.Json
