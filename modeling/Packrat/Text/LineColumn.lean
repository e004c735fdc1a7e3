import Packrat.Input.Text

/-!
# Lines and columns

An offset of a text is shown to people as a line and a column, both counted from one,
with columns in characters.
-/

namespace Packrat.Text

/-- The characters before an offset; all characters if the offset is no character boundary. -/
def charactersBefore (chars : List Char) (offset : Nat) : List Char :=
  match suffixAt chars offset with
  | some rest => chars.take (chars.length - rest.length)
  | none => chars

def lastLine (chars : List Char) : List Char :=
  (chars.reverse.takeWhile (· ≠ '\n')).reverse

def lineColumn (source : String) (offset : Nat) : Nat × Nat :=
  let before := charactersBefore source.toList offset
  (before.count '\n' + 1, (lastLine before).length + 1)

end Packrat.Text
