import Packrat.Unicode.Unprintable
import Packrat.Unicode.GraphemeExtend

/-!
# Quoted text

Texts and characters that a message has to show unambiguously are written with
escapes.  A character is escaped when it would end or disturb the quotation, when
it has no printed form, or when it would merge with the character before it.
-/

namespace Packrat.Text

def hexadecimal (n : Nat) : String := String.ofList (Nat.toDigits 16 n)

def pointEscape (point : Nat) : String := "\\u\x7b" ++ hexadecimal point ++ "\x7d"

def shortEscape (c : Char) : Option String :=
  match c with
  | '\x00' => some "\\0"
  | '\t' => some "\\t"
  | '\r' => some "\\r"
  | '\n' => some "\\n"
  | '\\' => some "\\\\"
  | '"' => some "\\\""
  | _ => none

def escapeInText (c : Char) : String :=
  match shortEscape c with
  | some escape => escape
  | none =>
      if Unicode.graphemeExtend.contains c || Unicode.unprintable.contains c then
        pointEscape c.toNat
      else
        c.toString

/-- A character as it stands alone, where an apostrophe would also be taken for a delimiter. -/
def escapeAlone (c : Char) : String :=
  if c = '\'' then "\\'" else escapeInText c

def quoted (text : String) : String :=
  "\"" ++ String.join (text.toList.map escapeInText) ++ "\""

end Packrat.Text
