import Packrat.Input.Basic

/-!
# Texts indexed by byte offset

A `Text` keeps, for every byte offset of a string, the characters from that offset
onward.  An offset inside a character has none.  Reading at a position and going back
to an earlier one are therefore look-ups.
-/

namespace Packrat

/-- The characters from a byte offset onward; none if the offset is not a character boundary. -/
def suffixAt : List Char → Nat → Option (List Char)
  | chars, 0 => some chars
  | [], _ + 1 => none
  | c :: rest, offset + 1 =>
      if c.utf8Size ≤ offset + 1 then suffixAt rest (offset + 1 - c.utf8Size) else none

def suffixTable (table : Array (Option (List Char))) : List Char → Array (Option (List Char))
  | [] => table.push (some [])
  | c :: rest =>
      suffixTable ((table.push (some (c :: rest))) ++ Array.replicate (c.utf8Size - 1) none) rest

structure Text where
  source : String
  suffixes : Array (Option (List Char))

namespace Text

def ofString (source : String) : Text := ⟨source, suffixTable #[] source.toList⟩

def size (text : Text) : Nat := text.suffixes.size - 1

instance : Input Text where
  size := size

def rest (text : Text) (position : Nat) : Option (List Char) :=
  (text.suffixes[position]?).join

def characterBefore (text : Text) (position : Nat) : Option Char :=
  [1, 2, 3, 4].findSome? fun width =>
    if width ≤ position then
      (text.rest (position - width)).bind fun chars =>
        chars.head?.filter fun c => c.utf8Size = width
    else
      none

end Text

def byteLength (chars : List Char) : Nat :=
  chars.foldr (fun c length => c.utf8Size + length) 0

end Packrat
