import Packrat.Input.Text
import Packrat.Span

/-!
# Lexers

A lexer cuts a source into tokens with the part of the source that each was read from.  What
stands at the front of the characters that are left is looked up, one piece after the other: a
token is kept, some pieces are skipped, and the first piece that is unknown ends the lexing.
-/

namespace Packrat

/-- A piece, with the number of its characters after the first one. -/
inductive Lexer.Cut (τ : Type) where
  | skipped (more : Nat)
  | token (token : τ) (more : Nat)
  | unknown (more : Nat)

/-- What stands at the front of a character and those after it. -/
structure Lexer (τ : Type) where
  cut : Char → List Char → Lexer.Cut τ

structure Lexed (τ : Type) where
  tokens : Array τ
  spans : Array Span

structure LexError where
  span : Span
  deriving DecidableEq, Repr

namespace LexError

def message (error : LexError) : String :=
  s!"unrecognized input at {error.span.start}..{error.span.stop}"

end LexError

variable {τ : Type}

namespace Lexed

def empty : Lexed τ := ⟨#[], #[]⟩

def push (lexed : Lexed τ) (token : τ) (span : Span) : Lexed τ :=
  ⟨lexed.tokens.push token, lexed.spans.push span⟩

def stop (lexed : Lexed τ) : Nat := (lexed.spans.back?.map Span.stop).getD 0

/-- The span of a token; just past the last token lies an empty span at its end. -/
def span? (lexed : Lexed τ) (index : Nat) : Option Span :=
  match lexed.spans[index]? with
  | some span => some span
  | none => if index = lexed.spans.size then some ⟨lexed.stop, lexed.stop⟩ else none

end Lexed

namespace Lexer

/-- Cut characters that start at an offset into tokens, appended to those before them. -/
def lexFrom (lexer : Lexer τ) (offset : Nat) (lexed : Lexed τ) :
    List Char → Except LexError (Lexed τ)
  | [] => .ok lexed
  | c :: rest =>
      match lexer.cut c rest with
      | .skipped more =>
          lexer.lexFrom (offset + byteLength (c :: rest.take more)) lexed (rest.drop more)
      | .token token more =>
          let stop := offset + byteLength (c :: rest.take more)
          lexer.lexFrom stop (lexed.push token ⟨offset, stop⟩) (rest.drop more)
      | .unknown more => .error ⟨⟨offset, offset + byteLength (c :: rest.take more)⟩⟩
termination_by chars => chars.length
decreasing_by
  all_goals
    rw [List.length_drop, List.length_cons]
    omega

def lex (lexer : Lexer τ) (source : String) : Except LexError (Lexed τ) :=
  lexer.lexFrom 0 .empty source.toList

end Lexer

end Packrat
