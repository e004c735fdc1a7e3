import Packrat.Lexer
import Packrat.Proofs.TextReading

/-!
# What lexers leave

Whatever a lexer cuts off, a source that is lexed consists of the words of the tokens and of
words that are skipped.
-/

namespace Packrat

variable {τ : Type} {lexer : Lexer τ} {Reads : τ → List Char → Prop}
  {Skipped : List Char → Prop} {lexed result : Lexed τ} {source : String} {offset more : Nat}
  {c : Char} {rest ahead : List Char} {token : τ}

namespace Lexer

theorem lexFrom_nil : lexer.lexFrom offset lexed [] = .ok lexed := by rw [lexFrom]

theorem lexFrom_skipped (cut : lexer.cut c rest = .skipped more) :
    lexer.lexFrom offset lexed (c :: rest) =
      lexer.lexFrom (offset + byteLength (c :: rest.take more)) lexed (rest.drop more) := by
  rw [lexFrom, cut]

theorem lexFrom_token (cut : lexer.cut c rest = .token token more) :
    lexer.lexFrom offset lexed (c :: rest) =
      lexer.lexFrom (offset + byteLength (c :: rest.take more))
        (lexed.push token ⟨offset, offset + byteLength (c :: rest.take more)⟩)
        (rest.drop more) := by
  rw [lexFrom, cut]

/-- The lexer reads words that stand for their tokens, and skips no others than those given. -/
structure Obeys (lexer : Lexer τ) (Reads : τ → List Char → Prop) (Skipped : List Char → Prop) :
    Prop where
  token : ∀ c rest more token, lexer.cut c rest = .token token more →
    Reads token (c :: rest.take more)
  skipped : ∀ c rest more, lexer.cut c rest = .skipped more → Skipped (c :: rest.take more)

end Lexer

namespace Lexed

/-- Tokens account for the source up to an offset. -/
structure UpTo (lexed : Lexed τ) (source : String) (Reads : τ → List Char → Prop)
    (Skipped : List Char → Prop) (offset : Nat) : Prop where
  paired : lexed.tokens.size = lexed.spans.size
  covers : ∀ (index : Nat) (token : τ) (span : Span), lexed.tokens[index]? = some token →
    lexed.spans[index]? = some span →
      ∃ word, (Text.ofString source).Between span.start word span.stop ∧ Reads token word
  /-- After the last token there are only words that are skipped. -/
  skipped : ∃ words : List (List Char), (∀ word ∈ words, Skipped word) ∧
    (Text.ofString source).Between lexed.stop words.flatten offset

theorem stop_push (lexed : Lexed τ) (token : τ) (span : Span) :
    (lexed.push token span).stop = span.stop := by
  simp [stop, push]

namespace UpTo

theorem empty : (empty : Lexed τ).UpTo source Reads Skipped 0 where
  paired := rfl
  covers index token span found := by simp [Lexed.empty] at found
  skipped := ⟨[], List.forall_mem_nil _, .nil (Text.onward_zero source)⟩

variable {word : List Char} {stop : Nat}

theorem skip (upTo : lexed.UpTo source Reads Skipped offset)
    (between : (Text.ofString source).Between offset word stop) (skipped : Skipped word) :
    lexed.UpTo source Reads Skipped stop where
  paired := upTo.paired
  covers := upTo.covers
  skipped := by
    obtain ⟨words, all, before⟩ := upTo.skipped
    refine ⟨words ++ [word], ?_, ?_⟩
    · simpa [or_imp, forall_and] using ⟨all, skipped⟩
    · simpa using before.append between

theorem push (upTo : lexed.UpTo source Reads Skipped offset)
    (between : (Text.ofString source).Between offset word stop) (reads : Reads token word) :
    (lexed.push token ⟨offset, stop⟩).UpTo source Reads Skipped stop where
  paired := by simp [Lexed.push, upTo.paired]
  covers index other span found spanned := by
    simp only [Lexed.push, Array.getElem?_push, upTo.paired] at found spanned
    split at found
    · next last =>
        rw [if_pos last] at spanned
        cases found
        cases spanned
        exact ⟨word, between, reads⟩
    · next early =>
        rw [if_neg early] at spanned
        exact upTo.covers index other span found spanned
  skipped := by
    obtain ⟨rest, -, onward⟩ := between.onward
    rw [stop_push]
    exact ⟨[], List.forall_mem_nil _, .nil onward⟩

end UpTo

end Lexed

theorem between_piece (here : (Text.ofString source).Onward offset (c :: rest)) (more : Nat) :
    (Text.ofString source).Between offset (c :: rest.take more)
        (offset + byteLength (c :: rest.take more)) ∧
      (Text.ofString source).Onward (offset + byteLength (c :: rest.take more))
        (rest.drop more) := by
  rw [← List.take_append_drop more rest, ← List.cons_append] at here
  exact ⟨⟨rest.drop more, here, rfl⟩, here.append⟩

/-- Where lexing succeeds, the tokens account for the whole source. -/
theorem Lexer.Obeys.upTo_of_lexFrom (obeys : lexer.Obeys Reads Skipped)
    (here : (Text.ofString source).Onward offset ahead)
    (upTo : lexed.UpTo source Reads Skipped offset)
    (done : lexer.lexFrom offset lexed ahead = .ok result) :
    result.UpTo source Reads Skipped source.utf8ByteSize := by
  fun_induction lexFrom lexer offset lexed ahead with
  | case1 offset lexed =>
      cases done
      have last : source.utf8ByteSize = offset :=
        (Text.size_ofString source).symm.trans here.size_eq
      rwa [last]
  | case2 offset lexed c rest more cut ih =>
      obtain ⟨between, onward⟩ := between_piece here more
      exact ih onward (upTo.skip between (obeys.skipped c rest more cut)) done
  | case3 offset lexed c rest token more cut stop ih =>
      obtain ⟨between, onward⟩ := between_piece here more
      exact ih onward (upTo.push between (obeys.token c rest more token cut)) done
  | case4 => cases done

theorem Lexer.Obeys.upTo_of_lex (obeys : lexer.Obeys Reads Skipped)
    (done : lexer.lex source = .ok result) :
    result.UpTo source Reads Skipped source.utf8ByteSize :=
  obeys.upTo_of_lexFrom (Text.onward_zero source) .empty done

end Packrat
