import Packrat.Calculator.OverTokens
import Packrat.Proofs.Lexing
import Packrat.Proofs.Localization

/-!
# Where a source is blamed

A parser over tokens blames a rejected input on the position of a token, or on the end of the
tokens.  The span of a token leads back to the characters that the lexer read it from.  The end
of the tokens leads back to the end of the last one, which is the end of the source only if
nothing is skipped there.
-/

namespace Packrat

variable {τ : Type} {lexer : Lexer τ} {Reads : τ → List Char → Prop}
  {Skipped : List Char → Prop} {source : String} {lexed : Lexed τ} {index : Nat} {span : Span}

/-- A position among the tokens, or just past them, has a span in the source. -/
structure Lexed.Locates (lexed : Lexed τ) (source : String) (Reads : τ → List Char → Prop)
    (Skipped : List Char → Prop) (index : Nat) (span : Span) : Prop where
  inside : index ≤ lexed.tokens.size
  located : lexed.span? index = some span
  own : index < lexed.tokens.size → lexed.spans[index]? = some span
  covers : ∀ token, lexed.tokens[index]? = some token →
    ∃ word, (Text.ofString source).Between span.start word span.stop ∧ Reads token word
  /-- The end of the tokens has the empty span at the end of the last one. -/
  ends : index = lexed.tokens.size → span = ⟨lexed.stop, lexed.stop⟩
  /-- After the end of the tokens all words are skipped. -/
  after : index = lexed.tokens.size → ∃ words : List (List Char), (∀ word ∈ words, Skipped word) ∧
    (Text.ofString source).Onward span.stop words.flatten ∧
      source.utf8ByteSize = span.stop + byteLength words.flatten

namespace Lexed.UpTo

theorem locates_token (upTo : lexed.UpTo source Reads Skipped source.utf8ByteSize)
    (early : index < lexed.tokens.size) :
    ∃ span, lexed.Locates source Reads Skipped index span := by
  have spanned : index < lexed.spans.size := upTo.paired ▸ early
  have found := Array.getElem?_eq_getElem spanned
  refine ⟨lexed.spans[index], ?_⟩
  constructor
  · exact early.le
  · rw [span?, found]
  · exact fun _ => found
  · exact fun token here => upTo.covers index token _ here found
  · exact fun same => absurd same early.ne
  · exact fun same => absurd same early.ne

theorem locates_end (upTo : lexed.UpTo source Reads Skipped source.utf8ByteSize) :
    ∃ span, lexed.Locates source Reads Skipped lexed.tokens.size span := by
  obtain ⟨words, skipped, rest, onward, size⟩ := upTo.skipped
  refine ⟨⟨lexed.stop, lexed.stop⟩, ?_⟩
  constructor
  · exact Nat.le_refl _
  · rw [span?, Array.getElem?_eq_none upTo.paired.ge]
    exact if_pos upTo.paired
  · exact fun early => absurd early (Nat.lt_irrefl _)
  · intro token here
    rw [Array.getElem?_eq_none (Nat.le_refl _)] at here
    cases here
  · exact fun _ => rfl
  · refine fun _ => ⟨words, skipped, ?_, size⟩
    -- Nothing is left after the skipped words, since they end where the source does.
    have whole := (Text.size_ofString source).symm.trans onward.size_eq
    rw [byteLength_append] at whole
    have nothing : rest = [] := by
      by_contra more
      have positive := byteLength_pos more
      omega
    rwa [nothing, List.append_nil] at onward

end Lexed.UpTo

/--
Whatever the tokens, the lexer and the grammar, the position that an error blames leads back to
the source.
-/
theorem error_position_is_located (obeys : lexer.Obeys Reads Skipped)
    (lexes : lexer.lex source = .ok lexed) {α : Type} (arena : Arena (Array τ) α) (steps : Nat)
    (parser : Parser (Array τ) α) (error : ParseError) (final : State α)
    (rejected : (Setting.mk lexed.tokens arena).parse steps parser = .done (.error error) final)
    (index : Nat) (blamed : error.position = some index) :
    ∃ span, lexed.Locates source Reads Skipped index span := by
  have upTo := obeys.upTo_of_lex lexes
  obtain ⟨farthest, told, rfl⟩ := Option.map_eq_some_iff.mp blamed
  have inside : farthest.position ≤ lexed.tokens.size := Setting.parse_position_le rejected told
  rcases Nat.lt_or_eq_of_le inside with early | late
  · exact upTo.locates_token early
  · rw [late]
    exact upTo.locates_end

namespace Calculator

theorem lexer_obeys : Token.lexer.Obeys Token.Renders Space where
  token _ _ _ _ cut := (renders_of_cut cut).1
  skipped c rest more cut := by
    obtain ⟨blank, rfl⟩ := blank_of_cut cut
    simpa [Space] using blank

def parenthesized : Parser (Array Token) Int :=
  ((OverTokens.just .opening).ignoreThen (.select OverTokens.readNumber)).thenIgnore
    (OverTokens.just .closing)

theorem lex_unclosed : lex "(15 " = .ok ⟨#[.opening, .number 15], #[⟨0, 1⟩, ⟨1, 3⟩]⟩ := by
  have number : (Token.number 15).Renders ['1', '5'] :=
    .number ⟨List.cons_ne_nil _ _, forall_mem_of_all (by decide)⟩ (by decide) (by decide)
  have laid : Laid [] [⟨.opening, ['('], []⟩, ⟨.number 15, ['1', '5'], [' ']⟩] := by
    constructor
    · simp [Space]
    · simp only [List.forall_mem_cons, List.not_mem_nil, false_implies, implies_true, and_true]
      exact ⟨⟨.sign rfl, by simp [Space]⟩, ⟨number, by simp [Space]⟩⟩
    · simp [Lexeme.Apart, Token.sign?]
  exact lex_rendered laid

theorem parenthesized_unclosed : ∃ error final,
    (Setting.mk #[.opening, .number 15] .empty).parse 30 parenthesized =
      .done (.error error) final ∧ error.position = some 2 := by
  refine ⟨_, _, rfl, ?_⟩
  rfl

theorem error_position_is_located_unclosed : ∃ error final,
    (Setting.mk #[.opening, .number 15] .empty).parse 30 parenthesized =
      .done (.error error) final ∧ error.position = some 2 ∧
    ∃ span, Lexed.Locates ⟨#[.opening, .number 15], #[⟨0, 1⟩, ⟨1, 3⟩]⟩ "(15 " Token.Renders Space 2
      span ∧ span = ⟨3, 3⟩ := by
  obtain ⟨error, final, rejected, blamed⟩ := parenthesized_unclosed
  obtain ⟨span, locates⟩ :=
    error_position_is_located lexer_obeys lex_unclosed .empty 30 parenthesized error final rejected
      2 blamed
  exact ⟨error, final, rejected, blamed, span, locates, Option.some.inj locates.located.symm⟩

/-- With space at its end a source has more characters than the tokens lead back to. -/
theorem end_of_tokens_before_space : ∃ lexed error final,
    lex "(15 " = .ok lexed ∧
    (Setting.mk lexed.tokens .empty).parse 30 parenthesized = .done (.error error) final ∧
    error.position = some lexed.tokens.size ∧
    lexed.span? lexed.tokens.size ≠ some ⟨"(15 ".utf8ByteSize, "(15 ".utf8ByteSize⟩ := by
  obtain ⟨error, final, rejected, blamed⟩ := parenthesized_unclosed
  refine ⟨_, error, final, lex_unclosed, rejected, blamed, ?_⟩
  decide

end Calculator

end Packrat
