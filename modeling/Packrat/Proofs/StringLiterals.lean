import Packrat.Proofs.JsonDocuments
import Packrat.Proofs.Losslessness
import Packrat.Proofs.PlainParsers
import Packrat.Proofs.Spellings

/-!
# String literals

The rule of strings reads a literal exactly if one stands at the position, and its symbol is
the text that the literal spells.  Everywhere else it ends in a mismatch, so also where a
surrogate is misplaced after characters that are spelled.
-/

namespace Packrat

section Performable

variable {ι α : Type} [Input ι] {setting : Setting ι α} {position : Nat}

def Setting.Performable (setting : Setting ι α) (parser : Parser ι α) (position : Nat) : Prop :=
  ∃ state outcome final, state.cursor = position ∧
    Ends setting (.call parser) state (.answered outcome) final

namespace Setting.Performable

theorem body {parser : Parser ι α} (performable : setting.Performable parser position)
    (untagged : parser.tag = none) :
    ∃ state result final, state.cursor = position ∧
      Ends setting (.move (parser.start setting state)) state (.replied result) final := by
  obtain ⟨state, outcome, final, here, ends⟩ := performable
  obtain ⟨result, middle, ran, -⟩ := (ends_untagged_iff untagged).mp ⟨final, ends⟩
  cases ran with
  | body move => exact ⟨setting.entered parser state, result, middle, here, move⟩

theorem called {parser inner : Parser ι α} {pending : Pending ι α}
    (performable : setting.Performable parser position) (untagged : parser.tag = none)
    (starts : ∀ state, parser.start setting state = .call inner pending) :
    setting.Performable inner position := by
  obtain ⟨state, result, final, here, move⟩ := performable.body untagged
  rw [starts] at move
  cases move with
  | resumed call _ => exact ⟨state, _, _, here, call⟩

theorem probed {expectation : String} {probe : Probe ι α}
    (performable : setting.Performable (.terminal expectation probe) position) :
    ∃ found, probe setting.input position = .ok found := by
  obtain ⟨state, result, final, rfl, move⟩ := performable.body rfl
  rw [Parser.start] at move
  cases probed : probe setting.input state.cursor with
  | ok found => exact ⟨found, rfl⟩
  | error fault =>
      rw [probed] at move
      cases move

theorem rest_eq {setting : Setting Text α} {expectation : String}
    {find : List Char → Option (Symbol α × Nat)}
    (performable : setting.Performable (.characters expectation find) position) :
    ∃ chars, setting.input.rest position = some chars := by
  obtain ⟨found, probed⟩ := probed performable
  split at probed
  · cases probed
  · next chars here => exact ⟨chars, here⟩

end Setting.Performable

end Performable

namespace Json

namespace Grammar

variable {text : String} {position : Nat}

/-- The matcher of an escape by number finds characters that stand at the position. -/
theorem numberedEscape_inPlace : MatchesInPlace numberedEscape := by
  intro text position found chars finds here
  rw [numberedEscape_eq here] at finds
  obtain ⟨high, digits, rfl⟩ := Option.map_eq_some_iff.mp finds
  obtain ⟨-, rest, rfl⟩ := fourDigits?_eq_some_iff.mp digits
  split
  · rw [String.toList_ofList]
    exact List.take_prefix 10 _
  · rw [String.toList_ofList]
    exact List.prefix_append high rest

/-- A terminal has an outcome at every boundary. -/
theorem terminal_decides {allowed : Answering Text Part} {parser : Rule}
    (terminal : TextTerminal parser) : (reading text).Decides allowed parser := by
  obtain ⟨expectation, probe, rfl⟩ := terminal.exists_probe
  exact Setting.decides_of_lands rfl fun _ boundary =>
    Setting.lands_terminal boundary (Readable.sound terminal)

theorem map_decides {allowed : Answering Text Part} {parser : Rule} {f : Value → Value}
    (decides : (reading text).Decides allowed parser) :
    (reading text).Decides allowed (parser.map f) :=
  Setting.decides_of_lands rfl fun _ boundary =>
    Setting.lands_wrap boundary decides (Finish.Blind.onSymbol f).total

theorem choice_decides {allowed : Answering Text Part} {one other : Rule}
    (first : (reading text).Decides allowed one) (second : (reading text).Decides allowed other) :
    (reading text).Decides allowed (.oneOf [one, other]) := by
  refine Setting.decides_of_lands rfl fun _ boundary => Setting.lands_choice boundary ?_
  simp only [List.mem_cons, List.not_mem_nil, or_false, forall_eq_or_imp, forall_eq]
  exact ⟨first, second⟩

/-- A call of the rule of escapes has an outcome at every boundary. -/
theorem escape_decides :
    (reading text).Decides (.named rules ((reading text).Settles rules)) escape := by
  refine Setting.decides_of_unasked Nonterminal.escape.tagged Nonterminal.escape.named
    fun position boundary => ?_
  have short {allowed : Answering Text Part} : (reading text).Decides allowed shortEscape :=
    map_decides (terminal_decides (.charIn _))
  have numbered {allowed : Answering Text Part} : (reading text).Decides allowed unicodeEscape :=
    Setting.decides_of_lands rfl fun _ boundary =>
      Setting.lands_wrap boundary (.ignoreThen (terminal_decides (.literal _))
        (terminal_decides (.matching _ numberedEscape_inPlace))) fun _ => ⟨_, rfl⟩
  exact Setting.lands_wrap boundary (map_decides (.ignoreThen (terminal_decides (.literal _))
    (choice_decides short numbered))) (Finish.Blind.onMismatch _).total

theorem string_decides :
    (reading text).Decides (.named rules ((reading text).Settles rules)) Grammar.string := by
  have parts : (reading text).Decides (.named rules ((reading text).Settles rules))
      (.many stringPart) :=
    Setting.decides_of_lands rfl fun _ boundary => Setting.lands_repetition boundary
      (choice_decides (terminal_decides (.charsIn _ _)) escape_decides)
  refine map_decides (Setting.decides_of_lands rfl fun _ boundary => Setting.lands_both boundary
    (.ignoreThen (terminal_decides (.literal _)) parts) (terminal_decides (.literal _)))

theorem string_performable (performable : (reading text).Performable Grammar.string position) :
    ∃ chars, (Text.ofString text).Onward position chars := by
  have opening : (reading text).Performable (.literal "\"") position :=
    ((performable.called rfl fun _ => rfl).called rfl fun _ => rfl).called rfl fun _ => rfl
  obtain ⟨chars, here⟩ := Setting.Performable.rest_eq opening
  exact ⟨chars, Text.onward_of_rest here⟩

end Grammar

open Grammar

/-! ## What the rule reads -/

/-- The rule of strings, run under the policies, ends in the outcome. -/
def StringRun (source : String) (policy : Policy Part) (position : Nat) (journal : List Event)
    (outcome : Outcome Value) : Prop :=
  ∃ steps final, (reading source).runMatch steps Grammar.string ⟨position, policy, journal⟩ =
    .done outcome final ∧ final.cursor = outcome.landing position

/-- Two escapes that are accepted together are those of surrogates, and denote their character. -/
def DecodesPairs (source : String) : Prop :=
  ∀ {position : Nat} {found : Captures} {low : String} {symbol : Value},
    numberedEscape (Text.ofString source) position = some found → found.group 2 = some low →
    decodeEscape (.captures found) = .ok symbol →
    ∃ high one two c, found.group 1 = some high ∧ IsCodeUnit high.toList one ∧
      IsCodeUnit low.toList two ∧ IsPair one two c ∧ symbol = .character c

/-- The rule of strings reads literals at the position under the policies, and nothing else. -/
structure ReadsLiterals (source : String) (policy : Policy Part) (position : Nat)
    (journal : List Event) : Prop where
  /-- A match is a literal that stands at the position, with the text that it spells. -/
  accepts : ∀ matched : Match Value, StringRun source policy position journal (.ok matched) ↔
    ∃ literal text stop, (Text.ofString source).Between position literal stop ∧
      Quotes literal text ∧ matched = ⟨.text text, ⟨position, stop⟩⟩
  ends : Readable.IsBoundary (Text.ofString source) position →
    ∃ outcome, StringRun source policy position journal outcome
  unique : ∀ one other, StringRun source policy position journal one →
    StringRun source policy position journal other → one = other
  /-- A misplaced surrogate is rejected, whatever is spelled before it. -/
  rejects : ∀ {text content digits rest : List Char} {unit : Nat}, SpellsAll text content →
    IsCodeUnit digits unit → Misplaced unit rest →
    (Text.ofString source).Onward position
      ('"' :: (content ++ '\\' :: 'u' :: (digits ++ rest))) →
    ∃ mismatch, StringRun source policy position journal (.error mismatch)

section Runs

variable {source : String} {policy : Policy Part} {position : Nat} {journal : List Event}
  {outcome : Outcome Value}

theorem StringRun.settles (serving : policy.Serving (reading source) rules)
    (run : StringRun source policy position journal outcome) :
    ∃ chars, (Text.ofString source).Onward position chars ∧
      (reading source).SettlesOn rules Grammar.string position outcome ∧
      outcome.Fits (Text.ofString source) position := by
  obtain ⟨steps, final, done, -⟩ := run
  have ends := Setting.runMatch_eq_done_iff.mp ⟨steps, done⟩
  obtain ⟨chars, before, same, here⟩ := string_performable ⟨_, outcome, final, rfl, ends⟩
  obtain ⟨made, settles, fits⟩ := string_decides position ⟨before, chars, same, here⟩
  cases Setting.SettlesOn.eq_of_run settles serving done
  exact ⟨chars, ⟨before, same, here⟩, settles, fits⟩

theorem StringRun.unique {other : Outcome Value}
    (run : StringRun source policy position journal outcome)
    (runToo : StringRun source policy position journal other) : outcome = other := by
  obtain ⟨steps, final, done, -⟩ := run
  obtain ⟨stepsToo, finalToo, doneToo, -⟩ := runToo
  exact Setting.outcome_unique done doneToo

theorem StringRun.quotes {matched : Match Value} (serving : policy.Serving (reading source) rules)
    (run : StringRun source policy position journal (.ok matched)) :
    ∃ literal text stop, (Text.ofString source).Between position literal stop ∧
      Quotes literal text ∧ matched = ⟨.text text, ⟨position, stop⟩⟩ := by
  obtain ⟨chars, here, settles, fits⟩ := run.settles serving
  -- What calls settle on is also what a fresh engine makes of them, and that can be explained.
  obtain ⟨steps, final, done, -⟩ := settles.runs Policy.standard_serving []
  have answers := (rules_explained source).answers (rules_grammar source) string_linked
    (Setting.runMatch_eq_done_iff.mp ⟨steps, done⟩)
  obtain ⟨literal, text, between, isString, symbol_eq⟩ := string_answers here answers
  obtain ⟨symbol, start, stop⟩ := matched
  cases symbol_eq
  cases fits.1
  exact ⟨literal, text, stop, between, quotes_iff.mpr isString, rfl⟩

/-- A literal that stands at the position is read as the text that it spells. -/
theorem Quotes.run {literal : List Char} {text : String} {stop : Nat}
    (quotes : Quotes literal text) (serving : policy.Serving (reading source) rules)
    (between : (Text.ofString source).Between position literal stop) :
    StringRun source policy position journal (.ok ⟨.text text, ⟨position, stop⟩⟩) := by
  obtain ⟨rest, here, rfl⟩ := between
  have reads : (reading source).Matches (inside source .value 0) Grammar.string position
      (.text text) (position + byteLength literal) :=
    string_matches (by decide) (quotes_iff.mp quotes) here
  have settles : (reading source).SettlesOn rules Grammar.string position
      (.ok ⟨.text text, ⟨position, position + byteLength literal⟩⟩) :=
    Yields.mono reads.1 fun _ _ _ ⟨tag, tagged, named, given⟩ => ⟨tag, tagged, named, given.2⟩
  exact settles.runs serving journal

theorem exists_stringRun (journal : List Event) (serving : policy.Serving (reading source) rules)
    (boundary : Readable.IsBoundary (Text.ofString source) position) :
    ∃ outcome, StringRun source policy position journal outcome := by
  obtain ⟨outcome, settles, -⟩ := string_decides position boundary
  exact ⟨outcome, Setting.SettlesOn.runs settles serving journal⟩

/-- A misplaced surrogate after what is spelled is rejected. -/
theorem Misplaced.run {text content digits rest : List Char} {unit : Nat}
    (misplaced : Misplaced unit rest) (isUnit : IsCodeUnit digits unit)
    (spelled : SpellsAll text content) (serving : policy.Serving (reading source) rules)
    (here : (Text.ofString source).Onward position
      ('"' :: (content ++ '\\' :: 'u' :: (digits ++ rest)))) :
    ∃ mismatch, StringRun source policy position journal (.error mismatch) := by
  obtain ⟨before, same, starts⟩ := here
  obtain ⟨outcome, run⟩ := exists_stringRun journal serving ⟨before, _, same, starts⟩
  cases outcome with
  | error mismatch => exact ⟨mismatch, run⟩
  | ok matched =>
      obtain ⟨literal, text, stop, between, ⟨contentToo, quoted, rfl⟩, -⟩ := run.quotes serving
      obtain ⟨more, hereToo, -⟩ := between
      have sameChars := hereToo.unique ⟨before, same, starts⟩
      rw [List.cons_append, List.append_assoc] at sameChars
      exact absurd (List.cons.inj sameChars).2 (misplaced.not_quoted isUnit spelled quoted)

end Runs

/-- The second escape is that of a low surrogate by the pattern; the first one is tested. -/
theorem decodesPairs (source : String) : DecodesPairs source := by
  intro position found lowText symbol finds second decoded
  obtain ⟨chars, rest⟩ := rest_of_numberedEscape finds
  obtain ⟨high, four, ⟨_, -, rfl⟩ | ⟨low, _, fourToo, isLow, -, rfl⟩⟩ :=
    numberedEscape_cases (Text.onward_of_rest rest) finds
  · cases second
  · cases second
    have isUnit {digits : List Char} (four : FourDigits digits) :
        IsCodeUnit (String.ofList digits).toList (codeUnit digits) := by
      rw [String.toList_ofList]
      exact isCodeUnit_iff.mpr ⟨four, rfl⟩
    obtain ⟨c, numbers, rfl⟩ := decodeEscape_eq_ok_iff.mp decoded
    change decodeNumbers? (some (String.ofList high)) (some (String.ofList low)) = some c at numbers
    obtain ⟨inside, -⟩ := Option.ite_none_right_eq_some.mp numbers
    rw [Bool.and_eq_true, decide_eq_true_eq, decide_eq_true_eq] at inside
    obtain ⟨above, below⟩ := inside
    obtain ⟨aboveToo, belowToo⟩ := (isLowSurrogate_iff fourToo).mp isLow
    rw [decodeNumbers?_surrogates above below belowToo] at numbers
    rw [← Option.some.inj numbers]
    exact ⟨_, _, _, _, rfl, isUnit four, isUnit fourToo,
      isPair_ofNat above below aboveToo belowToo, rfl⟩

/--
Under the policies that runs leave behind on a standard engine, the rule of strings reads the
literals that stand at a position, decodes them to the text that they spell, and rejects
surrogates that are misplaced.
-/
theorem reads_literals (source : String) (policy : Policy Part)
    (left : LeftSettled (reading source) rules policy) (position : Nat) (journal : List Event) :
    ReadsLiterals source policy position journal ∧ DecodesPairs source where
  left :=
    { accepts := fun matched => by
        constructor
        · exact StringRun.quotes left.serving
        · rintro ⟨literal, text, stop, between, quotes, rfl⟩
          exact quotes.run left.serving between
      ends := exists_stringRun journal left.serving
      unique := fun _ _ => StringRun.unique
      rejects := fun spelled isUnit misplaced here =>
        misplaced.run isUnit spelled left.serving here }
  right := decodesPairs source

/-- The literal of one character that the escapes of two surrogates spell. -/
def pairLiteral : List Char :=
  '"' :: (['\\', 'u', 'd', '8', '3', 'd', '\\', 'u', 'D', 'E', '0', '0'] ++ ['"'])

theorem reads_literals_pair : LeftSettled (reading (String.ofList pairLiteral)) rules .standard ∧
    StringRun (String.ofList pairLiteral) .standard 0 [] (.ok ⟨.text "😀", ⟨0, 14⟩⟩) := by
  have high : IsCodeUnit ['d', '8', '3', 'd'] (((13 * 16 + 8) * 16 + 3) * 16 + 13) :=
    .digits (by decide) (by decide) (by decide) (by decide)
  have low : IsCodeUnit ['D', 'E', '0', '0'] (((13 * 16 + 14) * 16 + 0) * 16 + 0) :=
    .digits (by decide) (by decide) (by decide) (by decide)
  have spells : Spells '😀' ['\\', 'u', 'd', '8', '3', 'd', '\\', 'u', 'D', 'E', '0', '0'] :=
    .pair high low ⟨by decide, by decide, by decide, by decide, by decide⟩
  have quotes : Quotes pairLiteral "😀" := ⟨_, ⟨[_], .cons spells .nil, rfl⟩, rfl⟩
  have here := Text.onward_zero (String.ofList pairLiteral)
  rw [String.toList_ofList, ← List.append_nil pairLiteral] at here
  exact ⟨.fresh, ((reads_literals _ .standard .fresh 0 []).1.accepts _).mpr
    ⟨pairLiteral, "😀", 14, ⟨[], here, rfl⟩, quotes, rfl⟩⟩

end Json

end Packrat
