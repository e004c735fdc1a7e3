import Packrat.Proofs.MemoGrowth
import Packrat.Proofs.Services
import Packrat.Proofs.TextReading

/-!
# Nothing of the input is lost

Parsers that keep all that they read yield symbols whose text is the part of the input that
their spans cover.  `Parser.Verbatim` lists the vocabulary of such parsers.  `Config.Spelled` is
the invariant of the machine that says so for matches that are answered, for those that memo
tables remember, and for the parts that waiting bodies have read so far; every step preserves it.
-/

namespace Packrat

variable {α : Type} {text : Text} {atomText : α → String}

namespace Symbol

/-- The characters of a symbol: those of its leaves in order. -/
def spelling (atomText : α → String) (symbol : Symbol α) : List Char :=
  (symbol.plainText atomText).toList

@[simp]
theorem spelling_unit : (unit : Symbol α).spelling atomText = [] := by
  simp only [spelling, plainText, String.toList_empty]

@[simp]
theorem spelling_character (c : Char) : (character c : Symbol α).spelling atomText = [c] := by
  simp only [spelling, plainText, Char.toString, String.toList_singleton]

@[simp]
theorem spelling_text (content : String) :
    (Symbol.text content : Symbol α).spelling atomText = content.toList := rfl

@[simp]
theorem spelling_absent : (absent : Symbol α).spelling atomText = [] := by
  simp only [spelling, plainText, String.toList_empty]

@[simp]
theorem spelling_present (content : Symbol α) :
    (present content).spelling atomText = content.spelling atomText := rfl

@[simp]
theorem spelling_pair (first second : Symbol α) :
    (pair first second).spelling atomText =
      first.spelling atomText ++ second.spelling atomText := by
  simp only [spelling, plainText, String.toList_append]

@[simp]
theorem spelling_list (items : List (Symbol α)) :
    (list items).spelling atomText = items.flatMap (spelling atomText) := by
  simp only [spelling, plainText]
  induction items with
  | nil => simp only [plainTexts, String.toList_empty, List.flatMap_nil]
  | cons item rest ih =>
      rw [plainTexts, String.toList_append, ih, List.flatMap_cons]
      rfl

end Symbol

/-- The parser is built from terminals over texts and from combinators that keep all symbols. -/
inductive Parser.Verbatim : Parser Text α → Prop where
  | terminal {parser : Parser Text α} : TextTerminal parser → Verbatim parser
  | empty : Verbatim .empty
  | followedBy {first second : Parser Text α} :
      Verbatim first → Verbatim second → Verbatim (first.followedBy second)
  | maybe {inner : Parser Text α} : Verbatim inner → Verbatim inner.maybe
  | repetition (tag : Option Tag) {item : Parser Text α} (limit : CountLimit) :
      Verbatim item → Verbatim (.repetition tag item limit)
  | choice (tag : Option Tag) {alternatives : List (Parser Text α)} :
      (∀ parser ∈ alternatives, Verbatim parser) → Verbatim (.choice tag alternatives)
  | labelled (tag : Tag) {inner : Parser Text α} : Verbatim inner → Verbatim (inner.labelled tag)
  | boxed {inner : Parser Text α} : Verbatim inner → Verbatim inner.boxed
  | retag (tag : Tag) {inner : Parser Text α} : Verbatim inner → Verbatim (.retag tag inner)
  | deferred {inner : Parser Text α} : Verbatim inner → Verbatim inner.deferred
  | rule (tag : Tag) {inner : Parser Text α} : Verbatim inner → Verbatim (.rule tag inner)
  | recursive (tag : Tag) {body : Parser Text α} : Verbatim body → Verbatim (.recursive tag body)
  | self (depth : Nat) : Verbatim (.self depth)
  | handle (tag : Tag) (slot : Nat) : Verbatim (.handle tag slot)

def Arena.Verbatim (arena : Arena Text α) : Prop :=
  ∀ (slot : Nat) (parser : Parser Text α), arena.slots[slot]? = some (some parser) →
    parser.Verbatim

theorem TextTerminal.exists_probe {parser : Parser Text α} (known : TextTerminal parser) :
    ∃ expectation probe, parser = .terminal expectation probe := by
  cases known <;> exact ⟨_, _, rfl⟩

theorem TextTerminal.replaceSelf_eq {parser : Parser Text α} (known : TextTerminal parser)
    (replacement : Parser Text α) (depth : Nat) :
    Parser.replaceSelf replacement depth parser = parser := by
  cases known <;> rfl

theorem TextTerminal.renamed_eq {parser : Parser Text α} (known : TextTerminal parser)
    (tag : Tag) : parser.renamed tag = parser := by
  cases known <;> rfl

namespace Parser.Verbatim

theorem replaceSelf {replacement parser : Parser Text α} (verbatim : replacement.Verbatim)
    (body : parser.Verbatim) (depth : Nat) :
    (Parser.replaceSelf replacement depth parser).Verbatim := by
  induction body generalizing depth with
  | terminal known =>
      rw [known.replaceSelf_eq]
      exact .terminal known
  | empty => exact .empty
  | followedBy _ _ firstIh secondIh => exact .followedBy (firstIh depth) (secondIh depth)
  | maybe _ ih => exact .maybe (ih depth)
  | repetition tag limit _ ih => exact .repetition tag limit (ih depth)
  | choice tag _ ih =>
      rw [Parser.replaceSelf, replaceSelfAll_eq_map]
      refine .choice tag fun parser member => ?_
      obtain ⟨alternative, memberToo, rfl⟩ := List.mem_map.mp member
      exact ih alternative memberToo depth
  | labelled tag _ ih => exact .labelled tag (ih depth)
  | boxed _ ih => exact .boxed (ih depth)
  | retag tag _ ih => exact .retag tag (ih depth)
  | deferred _ ih => exact .deferred (ih depth)
  | rule tag _ ih => exact .rule tag (ih depth)
  | recursive tag _ ih => exact .recursive tag (ih (depth + 1))
  | self level =>
      rw [Parser.replaceSelf]
      split
      · exact verbatim
      · exact .self level
  | handle tag slot => exact .handle tag slot

theorem renamed (tag : Tag) {parser : Parser Text α} (verbatim : parser.Verbatim) :
    (parser.renamed tag).Verbatim := by
  induction verbatim with
  | terminal known =>
      rw [known.renamed_eq]
      exact .terminal known
  | recursive _ body _ => exact .recursive tag body
  | retag _ _ ih => exact ih
  | empty => exact .empty
  | followedBy first second _ _ => exact .followedBy first second
  | maybe inner _ => exact .maybe inner
  | repetition tag limit item _ => exact .repetition tag limit item
  | choice tag alternatives _ => exact .choice tag alternatives
  | labelled tag inner _ => exact .labelled tag inner
  | boxed inner _ => exact .boxed inner
  | deferred inner _ => exact .deferred inner
  | rule tag inner _ => exact .rule tag inner
  | self depth => exact .self depth
  | handle tag slot => exact .handle tag slot

end Parser.Verbatim

theorem Text.IsBoundary.onward {position : Nat} (boundary : text.IsBoundary position) :
    ∃ chars, text.Onward position chars := by
  obtain ⟨before, chars, split, here⟩ := boundary
  exact ⟨chars, before, split, here⟩

section Terminals

variable {chars : List Char} {symbol : Symbol α} {length position : Nat}

def Symbol.Covers (atomText : α → String) (symbol : Symbol α) (length : Nat)
    (chars : List Char) : Prop :=
  symbol.spelling atomText <+: chars ∧ length = byteLength (symbol.spelling atomText)

theorem Symbol.Covers.between (covers : symbol.Covers atomText length chars)
    (here : text.Onward position chars) :
    text.Between position (symbol.spelling atomText) (position + length) := by
  obtain ⟨⟨rest, rfl⟩, rfl⟩ := covers
  exact ⟨rest, here, rfl⟩

theorem characters_between {find : List Char → Option (Symbol α × Nat)}
    (covers : ∀ chars symbol length, find chars = some (symbol, length) →
      symbol.Covers atomText length chars)
    (boundary : text.IsBoundary position)
    (found : (match text.rest position with
      | none => .error .splitCharacter
      | some chars => .ok (find chars) : Except Fault (Option (Symbol α × Nat))) =
        .ok (some (symbol, length))) :
    text.Between position (symbol.spelling atomText) (position + length) := by
  obtain ⟨chars, here⟩ := boundary.onward
  rw [here.rest_eq] at found
  exact (covers chars symbol length (Except.ok.inj found)).between here

theorem literal_spells (wanted : String) (chars : List Char) (symbol : Symbol α) (length : Nat)
    (found : (if wanted.toList.isPrefixOf chars then
      some (.text wanted, wanted.utf8ByteSize) else none) = some (symbol, length)) :
    symbol.Covers atomText length chars := by
  obtain ⟨starts, shown⟩ := Option.ite_none_right_eq_some.mp found
  cases shown
  exact ⟨List.isPrefixOf_iff_prefix.mp starts, (byteLength_toList wanted).symm⟩

theorem oneCharacter_spells (accepts : Char → Bool) (chars : List Char) (symbol : Symbol α)
    (length : Nat)
    (found : (match chars with
      | [] => none
      | c :: _ => if accepts c then some (.character c, c.utf8Size) else none) =
        some (symbol, length)) : symbol.Covers atomText length chars := by
  cases chars with
  | nil => cases found
  | cons c rest =>
      obtain ⟨-, shown⟩ := Option.ite_none_right_eq_some.mp found
      cases shown
      rw [Symbol.Covers, Symbol.spelling_character]
      exact ⟨⟨rest, rfl⟩, rfl⟩

theorem characterRun_spells (limit : CountLimit) (accepts : Char → Bool) (chars : List Char)
    (symbol : Symbol α) (length : Nat)
    (found : (let run := Parser.runOf limit accepts chars
      if limit.admits run.length then some (.text (String.ofList run), byteLength run)
      else none) = some (symbol, length)) : symbol.Covers atomText length chars := by
  obtain ⟨-, shown⟩ := Option.ite_none_right_eq_some.mp found
  cases shown
  rw [Symbol.Covers, Symbol.spelling_text, String.toList_ofList]
  exact ⟨ runOf_prefix limit accepts chars, rfl⟩

/-- A terminal that finds something at a boundary has its text there. -/
theorem TextTerminal.between {expectation : String} {probe : Probe Text α}
    (terminal : TextTerminal (.terminal expectation probe)) (boundary : text.IsBoundary position)
    (found : probe text position = .ok (some (symbol, length))) :
    text.Between position (symbol.spelling atomText) (position + length) := by
  generalize shape : Parser.terminal expectation probe = parser at terminal
  cases terminal with
  | literal wanted =>
      cases shape
      exact characters_between (literal_spells wanted) boundary found
  | satisfying accepts =>
      cases shape
      exact characters_between (oneCharacter_spells accepts) boundary found
  | charIn set =>
      cases shape
      exact characters_between (oneCharacter_spells set.contains) boundary found
  | takeWhile limit accepts =>
      cases shape
      exact characters_between (characterRun_spells limit accepts) boundary found
  | charsIn set limit =>
      cases shape
      exact characters_between (characterRun_spells limit set.contains) boundary found
  | @matching description matcher inPlace =>
      cases shape
      obtain ⟨captured, given, shown⟩ := Option.map_eq_some_iff.mp (Except.ok.inj found)
      cases shown
      obtain ⟨chars, here⟩ := boundary.onward
      have covers : (Symbol.captures captured : Symbol α).Covers atomText
          captured.text.utf8ByteSize chars :=
        ⟨inPlace text position captured chars given here.rest_eq,
          (byteLength_toList captured.text).symm⟩
      exact covers.between here
  | endOfInput =>
      cases shape
      obtain ⟨-, shown⟩ := Option.ite_none_right_eq_some.mp (Except.ok.inj found)
      cases shown
      obtain ⟨chars, here⟩ := boundary.onward
      rw [Symbol.spelling_unit]
      exact .nil here

end Terminals

/-! ## Outcomes and memo tables -/

/-- A match starts at the position, and its text stands between there and its end. -/
def Outcome.SpelledFrom {σ : Type} (text : Text) (spelling : σ → List Char) (position : Nat)
    (outcome : Outcome σ) : Prop :=
  ∀ matched, outcome = .ok matched → matched.span.start = position ∧
    text.Between position (spelling matched.symbol) matched.span.stop

def Sealed.spelling (atomText : α → String) (closed : Sealed α) : List Char :=
  closed.symbol.spelling atomText

def Memoizer.Spelled (text : Text) (atomText : α → String) (memo : Memoizer α) : Prop :=
  ∀ (key : Key) (outcome : Outcome (Sealed α)), memo.find? key = some outcome →
    outcome.SpelledFrom text (Sealed.spelling atomText) key.position

theorem Policy.Fresh.spelled {policy : Policy α} (fresh : policy.Fresh) (text : Text)
    (atomText : α → String) : policy.Remembers (Memoizer.Spelled text atomText) := by
  refine Policy.remembers_of_fresh (fun key outcome found => ?_) fresh
  rw [Memoizer.find?_empty] at found
  cases found

section Calls

variable {call : Call} {policy : Policy α} {outcome : Outcome (Sealed α)}

theorem Memoizer.Spelled.found {memo : Memoizer α} (spelled : memo.Spelled text atomText)
    {key : Key} (tagged : call.key? = some key) (found : memo.find? key = some outcome) :
    outcome.SpelledFrom text (Sealed.spelling atomText) call.position := by
  rw [← Call.position_of_key? tagged]
  exact spelled key outcome found

theorem Memoizer.Spelled.stored {memo : Memoizer α} (spelled : memo.Spelled text atomText)
    {key : Key} (tagged : call.key? = some key)
    (fits : outcome.SpelledFrom text (Sealed.spelling atomText) call.position) :
    (memo.insert key outcome).Spelled text atomText := by
  intro other remembered found
  rw [Memoizer.find?_insert] at found
  split at found
  · next same =>
      cases found
      rwa [← same, Call.position_of_key? tagged]
  · exact spelled other remembered found

/-- Policies answer a call with a match that is spelled out, if they remember such matches. -/
theorem enter_spelled (remembers : policy.Remembers (Memoizer.Spelled text atomText)) :
    (policy.enter call).policy.Remembers (Memoizer.Spelled text atomText) ∧
      ∀ outcome, (policy.enter call).answer = some outcome →
        outcome.SpelledFrom text (Sealed.spelling atomText) call.position := by
  refine Policy.enter_remembers (Outcome.SpelledFrom text (Sealed.spelling atomText) call.position)
    (fun spelled tagged => spelled.found tagged) (fun spelled tagged => spelled.stored tagged)
    remembers (Policy.limits_of_all (fun _ _ _ _ matched refused => ?_) policy)
  cases refused

theorem leave_spelled (remembers : policy.Remembers (Memoizer.Spelled text atomText))
    (fits : outcome.SpelledFrom text (Sealed.spelling atomText) call.position) :
    (policy.leave call outcome).policy.Remembers (Memoizer.Spelled text atomText) ∧
      (policy.leave call outcome).outcome.SpelledFrom text (Sealed.spelling atomText)
        call.position :=
  Policy.leave_remembers (Outcome.SpelledFrom text (Sealed.spelling atomText) call.position)
    (fun spelled tagged => spelled.found tagged) (fun spelled tagged => spelled.stored tagged)
    remembers fits

theorem settle_spelled
    (fits : outcome.SpelledFrom text (Sealed.spelling atomText) call.position) (kind : Kind)
    (state : State α) :
    (settle call kind outcome state).1.SpelledFrom text (Symbol.spelling atomText)
      call.position := by
  intro matched settled
  cases outcome with
  | error mismatch => cases settled
  | ok stored =>
      simp only [settle] at settled
      split at settled
      · cases settled
        exact fits stored rfl
      · cases settled

end Calls

/-- A finishing step keeps the text of a symbol, and what it makes of a mismatch has no text. -/
def Finish.KeepsText (atomText : α → String) (complete : Finish α) : Prop :=
  ∀ result symbol, complete result = .ok (.ok symbol) →
    symbol.spelling atomText = result.toOption.elim [] (Symbol.spelling atomText)

/-- A waiting body has read the given characters so far and keeps all that it goes on to read. -/
def Pending.Keeps (atomText : α → String) (content : List Char) : Pending Text α → Prop
  | .finish complete => content = [] ∧ complete.KeepsText atomText
  | .first other combine => content = [] ∧ other.Verbatim ∧ combine = .pair
  | .second symbol combine => content = symbol.spelling atomText ∧ combine = .pair
  | .passing => content = []
  | .alternative _ _ rest => content = [] ∧ ∀ parser ∈ rest, parser.Verbatim
  | .iteration _ item _ taken =>
      content = taken.reverse.flatMap (Symbol.spelling atomText) ∧ item.Verbatim
  | _ => False

def Move.Spelled (text : Text) (atomText : α → String) (start cursor : Nat) : Move Text α → Prop
  | .reply result =>
      ∀ symbol, result = .ok symbol → text.Between start (symbol.spelling atomText) cursor
  | .read symbol stop => text.Between start (symbol.spelling atomText) stop
  | .call parser pending => parser.Verbatim ∧
      ∃ content, text.Between start content cursor ∧ pending.Keeps atomText content
  | .become _ parser => parser.Verbatim ∧ text.Between start [] cursor
  | .abort _ => True

mutual

inductive WaitingStack (text : Text) (atomText : α → String) :
    Nat → List (Frame Text α) → Prop where
  | empty (position : Nat) : WaitingStack text atomText position []
  | waiting {start position : Nat} {content : List Char} {pending : Pending Text α}
      {stack : List (Frame Text α)} :
      text.Between start content position → pending.Keeps atomText content →
      RunningStack text atomText start stack →
      WaitingStack text atomText position (.waiting pending :: stack)

inductive RunningStack (text : Text) (atomText : α → String) :
    Nat → List (Frame Text α) → Prop where
  | active {call : Call} {stack : List (Frame Text α)} (kind : Kind) :
      WaitingStack text atomText call.position stack →
      RunningStack text atomText call.position (.active call kind :: stack)

end

def Control.Spelled (text : Text) (atomText : α → String) (stack : List (Frame Text α))
    (cursor : Nat) : Control Text α → Prop
  | .call parser => parser.Verbatim ∧ text.IsBoundary cursor ∧
      WaitingStack text atomText cursor stack
  | .body parser => parser.Verbatim ∧
      ∃ start, text.Between start [] cursor ∧ RunningStack text atomText start stack
  | .move next =>
      ∃ start, next.Spelled text atomText start cursor ∧ RunningStack text atomText start stack
  | .answer outcome => ∃ position, outcome.SpelledFrom text (Symbol.spelling atomText) position ∧
      cursor = outcome.landing position ∧ WaitingStack text atomText position stack

/-- The invariant of an engine that runs parsers which keep what they read. -/
structure Config.Spelled (text : Text) (atomText : α → String) (config : Config Text α) :
    Prop where
  control : config.control.Spelled text atomText config.stack config.state.cursor
  remembers : config.state.policy.Remembers (Memoizer.Spelled text atomText)

section Bodies

variable {start cursor : Nat} {content : List Char}

theorem Text.Between.isBoundary (between : text.Between start content cursor) :
    text.IsBoundary cursor := by
  obtain ⟨rest, -, before, split, here⟩ := between.onward
  exact ⟨before, rest, split, here⟩

theorem Text.IsBoundary.between (boundary : text.IsBoundary cursor) :
    text.Between cursor [] cursor := by
  obtain ⟨chars, here⟩ := boundary.onward
  exact .nil here

theorem Text.Between.eq_of_nil (between : text.Between start [] cursor) : cursor = start := by
  obtain ⟨-, -, rfl⟩ := between
  rfl

theorem reply_error_spelled (mismatch : Mismatch) :
    (Move.reply (.error mismatch)).Spelled text atomText start cursor := by
  intro symbol replied
  cases replied

theorem tryAlternatives_spelled {tag : Option Tag} {alternatives rest : List (Parser Text α)}
    (all : ∀ parser ∈ rest, parser.Verbatim) (nothing : text.Between start [] cursor) :
    (tryAlternatives tag alternatives rest).Spelled text atomText start cursor := by
  cases rest with
  | nil => exact reply_error_spelled _
  | cons parser rest =>
      exact ⟨all parser List.mem_cons_self, [], nothing, rfl, fun other member =>
        all other (List.mem_cons_of_mem parser member)⟩

theorem endRepetition_spelled {tag : Option Tag} {item : Parser Text α} {limit : CountLimit}
    {taken : List (Symbol α)} {failure : Option Mismatch}
    (read : text.Between start (taken.reverse.flatMap (Symbol.spelling atomText)) cursor) :
    (Move.reply (endRepetition tag item limit taken failure)).Spelled text atomText start
      cursor := by
  intro symbol ended
  unfold endRepetition at ended
  split at ended
  · cases ended
    rwa [Symbol.spelling_list]
  · split at ended <;> cases ended

theorem continueRepetition_spelled {tag : Option Tag} {item : Parser Text α}
    {limit : CountLimit} {taken : List (Symbol α)} (verbatim : item.Verbatim)
    (read : text.Between start (taken.reverse.flatMap (Symbol.spelling atomText)) cursor) :
    (continueRepetition tag item limit taken).Spelled text atomText start cursor := by
  unfold continueRepetition
  split
  · exact ⟨verbatim, _, read, rfl, verbatim⟩
  · exact endRepetition_spelled read

namespace Finish.KeepsText

theorem keep : Finish.KeepsText atomText (.ok : Finish α) := by
  intro result symbol finished
  cases finished
  rfl

theorem onMismatch (f : Mismatch → Mismatch) :
    Finish.KeepsText atomText (Parser.onMismatch f : Finish α) := by
  intro result symbol finished
  cases result <;> cases finished
  rfl

end Finish.KeepsText

theorem Parser.Verbatim.begins {setting : Setting Text α} (arena : setting.arena.Verbatim)
    {parser : Parser Text α} (verbatim : parser.Verbatim) {state : State α}
    (nothing : setting.input.Between start [] state.cursor) :
    (parser.start setting state).Spelled setting.input atomText start state.cursor := by
  cases verbatim with
  | terminal known =>
      obtain ⟨expectation, probe, rfl⟩ := known.exists_probe
      rw [Parser.start]
      split
      · trivial
      · exact reply_error_spelled _
      · next symbol length found =>
          split
          · rw [← nothing.eq_of_nil]
            exact known.between nothing.isBoundary found
          · trivial
  | empty =>
      intro symbol replied
      cases replied
      rwa [Symbol.spelling_unit]
  | followedBy first second => exact ⟨first, [], nothing, rfl, second, rfl⟩
  | maybe inner =>
      refine ⟨inner, [], nothing, rfl, fun result symbol finished => ?_⟩
      cases result with
      | error mismatch =>
          cases finished
          exact Symbol.spelling_absent
      | ok content =>
          cases finished
          exact Symbol.spelling_present content
  | repetition tag limit item => exact continueRepetition_spelled item nothing
  | choice tag alternatives => exact tryAlternatives_spelled alternatives nothing
  | labelled tag inner => exact ⟨inner, [], nothing, rfl, .onMismatch _⟩
  | boxed inner => exact ⟨inner, nothing⟩
  | retag tag inner => exact ⟨inner.renamed tag, nothing⟩
  | deferred inner => exact ⟨inner, [], nothing, rfl, .keep⟩
  | rule tag inner => exact ⟨inner, [], nothing, rfl, .keep⟩
  | recursive tag body =>
      exact ⟨Parser.Verbatim.replaceSelf (.recursive tag body) body 0, [], nothing, rfl⟩
  | self depth => exact reply_error_spelled _
  | handle tag slot =>
      simp only [Parser.start]
      split
      · next resolved => exact ⟨arena slot _ (Arena.held_of_resolve resolved), nothing⟩
      · exact reply_error_spelled _

theorem Pending.Keeps.resume {pending : Pending Text α} {position : Nat}
    (keeps : pending.Keeps atomText content) (read : text.Between start content position)
    {outcome : Outcome (Symbol α)}
    (spelled : outcome.SpelledFrom text (Symbol.spelling atomText) position) :
    (pending.resume outcome).Spelled text atomText start (outcome.landing position) := by
  cases pending with
  | finish complete =>
      obtain ⟨rfl, keepsText⟩ := keeps
      rw [Pending.resume]
      cases finished : complete (outcome.map Match.symbol) with
      | error fault => trivial
      | ok result =>
          rintro symbol rfl
          rw [keepsText _ _ finished]
          cases outcome with
          | error mismatch => exact read
          | ok matched => exact read.append (spelled matched rfl).2
  | first other combine =>
      obtain ⟨rfl, verbatim, rfl⟩ := keeps
      cases outcome with
      | error mismatch => exact reply_error_spelled mismatch
      | ok matched => exact ⟨verbatim, _, read.append (spelled matched rfl).2, rfl, rfl⟩
  | second symbol combine =>
      obtain ⟨rfl, rfl⟩ := keeps
      cases outcome with
      | error mismatch => exact reply_error_spelled mismatch
      | ok matched =>
          intro both replied
          cases replied
          rw [Symbol.spelling_pair]
          exact read.append (spelled matched rfl).2
  | passing =>
      obtain rfl : content = [] := keeps
      intro symbol replied
      cases outcome with
      | error mismatch => cases replied
      | ok matched =>
          cases replied
          exact read.append (spelled matched rfl).2
  | alternative tag alternatives rest =>
      obtain ⟨rfl, all⟩ := keeps
      cases outcome with
      | error mismatch => exact tryAlternatives_spelled all read
      | ok matched =>
          intro symbol replied
          cases replied
          exact read.append (spelled matched rfl).2
  | iteration tag item limit taken =>
      obtain ⟨rfl, verbatim⟩ := keeps
      cases outcome with
      | error mismatch => exact endRepetition_spelled read
      | ok matched =>
          have more : text.Between start
              ((matched.symbol :: taken).reverse.flatMap (Symbol.spelling atomText))
              matched.span.stop := by
            rw [List.reverse_cons, List.flatMap_append, List.flatMap_singleton]
            exact read.append (spelled matched rfl).2
          simp only [Pending.resume]
          split
          · exact endRepetition_spelled more
          · exact continueRepetition_spelled verbatim more
  | choosing next => exact keeps.elim
  | firstItem item separator => exact keeps.elim
  | nextItem item separator taken => exact keeps.elim

end Bodies

/-- A body that has ended has read the characters of its symbol. -/
theorem sealResult_spelled {call : Call} {kind : Kind} {cursor : Nat} {result : Result α}
    {made : Outcome (Sealed α)} (sealed : sealResult call kind cursor result = .ok made)
    (read : ∀ symbol, result = .ok symbol →
      text.Between call.position (symbol.spelling atomText) cursor) :
    made.SpelledFrom text (Sealed.spelling atomText) call.position := by
  rintro matched rfl
  have covered := span_of_sealResult sealed
  cases result with
  | error mismatch => cases sealed
  | ok symbol =>
      have same : matched.symbol = ⟨kind, symbol⟩ := by
        simp only [sealResult] at sealed
        split at sealed
        · cases sealed
          rfl
        · cases sealed
      rw [covered, same]
      exact ⟨rfl, read symbol rfl⟩

theorem Move.Spelled.finishes {start : Nat} {state after : State α} {move : Move Text α}
    {result : Result α} (spelled : move.Spelled text atomText start state.cursor)
    (finishes : Finishes state move result after) (symbol : Symbol α)
    (ended : result = .ok symbol) :
    text.Between start (symbol.spelling atomText) after.cursor := by
  cases finishes with
  | reply result => exact spelled symbol ended
  | read symbol stop =>
      cases ended
      exact spelled

/-- Every step preserves the invariant. -/
theorem Config.Spelled.step {setting : Setting Text α} (arena : setting.arena.Verbatim)
    {config next : Config Text α} (spelled : config.Spelled setting.input atomText)
    (edge : config.step setting = .next next) : next.Spelled setting.input atomText := by
  obtain ⟨control, remembers⟩ := spelled
  cases edge_of_step edge with
  | @answered parser stack state outcome answer =>
      obtain ⟨verbatim, boundary, waits⟩ := control
      obtain ⟨remembersToo, fits⟩ :
          (state.policy.enter (callAt setting.input state.cursor parser)).policy.Remembers _ ∧ _ :=
        enter_spelled remembers
      refine ⟨⟨state.cursor, settle_spelled (fits outcome answer) _ _, settle_cursor _ _ _ _,
        waits⟩, ?_⟩
      rw [settle_policy]
      exact remembersToo
  | @started parser stack state missing =>
      obtain ⟨verbatim, boundary, waits⟩ := control
      have runs : RunningStack setting.input atomText
          (callAt setting.input state.cursor parser).position
          (.active (callAt setting.input state.cursor parser) parser.kind :: stack) :=
        .active parser.kind waits
      exact ⟨⟨verbatim, state.cursor, boundary.between, runs⟩, (enter_spelled remembers).1⟩
  | ended finishes sealed =>
      obtain ⟨start, moves, runs⟩ := control
      cases runs with
      | active kind waits =>
          rw [← finishes.keeps.1] at remembers
          obtain ⟨remembersToo, fits⟩ :=
            leave_spelled remembers (sealResult_spelled sealed (moves.finishes finishes))
          refine ⟨⟨_, settle_spelled fits _ _, settle_cursor _ _ _ _, waits⟩, ?_⟩
          rw [conclude_policy]
          exact remembersToo
  | begun =>
      obtain ⟨verbatim, start, nothing, runs⟩ := control
      exact ⟨⟨start, verbatim.begins arena nothing, runs⟩, remembers⟩
  | called =>
      obtain ⟨start, ⟨verbatim, content, read, keeps⟩, runs⟩ := control
      exact ⟨⟨verbatim, read.isBoundary, .waiting read keeps runs⟩, remembers⟩
  | replaced =>
      obtain ⟨start, ⟨verbatim, nothing⟩, runs⟩ := control
      exact ⟨⟨verbatim, start, nothing, runs⟩, remembers⟩
  | resumed =>
      obtain ⟨position, fits, lands, waits⟩ := control
      cases waits with
      | waiting read keeps runs =>
          refine ⟨⟨_, ?_, runs⟩, remembers⟩
          rw [lands]
          exact keeps.resume read fits

/-! ## Sequences of runs -/

structure Task.Verbatim (text : Text) (task : Task Text α) : Prop where
  arena : task.arena.Verbatim
  parser : task.parser.Verbatim
  boundary : text.IsBoundary task.position

theorem Task.Verbatim.begins {task : Task Text α} (verbatim : task.Verbatim text)
    {state : State α} (remembers : state.policy.Remembers (Memoizer.Spelled text atomText)) :
    (task.begin state).Spelled text atomText :=
  ⟨⟨verbatim.parser, verbatim.boundary, .empty task.position⟩, remembers⟩

/-- The invariant holds as long as an engine serves tasks whose parsers keep what they read. -/
theorem Serves.spelled {policy : Policy α} (fresh : policy.Fresh) {tasks : List (Task Text α)}
    (verbatim : ∀ task ∈ tasks, task.Verbatim text) {history : List (Deed α)}
    {config : Config Text α} (serves : Serves text policy tasks history config) :
    config.Spelled text atomText := by
  induction serves with
  | first task => exact (verbatim task List.mem_cons_self).begins (fresh.spelled text atomText)
  | @step task tasks history config next _ edge ih =>
      have spelled : config.Spelled (Setting.mk text task.arena).input atomText := ih verbatim
      exact spelled.step (verbatim task List.mem_cons_self).arena edge
  | @next tasks history outcome state task _ ih =>
      have spelled := ih fun other member => verbatim other (List.mem_cons_of_mem task member)
      exact (verbatim task List.mem_cons_self).begins spelled.remembers

/--
Let an engine with fresh policies serve tasks whose parsers keep what they read.  Whenever a call
matches, be it that of a task or one inside of it, the text of its symbol is the part of the input
that its span covers.  So it is for every match that a memo table remembers, and its span starts
at the position of its key.
-/
theorem matches_spell_their_spans (text : Text) (atomText : α → String) (policy : Policy α)
    (fresh : policy.Fresh) (tasks : List (Task Text α))
    (verbatim : ∀ task ∈ tasks, task.Verbatim text) (history : List (Deed α))
    (config : Config Text α) (serves : Serves text policy tasks history config) :
    (∀ matched, config.control = .answer (.ok matched) →
      text.Between matched.span.start (matched.symbol.plainText atomText).toList
        matched.span.stop) ∧
    ∀ memo ∈ config.state.policy.memoTables, ∀ key matched,
      memo.find? key = some (.ok matched) → matched.span.start = key.position ∧
        text.Between matched.span.start (matched.symbol.symbol.plainText atomText).toList
          matched.span.stop := by
  obtain ⟨control, remembers⟩ : config.Spelled text atomText := serves.spelled fresh verbatim
  constructor
  · intro matched answers
    rw [answers] at control
    obtain ⟨position, spelled, -, -⟩ := control
    obtain ⟨rfl, read⟩ := spelled matched rfl
    exact read
  · intro memo member key matched found
    obtain ⟨starts, read⟩ := Policy.remembers_iff.mp remembers memo member key _ found matched rfl
    refine ⟨starts, ?_⟩
    rw [starts]
    exact read

def wordBody : Parser Text Unit := .followedBy (.satisfying (· == 'a')) (.maybe (.self 0))

def wordText : Text := .ofString (String.ofList ['a', 'a'])

def wordTask : Task Text Unit := ⟨.empty, .recursive ⟨"word"⟩ wordBody, 0⟩

theorem wordTask_verbatim : wordTask.Verbatim wordText where
  arena slot parser held := by cases held
  parser := .recursive _ (.followedBy (.terminal (.satisfying _)) (.maybe (.self 0)))
  boundary := Text.isBoundary_zero _

theorem wordText_eq :
    wordText = ⟨String.ofList ['a', 'a'], #[some ['a', 'a'], some ['a'], some []]⟩ := by
  rw [wordText, Text.ofString, String.toList_ofList]
  rfl

theorem matches_spell_their_spans_word : ∃ history final,
    Serves wordText .standard [wordTask] history ⟨.answer (.ok
      ⟨.pair (.character 'a') (.present (.pair (.character 'a') .absent)), ⟨0, 2⟩⟩), [], final⟩ ∧
    wordText.Between 0 ['a', 'a'] 2 ∧
    ∀ memo ∈ final.policy.memoTables, ∀ key matched, memo.find? key = some (.ok matched) →
      matched.span.start = key.position ∧
        wordText.Between matched.span.start (matched.symbol.symbol.plainText fun _ => "").toList
          matched.span.stop := by
  have composed : wordBody.Composed .untagged :=
    .both _ (.terminal (TextTerminal.satisfying _)) (Parser.Composed.maybe id (.self 0))
  have plain : (Setting.mk wordText .empty).runMatch 60 wordTask.parser (.plain 0) = .done (.ok
      ⟨.pair (.character 'a') (.present (.pair (.character 'a') .absent)), ⟨0, 2⟩⟩)
      (.plain 2) := by
    rw [wordText_eq]
    rfl
  obtain ⟨history, final, serves⟩ :=
    Serves.recursive composed (Policy.standard_fresh : (Policy.standard : Policy Unit).Fresh) plain
  obtain ⟨spelled, remembered⟩ := matches_spell_their_spans wordText (fun _ => "") .standard
    Policy.standard_fresh [wordTask] (fun task member => by
      rw [List.mem_singleton.mp member]
      exact wordTask_verbatim) history _ serves
  have read := spelled _ rfl
  refine ⟨history, final, serves, ?_, remembered⟩
  simpa only [Symbol.plainText, String.toList_append, Char.toString, String.toList_singleton,
    String.toList_empty, List.append_nil, List.singleton_append] using read

end Packrat
