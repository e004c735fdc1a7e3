import Packrat.Parser.OverText
import Packrat.Parser.OverTokens

/-!
# Boundaries of an input

A cursor stands between two elements of its input or at either end: on a character
boundary of a text, and at any index of a token sequence.  From a boundary every terminal
of the vocabulary either finds nothing or finds something that ends on a boundary again;
it never breaks a rule of the engine.
-/

namespace Packrat

/-- An input with the boundaries of its elements and the terminals that read them. -/
class Readable (ι : Type) [Input ι] where
  IsBoundary : ι → Nat → Prop
  /-- The terminal with this expectation and this probe belongs to the vocabulary. -/
  IsTerminal : {α : Type} → String → Probe ι α → Prop
  le_size : ∀ {input : ι} {position : Nat}, IsBoundary input position →
    position ≤ Input.size input
  reads : ∀ {α : Type} {expectation : String} {probe : Probe ι α},
    IsTerminal expectation probe → ∀ {input : ι} {position : Nat},
    IsBoundary input position →
    ∃ found, probe input position = .ok found ∧ ∀ symbol length,
      found = some (symbol, length) → IsBoundary input (position + length)

@[simp]
theorem byteLength_nil : byteLength [] = 0 := rfl

@[simp]
theorem byteLength_cons (c : Char) (chars : List Char) :
    byteLength (c :: chars) = c.utf8Size + byteLength chars := rfl

@[simp]
theorem byteLength_append (chars rest : List Char) :
    byteLength (chars ++ rest) = byteLength chars + byteLength rest := by
  induction chars with
  | nil => simp
  | cons c chars ih => rw [List.cons_append, byteLength_cons, byteLength_cons, ih, Nat.add_assoc]

theorem byteLength_toList (source : String) :
    byteLength source.toList = source.utf8ByteSize := by
  suffices sized : ∀ chars, byteLength chars = (String.ofList chars).utf8ByteSize by
    rw [sized, String.ofList_toList]
  intro chars
  induction chars with
  | nil => simp
  | cons c chars ih =>
      have one : (String.ofList [c]).utf8ByteSize = c.utf8Size := by
        rw [← String.size_toByteArray, String.toByteArray_ofList, List.utf8Encode_singleton,
          List.size_toByteArray, String.length_utf8EncodeChar]
      rw [byteLength_cons, ih, ← List.singleton_append, String.ofList_append,
        String.utf8ByteSize_append, one]

theorem suffixTable_size (table : Array (Option (List Char))) (chars : List Char) :
    (suffixTable table chars).size = table.size + byteLength chars + 1 := by
  induction chars generalizing table with
  | nil => simp [suffixTable]
  | cons c chars ih =>
      have wide := c.utf8Size_pos
      simp only [suffixTable, ih, Array.size_append, Array.size_push, Array.size_replicate,
        byteLength_cons]
      omega

theorem suffixTable_old (table : Array (Option (List Char))) (chars : List Char) {index : Nat}
    (old : index < table.size) : (suffixTable table chars)[index]? = table[index]? := by
  induction chars generalizing table with
  | nil => rw [suffixTable, Array.getElem?_push_lt old, Array.getElem?_eq_getElem old]
  | cons c chars ih =>
      have kept : index < (table.push (some (c :: chars))).size := by
        rw [Array.size_push]
        exact Nat.lt_succ_of_lt old
      rw [suffixTable, ih, Array.getElem?_append_left kept, Array.getElem?_push_lt old,
        Array.getElem?_eq_getElem old]
      rw [Array.size_append]
      exact Nat.lt_add_right _ kept

theorem suffixTable_new (table : Array (Option (List Char))) (before after : List Char) :
    (suffixTable table (before ++ after))[table.size + byteLength before]? =
      some (some after) := by
  induction before generalizing table with
  | nil =>
      cases after with
      | nil => simp [suffixTable]
      | cons c chars =>
          have start : table.size < (table.push (some (c :: chars))).size := by simp
          rw [List.nil_append, byteLength_nil, Nat.add_zero, suffixTable, suffixTable_old,
            Array.getElem?_append_left start, Array.getElem?_push_size]
          rw [Array.size_append]
          exact Nat.lt_add_right _ start
  | cons c before ih =>
      have wide := c.utf8Size_pos
      have moved := ih (table.push (some (c :: (before ++ after))) ++
        Array.replicate (c.utf8Size - 1) none)
      have sized : table.size + 1 + (c.utf8Size - 1) + byteLength before =
          table.size + (c.utf8Size + byteLength before) := by omega
      rw [Array.size_append, Array.size_push, Array.size_replicate, sized] at moved
      rw [List.cons_append, suffixTable, byteLength_cons]
      exact moved

namespace Text

/-- The position splits the characters of the text in two. -/
def IsBoundary (text : Text) (position : Nat) : Prop :=
  ∃ before after, text = ofString (String.ofList (before ++ after)) ∧
    position = byteLength before

theorem size_ofString (source : String) : (ofString source).size = source.utf8ByteSize := by
  rw [size, ofString, suffixTable_size, byteLength_toList]
  simp

theorem isBoundary_zero (source : String) : (ofString source).IsBoundary 0 :=
  ⟨[], source.toList, by rw [List.nil_append, String.ofList_toList], rfl⟩

theorem IsBoundary.le_size {text : Text} {position : Nat}
    (boundary : text.IsBoundary position) : position ≤ text.size := by
  obtain ⟨before, after, rfl, rfl⟩ := boundary
  rw [size_ofString, ← byteLength_toList, String.toList_ofList, byteLength_append]
  exact Nat.le_add_right _ _

/-- From a boundary the characters onward are known, and taking some leads to a boundary. -/
theorem IsBoundary.rest {text : Text} {position : Nat} (boundary : text.IsBoundary position) :
    ∃ chars, text.rest position = some chars ∧ ∀ taken, taken <+: chars →
      text.IsBoundary (position + byteLength taken) := by
  obtain ⟨before, after, rfl, rfl⟩ := boundary
  refine ⟨after, ?_, ?_⟩
  · have found := suffixTable_new #[] before after
    rw [Array.size_empty, Nat.zero_add] at found
    rw [Text.rest, ofString, String.toList_ofList, found, Option.join_some]
  · rintro taken ⟨left, rfl⟩
    exact ⟨before ++ taken, left, by rw [List.append_assoc], (byteLength_append _ _).symm⟩

end Text

/-- What a matcher finds at a position stands there in the text. -/
def MatchesInPlace (matcher : Text → Nat → Option Captures) : Prop :=
  ∀ text position found chars, matcher text position = some found →
    text.rest position = some chars → found.text.toList <+: chars

inductive TextTerminal {α : Type} : Parser Text α → Prop where
  | literal (wanted : String) : TextTerminal (.literal wanted)
  | satisfying (accepts : Char → Bool) : TextTerminal (.satisfying accepts)
  | charIn (set : CharSet) : TextTerminal (.charIn set)
  | takeWhile (limit : CountLimit) (accepts : Char → Bool) :
      TextTerminal (.takeWhile limit accepts)
  | charsIn (set : CharSet) (limit : CountLimit) : TextTerminal (.charsIn set limit)
  | matching (description : String) {matcher : Text → Nat → Option Captures} :
      MatchesInPlace matcher → TextTerminal (.matching description matcher)
  | endOfInput : TextTerminal .endOfInput

/-- A probe that sees characters and covers some of them from the start. -/
theorem characters_reads {α : Type} {find : List Char → Option (Symbol α × Nat)}
    (covers : ∀ chars symbol length, find chars = some (symbol, length) →
      ∃ taken, taken <+: chars ∧ length = byteLength taken)
    {text : Text} {position : Nat} (boundary : text.IsBoundary position) :
    ∃ found, (match text.rest position with
      | none => .error .splitCharacter
      | some chars => .ok (find chars) : Except Fault (Option (Symbol α × Nat))) = .ok found ∧
      ∀ symbol length, found = some (symbol, length) → text.IsBoundary (position + length) := by
  obtain ⟨chars, rest, reaches⟩ := boundary.rest
  refine ⟨find chars, by rw [rest], ?_⟩
  intro symbol length found
  obtain ⟨taken, within, rfl⟩ := covers chars symbol length found
  exact reaches taken within

theorem oneCharacter_covers {α : Type} (accepts : Char → Bool) (chars : List Char)
    (symbol : Symbol α) (length : Nat)
    (found : (match chars with
      | [] => none
      | c :: _ => if accepts c then some (.character c, c.utf8Size) else none) =
        some (symbol, length)) :
    ∃ taken, taken <+: chars ∧ length = byteLength taken := by
  cases chars with
  | nil => cases found
  | cons c rest =>
      obtain ⟨-, shown⟩ := Option.ite_none_right_eq_some.mp found
      cases shown
      exact ⟨[c], ⟨rest, rfl⟩, by simp⟩

theorem runOf_prefix (limit : CountLimit) (accepts : Char → Bool) (chars : List Char) :
    Parser.runOf limit accepts chars <+: chars := by
  unfold Parser.runOf
  split
  · exact List.takeWhile_prefix _
  · exact (List.takeWhile_prefix _).trans (List.take_prefix _ _)

theorem characterRun_covers {α : Type} (limit : CountLimit) (accepts : Char → Bool)
    (chars : List Char) (symbol : Symbol α) (length : Nat)
    (found : (let run := Parser.runOf limit accepts chars
      if limit.admits run.length then some (.text (String.ofList run), byteLength run)
      else none) = some (symbol, length)) :
    ∃ taken, taken <+: chars ∧ length = byteLength taken := by
  obtain ⟨-, shown⟩ := Option.ite_none_right_eq_some.mp found
  cases shown
  exact ⟨_, runOf_prefix limit accepts chars, rfl⟩

theorem literal_covers {α : Type} (wanted : String) (chars : List Char) (symbol : Symbol α)
    (length : Nat)
    (found : (if wanted.toList.isPrefixOf chars then
      some (.text wanted, wanted.utf8ByteSize) else none) = some (symbol, length)) :
    ∃ taken, taken <+: chars ∧ length = byteLength taken := by
  obtain ⟨starts, shown⟩ := Option.ite_none_right_eq_some.mp found
  cases shown
  exact ⟨wanted.toList, List.isPrefixOf_iff_prefix.mp starts, (byteLength_toList wanted).symm⟩

theorem TextTerminal.reads {α : Type} {expectation : String} {probe : Probe Text α}
    (terminal : TextTerminal (.terminal expectation probe)) {text : Text} {position : Nat}
    (boundary : text.IsBoundary position) :
    ∃ found, probe text position = .ok found ∧ ∀ symbol length,
      found = some (symbol, length) → text.IsBoundary (position + length) := by
  generalize shape : Parser.terminal expectation probe = parser at terminal
  cases terminal with
  | literal wanted =>
      cases shape
      exact characters_reads (literal_covers wanted) boundary
  | satisfying accepts =>
      cases shape
      exact characters_reads (oneCharacter_covers accepts) boundary
  | charIn set =>
      cases shape
      exact characters_reads (oneCharacter_covers set.contains) boundary
  | takeWhile limit accepts =>
      cases shape
      exact characters_reads (characterRun_covers limit accepts) boundary
  | charsIn set limit =>
      cases shape
      exact characters_reads (characterRun_covers limit set.contains) boundary
  | @matching description matcher inPlace =>
      cases shape
      refine ⟨_, rfl, ?_⟩
      intro symbol length found
      obtain ⟨captured, given, shown⟩ := Option.map_eq_some_iff.mp found
      cases shown
      obtain ⟨chars, rest, reaches⟩ := boundary.rest
      rw [← byteLength_toList]
      exact reaches _ (inPlace text position captured chars given rest)
  | endOfInput =>
      cases shape
      refine ⟨_, rfl, ?_⟩
      intro symbol length found
      obtain ⟨-, shown⟩ := Option.ite_none_right_eq_some.mp found
      cases shown
      exact boundary

instance : Readable Text where
  IsBoundary := Text.IsBoundary
  IsTerminal expectation probe := TextTerminal (.terminal expectation probe)
  le_size := Text.IsBoundary.le_size
  reads := TextTerminal.reads

inductive TokenTerminal {τ α : Type} : Parser (Array τ) α → Prop where
  | oneToken (expectation : String) (select : τ → Option (Symbol α)) :
      TokenTerminal (.oneToken expectation select)
  | tokenRun [DecidableEq τ] (shown : τ → String) (symbol : τ → Symbol α) (wanted : List τ) :
      TokenTerminal (.tokenRun shown symbol wanted)
  | endOfInput : TokenTerminal .endOfInput

theorem TokenTerminal.reads {τ α : Type} {expectation : String} {probe : Probe (Array τ) α}
    (terminal : TokenTerminal (.terminal expectation probe)) {tokens : Array τ} {position : Nat}
    (boundary : position ≤ tokens.size) :
    ∃ found, probe tokens position = .ok found ∧ ∀ symbol length,
      found = some (symbol, length) → position + length ≤ tokens.size := by
  generalize shape : Parser.terminal expectation probe = parser at terminal
  cases terminal with
  | oneToken expectation select =>
      cases shape
      refine ⟨_, rfl, ?_⟩
      intro symbol length found
      obtain ⟨selected, given, shown⟩ := Option.map_eq_some_iff.mp found
      cases shown
      obtain ⟨token, there, _⟩ := Option.bind_eq_some_iff.mp given
      exact (Array.getElem?_eq_some_iff.mp there).choose
  | tokenRun shown symbol wanted =>
      cases shape
      refine ⟨_, rfl, ?_⟩
      intro symbols length found
      obtain ⟨run, shown⟩ := Option.ite_none_right_eq_some.mp found
      cases shown
      have sized := congrArg List.length run
      rw [Array.length_toList, Array.size_extract] at sized
      omega
  | endOfInput =>
      cases shape
      refine ⟨_, rfl, ?_⟩
      intro symbol length found
      obtain ⟨-, shown⟩ := Option.ite_none_right_eq_some.mp found
      cases shown
      exact boundary

instance {τ : Type} : Readable (Array τ) where
  IsBoundary tokens position := position ≤ tokens.size
  IsTerminal expectation probe := TokenTerminal (.terminal expectation probe)
  le_size := id
  reads := TokenTerminal.reads

end Packrat
