import Mathlib.Data.List.TakeWhile
import Packrat.Proofs.Boundary
import Packrat.Proofs.CharacterSets
import Packrat.Proofs.Reading

/-!
# What terminals read in texts

From a position where characters stand, a terminal reads some of them, and the others
stand at the position where it stops.  What it reads is given by the characters alone.
-/

namespace Packrat

theorem byteLength_pos {chars : List Char} (present : chars ≠ []) : 0 < byteLength chars := by
  cases chars with
  | nil => exact absurd rfl present
  | cons c rest => exact Nat.add_pos_left c.utf8Size_pos _

theorem suffixTable_found (table : Array (Option (List Char))) {chars after : List Char}
    {index : Nat} (new : table.size ≤ index)
    (found : (suffixTable table chars)[index]? = some (some after)) :
    ∃ before, chars = before ++ after ∧ index = table.size + byteLength before := by
  induction chars generalizing table with
  | nil =>
      rw [suffixTable, Array.getElem?_push] at found
      split at found
      · next here =>
          cases found
          exact ⟨[], rfl, here⟩
      · next elsewhere =>
          rw [Array.getElem?_eq_none new] at found
          cases found
  | cons c chars ih =>
      let longer := table.push (some (c :: chars)) ++ Array.replicate (c.utf8Size - 1) none
      have wide := c.utf8Size_pos
      have size : longer.size = table.size + c.utf8Size := by
        simp only [longer, Array.size_append, Array.size_push, Array.size_replicate]
        omega
      change (suffixTable longer chars)[index]? = _ at found
      rcases Nat.lt_or_ge index longer.size with old | beyond
      · rw [suffixTable_old longer chars old, Array.getElem?_append] at found
        split at found
        · next inside =>
            rw [Array.size_push] at inside
            have here : index = table.size := by omega
            rw [here, Array.getElem?_push_size] at found
            cases found
            exact ⟨[], rfl, here⟩
        · rw [Array.getElem?_replicate] at found
          split at found <;> cases found
      · obtain ⟨before, rfl, rfl⟩ := ih longer beyond found
        exact ⟨c :: before, rfl, by rw [size, byteLength_cons, Nat.add_assoc]⟩

namespace Text

/-- The characters of the text from a position onward. -/
def Onward (text : Text) (position : Nat) (chars : List Char) : Prop :=
  ∃ before, text = ofString (String.ofList (before ++ chars)) ∧ position = byteLength before

def Between (text : Text) (position : Nat) (chars : List Char) (stop : Nat) : Prop :=
  ∃ rest, text.Onward position (chars ++ rest) ∧ stop = position + byteLength chars

variable {text : Text} {position middle stop : Nat} {chars more rest : List Char}

theorem onward_zero (source : String) : (ofString source).Onward 0 source.toList :=
  ⟨[], by rw [List.nil_append, String.ofList_toList], rfl⟩

theorem Onward.rest_eq (here : text.Onward position chars) : text.rest position = some chars := by
  obtain ⟨before, rfl, rfl⟩ := here
  have found := suffixTable_new #[] before chars
  rw [Array.size_empty, Nat.zero_add] at found
  rw [Text.rest, ofString, String.toList_ofList, found, Option.join_some]

/-- Characters that are found at a position stand there. -/
theorem onward_of_rest {source : String} {position : Nat} {chars : List Char}
    (found : (ofString source).rest position = some chars) :
    (ofString source).Onward position chars := by
  obtain ⟨before, split, here⟩ :=
    suffixTable_found #[] (Nat.zero_le position) (Option.join_eq_some_iff.mp found)
  refine ⟨before, ?_, here.trans (Nat.zero_add _)⟩
  rw [← split, String.ofList_toList]

theorem Onward.append (here : text.Onward position (chars ++ rest)) :
    text.Onward (position + byteLength chars) rest := by
  obtain ⟨before, rfl, rfl⟩ := here
  exact ⟨before ++ chars, by rw [List.append_assoc], (byteLength_append _ _).symm⟩

theorem Onward.tail {c : Char} (here : text.Onward position (c :: rest)) :
    text.Onward (position + byteLength [c]) rest := by
  have split : text.Onward position ([c] ++ rest) := here
  exact split.append

/-- The characters from a position onward reach to the end of the text. -/
theorem Onward.size_eq (here : text.Onward position chars) :
    Input.size text = position + byteLength chars := by
  obtain ⟨before, rfl, rfl⟩ := here
  change (ofString _).size = _
  rw [size_ofString, ← byteLength_toList, String.toList_ofList, byteLength_append]

theorem Onward.unique (here : text.Onward position chars) (hereToo : text.Onward position more) :
    chars = more :=
  Option.some.inj (here.rest_eq.symm.trans hereToo.rest_eq)

theorem Between.nil (here : text.Onward position chars) : text.Between position [] position :=
  ⟨chars, here, rfl⟩

theorem Between.append (one : text.Between position chars middle)
    (two : text.Between middle more stop) : text.Between position (chars ++ more) stop := by
  obtain ⟨rest, here, rfl⟩ := one
  obtain ⟨restToo, there, rfl⟩ := two
  rw [here.append.unique there] at here
  refine ⟨restToo, by rwa [List.append_assoc], ?_⟩
  rw [byteLength_append, Nat.add_assoc]

theorem Between.onward (between : text.Between position chars stop) :
    ∃ rest, text.Onward position (chars ++ rest) ∧ text.Onward stop rest := by
  obtain ⟨rest, here, rfl⟩ := between
  exact ⟨rest, here, here.append⟩

end Text

variable {α : Type} {setting : Setting Text α} {allowed : Answering Text α} {position : Nat}
  {chars rest run : List Char} {c : Char} {matched : Match (Symbol α)} {set : CharSet}

theorem characters_matches {expectation : String} {find : List Char → Option (Symbol α × Nat)}
    {symbol : Symbol α} (here : setting.input.Onward position (chars ++ rest))
    (found : find (chars ++ rest) = some (symbol, byteLength chars)) :
    setting.Matches allowed (.characters expectation find) position symbol
      (position + byteLength chars) := by
  refine .terminal ?_ ?_
  · rw [here.rest_eq]
    exact congrArg Except.ok found
  · rw [here.size_eq, byteLength_append]
    omega

theorem characters_misses {expectation : String} {find : List Char → Option (Symbol α × Nat)}
    (here : setting.input.Onward position chars) (missed : find chars = none) :
    setting.Misses allowed (.characters expectation find) position := by
  refine .terminal ?_
  rw [here.rest_eq]
  exact congrArg Except.ok missed

theorem characters_answers {expectation : String} {find : List Char → Option (Symbol α × Nat)}
    (here : setting.input.Onward position chars)
    (answers : setting.Answers allowed (.characters expectation find) position (.ok matched)) :
    ∃ length, find chars = some (matched.symbol, length) ∧
      matched.span.stop = position + length := by
  obtain ⟨length, found, stops⟩ := Setting.Answers.of_terminal answers
  rw [here.rest_eq] at found
  exact ⟨length, Except.ok.inj found, stops⟩

theorem both_matches {first second : Parser Text α} {one other : Symbol α} {front back : List Char}
    {combine : Symbol α → Symbol α → Symbol α}
    (reads : setting.Matches allowed first position one (position + byteLength front))
    (readsToo : setting.Matches allowed second (position + byteLength front) other
      (position + byteLength front + byteLength back)) :
    setting.Matches allowed (.both first second combine) position (combine one other)
      (position + byteLength (front ++ back)) := by
  rw [byteLength_append, ← Nat.add_assoc]
  exact .both reads readsToo

theorem literal_matches (wanted : String)
    (here : setting.input.Onward position (wanted.toList ++ rest)) :
    setting.Matches allowed (.literal wanted) position (.text wanted)
      (position + byteLength wanted.toList) := by
  refine characters_matches here ?_
  rw [if_pos (List.isPrefixOf_iff_prefix.mpr (List.prefix_append _ _)), byteLength_toList]

theorem literal_misses {wanted : String} (here : setting.input.Onward position chars)
    (other : ¬ wanted.toList <+: chars) :
    setting.Misses allowed (.literal wanted) position :=
  characters_misses here (if_neg fun starts => other (List.isPrefixOf_iff_prefix.mp starts))

theorem literal_answers {wanted : String} (here : setting.input.Onward position chars)
    (answers : setting.Answers allowed (.literal wanted) position (.ok matched)) :
    setting.input.Between position wanted.toList matched.span.stop ∧
      matched.symbol = .text wanted := by
  obtain ⟨length, found, stops⟩ := characters_answers here answers
  obtain ⟨starts, shown⟩ := Option.ite_none_right_eq_some.mp found
  obtain ⟨rest, rfl⟩ := List.isPrefixOf_iff_prefix.mp starts
  obtain ⟨same, rfl⟩ := Prod.mk.inj (Option.some.inj shown)
  exact ⟨⟨rest, here, by rw [stops, byteLength_toList]⟩, same.symm⟩

theorem charIn_matches (here : setting.input.Onward position (c :: rest))
    (contains : set.contains c = true) :
    setting.Matches allowed (.charIn set) position (.character c) (position + byteLength [c]) := by
  have here : setting.input.Onward position ([c] ++ rest) := here
  exact characters_matches here (if_pos contains)

theorem charIn_misses (here : setting.input.Onward position chars)
    (other : ∀ c, chars.head? = some c → set.contains c = false) :
    setting.Misses allowed (.charIn set) position := by
  refine characters_misses here ?_
  cases chars with
  | nil => rfl
  | cons c rest => exact if_neg (by rw [other c rfl]; exact Bool.false_ne_true)

theorem charIn_answers (here : setting.input.Onward position chars)
    (answers : setting.Answers allowed (.charIn set) position (.ok matched)) :
    ∃ c, setting.input.Between position [c] matched.span.stop ∧ set.contains c = true ∧
      matched.symbol = .character c := by
  obtain ⟨length, found, stops⟩ := characters_answers here answers
  cases chars with
  | nil => cases found
  | cons c rest =>
      obtain ⟨contains, shown⟩ := Option.ite_none_right_eq_some.mp found
      obtain ⟨same, rfl⟩ := Prod.mk.inj (Option.some.inj shown)
      exact ⟨c, ⟨rest, here, stops⟩, contains, same.symm⟩

/-- What can be decided of all characters in a list holds of each of them. -/
theorem forall_mem_of_all {holds : Char → Prop} [DecidablePred holds] {chars : List Char}
    (all : chars.all (fun c => decide (holds c)) = true) : ∀ c ∈ chars, holds c :=
  fun c member => of_decide_eq_true (List.all_eq_true.mp all c member)

theorem forall_ascii {holds : Char → Prop} (c : Char) (small : c.toNat < 128)
    (all : ∀ point < 128, holds (Char.ofNat point)) : holds c := by
  have here := all c.toNat small
  rwa [Char.ofNat_toNat] at here

def IsDigit (c : Char) : Prop := '0' ≤ c ∧ c ≤ '9'

instance : DecidablePred IsDigit := fun _ => inferInstanceAs (Decidable (_ ∧ _))

theorem contains_digits (c : Char) : (CharSet.range '0' '9').contains c = true ↔ IsDigit c :=
  CharSet.contains_range '0' '9' c

theorem CountLimit.admits_atLeast {least count : Nat} :
    (CountLimit.atLeast least).admits count = true ↔ least ≤ count := by
  simp only [admits, CountLimit.least, greatest, Option.all_none, Bool.and_true]
  exact decide_eq_true_iff

theorem takeWhile_append {accepts : Char → Bool} (all : ∀ c ∈ run, accepts c = true)
    (other : ∀ c, rest.head? = some c → accepts c = false) :
    (run ++ rest).takeWhile accepts = run := by
  rw [List.takeWhile_append_of_pos all]
  cases rest with
  | nil => rw [List.takeWhile_nil, List.append_nil]
  | cons c rest =>
      rw [List.takeWhile_cons_of_neg (by rw [other c rfl]; exact Bool.false_ne_true),
        List.append_nil]

theorem charsIn_matches {least : Nat} (here : setting.input.Onward position (run ++ rest))
    (all : ∀ c ∈ run, set.contains c = true)
    (other : ∀ c, rest.head? = some c → set.contains c = false) (enough : least ≤ run.length) :
    setting.Matches allowed (.charsIn set (.atLeast least)) position (.text (String.ofList run))
      (position + byteLength run) := by
  refine characters_matches here ?_
  have taken : Parser.runOf (.atLeast least) set.contains (run ++ rest) = run :=
    takeWhile_append all other
  simp only [taken]
  exact if_pos (CountLimit.admits_atLeast.mpr enough)

theorem charsIn_misses (here : setting.input.Onward position chars)
    (other : ∀ c, chars.head? = some c → set.contains c = false) :
    setting.Misses allowed (.charsIn set (.atLeast 1)) position := by
  refine characters_misses here ?_
  have taken : Parser.runOf (.atLeast 1) set.contains chars = [] := by
    have none : ∀ c ∈ ([] : List Char), set.contains c = true := nofun
    exact takeWhile_append none other
  simp only [taken]
  rfl

theorem charsIn_answers {least : Nat} (here : setting.input.Onward position chars)
    (answers : setting.Answers allowed (.charsIn set (.atLeast least)) position (.ok matched)) :
    ∃ run, setting.input.Between position run matched.span.stop ∧
      (∀ c ∈ run, set.contains c = true) ∧ least ≤ run.length ∧
      matched.symbol = .text (String.ofList run) := by
  obtain ⟨length, found, stops⟩ := characters_answers here answers
  obtain ⟨admits, shown⟩ := Option.ite_none_right_eq_some.mp found
  obtain ⟨same, rfl⟩ := Prod.mk.inj (Option.some.inj shown)
  obtain ⟨rest, split⟩ := runOf_prefix (.atLeast least) set.contains chars
  rw [← split] at here
  refine ⟨_, ⟨rest, here, stops⟩, fun c member => ?_, CountLimit.admits_atLeast.mp admits,
    same.symm⟩
  exact List.mem_takeWhile_imp member

end Packrat
