import Packrat.Proofs.JsonNumbers
import Packrat.Proofs.JsonStrings

/-!
# Lists of the JSON grammar

Arrays and objects are lists between brackets.  What their items read and denote is a
parameter here.
-/

namespace Packrat.Json.Grammar

def bracketed (opening closing : String) (item : Rule) : Rule :=
  ((token (.literal opening)).ignoreThen (.list item (token (.literal ",")))).thenIgnore
    (token (.literal closing))

variable {text : String} {outer : Nonterminal} {place position stop : Nat} {item : Rule}
  {before blanks chars rest : List Char} {pairs : List (List Char × Value)} {close : Char}

/-- The item reads the characters after blanks, if a value may end where they end. -/
def ReadsItem (text : String) (outer : Nonterminal) (place : Nat) (item : Rule) (chars : List Char)
    (symbol : Value) : Prop :=
  ∀ position before rest, Blanks before → Ended rest →
    (Text.ofString text).Onward position (before ++ (chars ++ rest)) →
    (reading text).Matches (inside text outer place) item position symbol
      (position + byteLength (before ++ chars))

theorem ended_cons (ends : close ∈ [' ', '\t', '\n', '\r', ',', ']', '\x7d']) :
    Ended (close :: rest) := by
  intro c first
  cases first
  exact ends

theorem ended_blanks (blank : Blanks before) (ended : Ended rest) : Ended (before ++ rest) := by
  intro c first
  cases before with
  | nil => exact ended c first
  | cons d before =>
      cases first
      exact List.mem_append_left [',', ']', '\x7d'] (blank c List.mem_cons_self)

theorem ended_commas {items : List (List Char)} (commas : Commas items chars) (ended : Ended rest) :
    Ended (chars ++ rest) := by
  cases commas with
  | nil => exact ended
  | cons blank _ _ =>
      rw [List.append_assoc]
      exact ended_blanks blank (ended_cons (by decide))

/-- Commas and items are read one after the other. -/
theorem commas_chain (different : .whitespace ≠ outer)
    (reads : ∀ pair ∈ pairs, ReadsItem text outer place item pair.1 pair.2)
    (commas : Commas (pairs.map Prod.fst) chars) (ended : Ended rest)
    (here : (Text.ofString text).Onward position (chars ++ rest)) :
    Setting.Chain ((reading text).Advances (inside text outer place)
      ((token (.literal ",")).ignoreThen item)) position (pairs.map Prod.snd)
      (position + byteLength chars) := by
  induction pairs generalizing chars position with
  | nil =>
      cases commas
      exact .nil _
  | cons pair pairs ih =>
      obtain ⟨spelled, symbol⟩ := pair
      cases commas with
      | @cons before after _ more _ blank blankAfter commas =>
          have split : before ++ ',' :: (after ++ (spelled ++ more)) ++ rest =
              before ++ (",".toList ++ (after ++ (spelled ++ (more ++ rest)))) := by
            simp only [List.append_assoc, List.cons_append]
            rfl
          rw [split] at here
          have comma : (reading text).Matches (inside text outer place) (token (.literal ","))
              position (.text ",") (position + byteLength (before ++ ",".toList)) :=
            sign_matches "," different blank (solid_cons (by decide)) here
          rw [← List.append_assoc] at here
          have one := reads _ List.mem_cons_self _ _ _ blankAfter (ended_commas commas ended)
            here.append
          have both : (reading text).Matches (inside text outer place)
              ((token (.literal ",")).ignoreThen item) position symbol
              (position + byteLength ((before ++ ",".toList) ++ (after ++ spelled))) :=
            both_matches comma one
          have there : (Text.ofString text).Onward
              (position + byteLength ((before ++ ",".toList) ++ (after ++ spelled)))
              (more ++ rest) := by
            rw [← List.append_assoc after, ← List.append_assoc] at here
            exact here.append
          have longer : 0 < byteLength ((before ++ ",".toList) ++ (after ++ spelled)) :=
            byteLength_pos (by simp)
          have chain := ih (fun pair member => reads pair (List.mem_cons_of_mem _ member)) commas
            there
          rw [Nat.add_assoc, ← byteLength_append] at chain
          have whole : (before ++ ",".toList) ++ (after ++ spelled) ++ more =
              before ++ ',' :: (after ++ (spelled ++ more)) := by
            simp only [List.append_assoc]
            rfl
          rw [whole] at chain
          exact .cons ⟨both, Nat.lt_add_of_pos_right longer⟩ chain

theorem closing_bracket (closes : close ∈ [']', '\x7d']) :
    close ∈ [' ', '\t', '\n', '\r', ',', ']', '\x7d'] ∧ close ∉ [' ', '\t', '\n', '\r'] ∧
      close ≠ ',' := by
  have all : ∀ c ∈ [']', '\x7d'], c ∈ [' ', '\t', '\n', '\r', ',', ']', '\x7d'] ∧
      c ∉ [' ', '\t', '\n', '\r'] ∧ c ≠ ',' := forall_mem_of_all (by decide)
  exact all close closes

/-- A list is read up to the blanks before its closing bracket. -/
theorem list_matches (different : .whitespace ≠ outer)
    (reads : ∀ pair ∈ pairs, ReadsItem text outer place item pair.1 pair.2)
    (listed : Listed (pairs.map Prod.fst) chars) (blank : Blanks blanks)
    (closes : close ∈ [']', '\x7d'])
    (misses : ∀ position, (Text.ofString text).Onward position (blanks ++ close :: rest) →
      (reading text).Misses (inside text outer place) item position)
    (here : (Text.ofString text).Onward position (chars ++ (blanks ++ close :: rest))) :
    (reading text).Matches (inside text outer place) (item.list (token (.literal ","))) position
      (.list (pairs.map Prod.snd)) (position + byteLength chars) := by
  cases pairs with
  | nil =>
      cases listed
      exact .list_nil (misses position here)
  | cons pair pairs =>
      obtain ⟨spelled, symbol⟩ := pair
      cases listed with
      | @cons before _ more _ blankBefore commas =>
          obtain ⟨ends, solid, noComma⟩ := closing_bracket closes
          have ended : Ended (blanks ++ close :: rest) := ended_blanks blank (ended_cons ends)
          rw [List.append_assoc, List.append_assoc] at here
          have one := reads _ List.mem_cons_self _ _ _ blankBefore (ended_commas commas ended) here
          rw [← List.append_assoc] at here
          have chain := commas_chain different
            (fun pair member => reads pair (List.mem_cons_of_mem _ member)) commas ended here.append
          have noMore : (reading text).Misses (inside text outer place) (token (.literal ","))
              (position + byteLength (before ++ spelled) + byteLength more) :=
            sign_misses "," rfl different blank (solid_cons solid)
              (fun same => noComma (Option.some.inj same)) here.append.append
          have whole := Setting.Matches.list_cons one chain (.both_first noMore)
          rwa [Nat.add_assoc, ← byteLength_append, List.append_assoc] at whole

theorem bracketed_matches (opening closing : String) {first : Char}
    (opens : opening.toList = [first])
    (solidFirst : first ∉ [' ', '\t', '\n', '\r']) (ends : closing.toList = [close])
    (closes : close ∈ [']', '\x7d']) (different : .whitespace ≠ outer)
    (reads : ∀ pair ∈ pairs, ReadsItem text outer place item pair.1 pair.2)
    (listed : Listed (pairs.map Prod.fst) chars) (blank : Blanks blanks)
    (misses : ∀ position, (Text.ofString text).Onward position (blanks ++ close :: rest) →
      (reading text).Misses (inside text outer place) item position)
    (blankBefore : Blanks before)
    (here : (Text.ofString text).Onward position
      (before ++ (first :: (chars ++ (blanks ++ [close])) ++ rest))) :
    (reading text).Matches (inside text outer place) (bracketed opening closing item) position
      (.list (pairs.map Prod.snd))
      (position + byteLength (before ++ first :: (chars ++ (blanks ++ [close])))) := by
  obtain ⟨-, solid, -⟩ := closing_bracket closes
  have split : before ++ (first :: (chars ++ (blanks ++ [close])) ++ rest) =
      before ++ (opening.toList ++ (chars ++ (blanks ++ close :: rest))) := by
    rw [opens]
    simp only [List.append_assoc, List.cons_append, List.nil_append]
  rw [split] at here
  have solidOpening : Solid (opening.toList ++ (chars ++ (blanks ++ close :: rest))) := by
    rw [opens]
    exact solid_cons solidFirst
  have opened : (reading text).Matches (inside text outer place) (token (.literal opening)) position
      (.text opening) (position + byteLength (before ++ opening.toList)) :=
    sign_matches opening different blankBefore solidOpening here
  rw [← List.append_assoc] at here
  have list := list_matches different reads listed blank closes misses here.append
  have there := here.append.append
  have split : blanks ++ close :: rest = blanks ++ (closing.toList ++ rest) := by
    rw [ends]
    rfl
  rw [split] at there
  have solidClosing : Solid (closing.toList ++ rest) := by
    rw [ends]
    exact solid_cons solid
  have closed : (reading text).Matches (inside text outer place) (token (.literal closing))
      (position + byteLength (before ++ opening.toList) + byteLength chars) (.text closing)
      (position + byteLength (before ++ opening.toList) + byteLength chars +
        byteLength (blanks ++ closing.toList)) :=
    sign_matches closing different blank solidClosing there
  have front : (reading text).Matches (inside text outer place)
      ((token (.literal opening)).ignoreThen (.list item (token (.literal ",")))) position
      (.list (pairs.map Prod.snd))
      (position + byteLength ((before ++ opening.toList) ++ chars)) := both_matches opened list
  rw [Nat.add_assoc position, ← byteLength_append] at closed
  have whole : (reading text).Matches (inside text outer place) (bracketed opening closing item)
      position (.list (pairs.map Prod.snd))
      (position + byteLength (((before ++ opening.toList) ++ chars) ++
        (blanks ++ closing.toList))) := both_matches front closed
  rw [opens, ends, List.append_assoc, List.append_assoc] at whole
  exact whole

variable {denotes : List Char → Value → Prop} {symbols : List Value} {matched : Match Value}

/-- What the item matches denotes its symbol after blanks. -/
def TellsItem (text : String) (item : Rule) (denotes : List Char → Value → Prop) : Prop :=
  ∀ position rest matched, (Text.ofString text).Onward position rest →
    (reading text).Answers (explaining text) item position (.ok matched) →
    Explains text (Padded denotes) position matched

/-- What is matched after a first item are commas and items. -/
theorem commas_answers (tells : TellsItem text item denotes)
    (chain : Setting.Chain ((reading text).Ended (explaining text)
      ((token (.literal ",")).ignoreThen item)) position symbols stop)
    (here : (Text.ofString text).Onward position rest) :
    ∃ (pairs : List (List Char × Value)) (chars : List Char),
      (∀ pair ∈ pairs, denotes pair.1 pair.2) ∧ Commas (pairs.map Prod.fst) chars ∧
      (Text.ofString text).Between position chars stop ∧ symbols = pairs.map Prod.snd := by
  induction chain generalizing rest with
  | nil position => exact ⟨[], [], nofun, .nil, .nil here, rfl⟩
  | cons one _ ih =>
      obtain ⟨matched, answers, rfl, rfl⟩ := one
      obtain ⟨sign, value, answersSign, answersItem, same, stops⟩ := answers.of_both
      obtain ⟨before, blank, comma⟩ := sign_answers "," here answersSign
      obtain ⟨after, -, there⟩ := comma.onward
      obtain ⟨_, covers, between, chars, blankBetween, denoted, rfl⟩ :=
        tells _ _ _ there answersItem
      rw [← stops] at covers
      obtain ⟨last, -, thereToo⟩ := covers.onward
      obtain ⟨pairs, more, all, commas, coversMore, rfl⟩ := ih thereToo
      refine ⟨(chars, value.symbol) :: pairs, before ++ ',' :: (between ++ (chars ++ more)), ?_,
        .cons blank blankBetween commas, ?_, by rw [same]; rfl⟩
      · intro pair member
        rcases List.mem_cons.mp member with rfl | member
        · exact denoted
        · exact all pair member
      · have whole := comma.append (covers.append coversMore)
        rw [List.append_assoc, List.append_assoc] at whole
        exact whole

theorem list_answers (tells : TellsItem text item denotes)
    (here : (Text.ofString text).Onward position rest)
    (answers : (reading text).Answers (explaining text) (item.list (token (.literal ","))) position
      (.ok matched)) :
    ∃ (pairs : List (List Char × Value)) (chars : List Char),
      (∀ pair ∈ pairs, denotes pair.1 pair.2) ∧ Listed (pairs.map Prod.fst) chars ∧
      (Text.ofString text).Between position chars matched.span.stop ∧
      matched.symbol = .list (pairs.map Prod.snd) := by
  rcases Setting.Answers.of_list answers with ⟨same, stops⟩ | ⟨one, symbols, first, same, chain⟩
  · refine ⟨[], [], nofun, .nil, ?_, same⟩
    rw [stops]
    exact .nil here
  · obtain ⟨_, covers, before, chars, blank, denoted, rfl⟩ := tells _ _ _ here first
    obtain ⟨after, -, there⟩ := covers.onward
    obtain ⟨pairs, more, all, commas, coversMore, rfl⟩ := commas_answers tells chain there
    refine ⟨(chars, one.symbol) :: pairs, before ++ (chars ++ more), ?_, .cons blank commas, ?_,
      same⟩
    · intro pair member
      rcases List.mem_cons.mp member with rfl | member
      · exact denoted
      · exact all pair member
    · have whole := covers.append coversMore
      rwa [List.append_assoc] at whole

theorem bracketed_answers {opening closing : String} (tells : TellsItem text item denotes)
    (here : (Text.ofString text).Onward position rest)
    (answers : (reading text).Answers (explaining text) (bracketed opening closing item) position
      (.ok matched)) :
    ∃ (before : List Char) (pairs : List (List Char × Value)) (chars blanks : List Char),
      Blanks before ∧ (∀ pair ∈ pairs, denotes pair.1 pair.2) ∧
      Listed (pairs.map Prod.fst) chars ∧ Blanks blanks ∧
      (Text.ofString text).Between position
        (before ++ (opening.toList ++ (chars ++ (blanks ++ closing.toList)))) matched.span.stop ∧
      matched.symbol = .list (pairs.map Prod.snd) := by
  obtain ⟨front, last, answersFront, answersLast, same, stops⟩ := answers.of_both
  obtain ⟨sign, list, answersSign, answersList, sameFront, stopsFront⟩ := answersFront.of_both
  obtain ⟨before, blankBefore, opened⟩ := sign_answers opening here answersSign
  obtain ⟨after, -, there⟩ := opened.onward
  obtain ⟨pairs, chars, all, listed, covers, list_eq⟩ := list_answers tells there answersList
  rw [← stopsFront] at covers
  obtain ⟨more, -, thereToo⟩ := covers.onward
  obtain ⟨blanks, blank, closed⟩ := sign_answers closing thereToo answersLast
  rw [← stops] at closed
  refine ⟨before, pairs, chars, blanks, blankBefore, all, listed, blank, ?_,
    same.trans (sameFront.trans list_eq)⟩
  have whole := opened.append (covers.append closed)
  rwa [List.append_assoc] at whole

end Packrat.Json.Grammar
