import Packrat.Proofs.JsonErrors
import Packrat.Text.LineColumn

/-!
# Lines and columns identify offsets

What stands before an offset are whole lines with their ends and the front of one more line.  The
line and the column of the offset count both, so they lead back to it, and they grow with it.  The
offsets on which rejected documents are blamed lie between characters and can be shown so.
-/

namespace Packrat

namespace Text

def linesOf (chars : List Char) : List (List Char) := chars.splitOn '\n'

def ended (lines : List (List Char)) : List Char := lines.flatMap (· ++ ['\n'])

/--
A line and a column, both counted from one, lead to the characters before them: those of the lines
before the line, with their ends, and those of the line before the column.
-/
inductive LeadsTo (chars : List Char) : Nat × Nat → List Char → Prop where
  | place {whole rest : List (List Char)} {front back : List Char} :
      linesOf chars = whole ++ (front ++ back) :: rest →
      LeadsTo chars (whole.length + 1, front.length + 1) (ended whole ++ front)

variable {chars front line more before after : List Char} {c : Char}

theorem linesOf_cons : linesOf (c :: chars) =
    if c = '\n' then [] :: linesOf chars else (linesOf chars).modifyHead (List.cons c) := by
  rw [linesOf, List.splitOn, List.splitOnP_cons_eq_if_modifyHead]
  simp only [beq_iff_eq]
  rfl

theorem exists_linesOf (chars : List Char) : ∃ line rest, linesOf chars = line :: rest :=
  List.exists_cons_of_ne_nil (List.splitOnP_ne_nil _ _)

/-- The end of a line separates the lines before it from those after it. -/
theorem linesOf_append : linesOf (front ++ '\n' :: more) = linesOf front ++ linesOf more :=
  List.splitOnP_append_cons front more (beq_self_eq_true '\n')

theorem length_linesOf (chars : List Char) : (linesOf chars).length = chars.count '\n' + 1 := by
  induction chars with
  | nil => rfl
  | cons c chars ih =>
      rw [linesOf_cons, List.count_cons]
      split
      · next same => rw [List.length_cons, ih, if_pos (beq_iff_eq.mpr same)]
      · next different =>
          rw [List.length_modifyHead, ih, if_neg (mt beq_iff_eq.mp different), Nat.add_zero]

theorem ended_linesOf (chars : List Char) : ended (linesOf chars) = chars ++ ['\n'] := by
  induction chars with
  | nil => rfl
  | cons c chars ih =>
      obtain ⟨line, rest, lines⟩ := exists_linesOf chars
      rw [linesOf_cons]
      split
      · next same =>
          rw [same, List.cons_append, ← ih]
          rfl
      · rw [List.cons_append, ← ih, lines]
        rfl

theorem linesOf_front (unended : '\n' ∉ line) (after : List Char) :
    ∃ more rest, linesOf (line ++ after) = (line ++ more) :: rest := by
  induction line with
  | nil => exact exists_linesOf after
  | cons c line ih =>
      rw [List.mem_cons, not_or] at unended
      obtain ⟨more, rest, lines⟩ := ih unended.2
      refine ⟨more, rest, ?_⟩
      rw [List.cons_append, linesOf_cons, if_neg (Ne.symm unended.1), lines]
      rfl

theorem not_mem_lastLine (chars : List Char) : '\n' ∉ lastLine chars := by
  intro member
  rw [lastLine, List.mem_reverse] at member
  have accepted := List.mem_takeWhile_imp member
  exact absurd accepted (by decide)

/-- What stands before the last line is empty or ends with the end of a line. -/
theorem lastLine_cases (chars : List Char) :
    chars = lastLine chars ∨ ∃ front, chars = front ++ '\n' :: lastLine chars := by
  have split := List.takeWhile_append_dropWhile (p := (· ≠ '\n')) (l := chars.reverse)
  have whole : chars = (chars.reverse.dropWhile (· ≠ '\n')).reverse ++ lastLine chars := by
    rw [lastLine, ← List.reverse_append, split, List.reverse_reverse]
  have starts := List.head?_dropWhile_not (· ≠ '\n') chars.reverse
  cases front : chars.reverse.dropWhile (· ≠ '\n') with
  | nil =>
      rw [front] at whole
      exact .inl whole
  | cons c rest =>
      rw [front] at whole starts
      obtain rfl : c = '\n' := by simpa using starts
      refine .inr ⟨rest.reverse, ?_⟩
      rwa [List.reverse_cons, List.append_assoc] at whole

theorem lastLine_append (unended : '\n' ∉ line) :
    lastLine (front ++ '\n' :: line) = line := by
  rw [lastLine, List.reverse_append, List.reverse_cons, List.append_assoc,
    takeWhile_append (fun c member => ?_) (by rintro c ⟨⟩; rfl), List.reverse_reverse]
  rw [List.mem_reverse] at member
  exact decide_eq_true fun same => unended (same ▸ member)

theorem lastLine_of_unended (unended : '\n' ∉ line) : lastLine line = line := by
  rw [lastLine, List.takeWhile_eq_self_iff.mpr, List.reverse_reverse]
  intro c member
  rw [List.mem_reverse] at member
  exact decide_eq_true fun same => unended (same ▸ member)

theorem lastLine_extended (unended : '\n' ∉ more) :
    lastLine (front ++ more) = lastLine front ++ more := by
  have both : '\n' ∉ lastLine front ++ more := by
    rw [List.mem_append, not_or]
    exact ⟨not_mem_lastLine front, unended⟩
  rcases lastLine_cases front with same | ⟨lines, same⟩
  · rw [← same] at both ⊢
    exact lastLine_of_unended both
  · rw [same, List.append_assoc, List.cons_append, lastLine_append both, ← same]

def placeBehind (before : List Char) : Nat × Nat :=
  (before.count '\n' + 1, (lastLine before).length + 1)

/-- The place behind characters leads back to them. -/
theorem placeBehind_leads (before after : List Char) :
    LeadsTo (before ++ after) (placeBehind before) before := by
  have unended := not_mem_lastLine before
  obtain ⟨more, rest, lines⟩ := linesOf_front unended after
  rcases lastLine_cases before with same | ⟨front, same⟩
  · rw [← same] at unended lines
    have leads : LeadsTo (before ++ after) _ (ended [] ++ before) := .place lines
    rw [placeBehind, lastLine_of_unended unended, List.count_eq_zero_of_not_mem unended]
    exact leads
  · have all : linesOf (before ++ after) = linesOf front ++ (lastLine before ++ more) :: rest := by
      rw [← lines, ← linesOf_append, ← List.cons_append, ← List.append_assoc, ← same]
    have leads := LeadsTo.place all
    have counted : before.count '\n' = front.count '\n' + 1 := by
      rw [same, List.count_append, List.count_cons_self,
        List.count_eq_zero_of_not_mem unended]
    have ends : ended (linesOf front) ++ lastLine before = before := by
      rw [ended_linesOf, List.append_assoc, List.singleton_append, ← same]
    rwa [length_linesOf, ← counted, ends] at leads

theorem placeBehind_lt (before : List Char) (nonempty : more ≠ []) :
    Prod.Lex (· < ·) (· < ·) (placeBehind before) (placeBehind (before ++ more)) := by
  by_cases ends : '\n' ∈ more
  · refine .left _ _ ?_
    have positive := List.count_pos_iff.mpr ends
    rw [List.count_append]
    omega
  · have longer := List.length_pos_iff.mpr nonempty
    rw [placeBehind, placeBehind, lastLine_extended ends, List.count_append,
      List.count_eq_zero_of_not_mem ends, Nat.add_zero, List.length_append]
    exact .right _ (by omega)

theorem suffixAt_append (before after : List Char) :
    suffixAt (before ++ after) (byteLength before) = some after := by
  induction before with
  | nil => rw [List.nil_append, byteLength_nil, suffixAt]
  | cons c before ih =>
      obtain ⟨offset, positive⟩ := Nat.exists_eq_succ_of_ne_zero
        (Nat.ne_of_gt (Nat.add_pos_left c.utf8Size_pos (byteLength before)))
      rw [List.cons_append, byteLength_cons, positive, suffixAt, ← Nat.succ_eq_add_one,
        ← positive, if_pos (Nat.le_add_right _ _), Nat.add_sub_cancel_left, ih]

theorem charactersBefore_append (before after : List Char) :
    charactersBefore (before ++ after) (byteLength before) = before := by
  rw [charactersBefore, suffixAt_append]
  dsimp only
  rw [List.length_append, Nat.add_sub_cancel, List.take_left]

/-- The place of an offset is the one behind the characters in front of it. -/
theorem lineColumn_eq {source before after : String} (split : source = before ++ after) :
    lineColumn source before.utf8ByteSize = placeBehind before.toList := by
  rw [lineColumn, split, String.toList_append, ← byteLength_toList, charactersBefore_append]
  rfl

theorem exists_more {source before after other rest : String} (split : source = before ++ after)
    (splitToo : source = other ++ rest) (less : before.utf8ByteSize < other.utf8ByteSize) :
    ∃ more, more ≠ [] ∧ other.toList = before.toList ++ more := by
  have same : before.toList ++ after.toList = other.toList ++ rest.toList := by
    rw [← String.toList_append, ← String.toList_append, ← split, ← splitToo]
  rw [← byteLength_toList, ← byteLength_toList] at less
  rcases List.append_eq_append_iff.mp same with ⟨more, longer, -⟩ | ⟨more, shorter, -⟩
  · refine ⟨more, ?_, longer⟩
    rintro rfl
    rw [longer, List.append_nil] at less
    exact Nat.lt_irrefl _ less
  · rw [shorter, byteLength_append] at less
    omega

theorem lineColumn_lt {source before after other rest : String} (split : source = before ++ after)
    (splitToo : source = other ++ rest) (less : before.utf8ByteSize < other.utf8ByteSize) :
    Prod.Lex (· < ·) (· < ·) (lineColumn source before.utf8ByteSize)
      (lineColumn source other.utf8ByteSize) := by
  obtain ⟨more, nonempty, longer⟩ := exists_more split splitToo less
  rw [lineColumn_eq split, lineColumn_eq splitToo, longer]
  exact placeBehind_lt before.toList nonempty

end Text

theorem Json.blamed_between {source : String} {steps : Nat} {error : ParseError}
    {final : State Grammar.Part} (rejected : parse steps source = .done (.error error) final) :
    ∃ farthest before after, error.farthest = some farthest ∧ source = before ++ after ∧
      farthest.position = before.utf8ByteSize := by
  obtain ⟨result, middle, done, same⟩ := Run.andThen_eq_done_iff.mp rejected
  cases result with
  | ok symbol => cases same
  | error other =>
      cases same
      have viable := Grammar.parseHistory_viable source steps
      obtain ⟨farthest, told, -, -, ⟨deed, member, -, attained⟩, -⟩ :=
        Setting.parse_farthest done fun deed member => (viable deed member).2
      obtain ⟨⟨before, ⟨rest, split, place⟩, -⟩, -⟩ := viable deed member
      refine ⟨farthest, String.ofList before, String.ofList rest, told, ?_, ?_⟩
      · rw [← String.ofList_append, ← split, String.ofList_toList]
      · rw [← attained, place, ← byteLength_toList, String.toList_ofList]

open Text in
/--
The line and the column of an offset between characters lead back to the text in front of it, and
a greater offset has a greater place.  The position that a rejected JSON document is blamed on is
such an offset.
-/
theorem lineColumn_identifies (source : String) :
    (∀ before after, source = before ++ after →
      LeadsTo source.toList (lineColumn source before.utf8ByteSize) before.toList) ∧
    (∀ before after other rest, source = before ++ after → source = other ++ rest →
      (lineColumn source before.utf8ByteSize = lineColumn source other.utf8ByteSize →
        before.utf8ByteSize = other.utf8ByteSize) ∧
      (before.utf8ByteSize < other.utf8ByteSize →
        Prod.Lex (· < ·) (· < ·) (lineColumn source before.utf8ByteSize)
          (lineColumn source other.utf8ByteSize))) ∧
    ∀ steps error final, Json.parse steps source = .done (.error error) final →
      ∃ farthest before after, error.farthest = some farthest ∧ source = before ++ after ∧
        farthest.position = before.utf8ByteSize ∧
        charactersBefore source.toList farthest.position = before.toList ∧
        suffixAt source.toList farthest.position = some after.toList := by
  refine ⟨?_, ?_, ?_⟩
  · intro before after split
    rw [lineColumn_eq split, split, String.toList_append]
    exact placeBehind_leads before.toList after.toList
  · intro before after other rest split splitToo
    refine ⟨fun same => ?_, lineColumn_lt split splitToo⟩
    have distinct {one two : Nat × Nat} (equal : one = two) :
        ¬ Prod.Lex (· < ·) (· < ·) one two := by
      simp only [Prod.lex_def, equal, Nat.lt_irrefl, and_false, or_self, not_false_eq_true]
    rcases Nat.lt_trichotomy before.utf8ByteSize other.utf8ByteSize with less | equal | greater
    · exact absurd (lineColumn_lt split splitToo less) (distinct same)
    · exact equal
    · exact absurd (lineColumn_lt splitToo split greater) (distinct same.symm)
  · intro steps error final rejected
    obtain ⟨farthest, before, after, told, split, position⟩ := Json.blamed_between rejected
    refine ⟨farthest, before, after, told, split, position, ?_⟩
    rw [position, split, String.toList_append, ← byteLength_toList]
    exact ⟨charactersBefore_append _ _, suffixAt_append _ _⟩

open Text in
/-- A document with more on the line behind its array is rejected. -/
theorem lineColumn_identifies_trailing :
    LeadsTo "[]\n,é".toList (lineColumn "[]\n,é" "[]\n,é".utf8ByteSize) "[]\n,é".toList ∧
      Prod.Lex (· < ·) (· < ·) (lineColumn "[]\n,é" "[]\n".utf8ByteSize)
        (lineColumn "[]\n,é" "[]\n,é".utf8ByteSize) ∧
      ∃ steps error final, Json.parse steps "[]\n,é" = .done (.error error) final ∧
        ∃ farthest before after, error.farthest = some farthest ∧ "[]\n,é" = before ++ after ∧
          farthest.position = before.utf8ByteSize ∧
          charactersBefore "[]\n,é".toList farthest.position = before.toList ∧
          suffixAt "[]\n,é".toList farthest.position = some after.toList := by
  obtain ⟨leads, grows, blamed⟩ := lineColumn_identifies "[]\n,é"
  have less : "[]\n".utf8ByteSize < "[]\n,é".utf8ByteSize := by decide
  have isValue : Json.IsValue ['[', ']'] (.array []) := .array [] nofun .nil Json.noBlanks
  obtain ⟨steps, error, final, rejected⟩ := Json.Grammar.rejects_trailing
    (show "[]\n,é".toList = ['[', ']', '\n'] ++ [',', 'é'] from rfl)
    (.value Json.noBlanks isValue (forall_mem_of_all (by decide)))
    (Json.Grammar.solid_cons (by decide)) (Json.Grammar.ended_cons (by decide))
    (List.cons_ne_nil _ _)
  exact ⟨leads _ "" rfl, (grows "[]\n" ",é" _ "" rfl rfl).2 less, steps, error, final, rejected,
    blamed steps error final rejected⟩

end Packrat
