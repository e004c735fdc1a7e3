import Mathlib.Order.Nat
import Packrat.CharSet.Basic

/-!
# What character sets contain

The ranges of a set ascend and do not touch one another, so at most one of them covers a
code point and halving finds it.  A set therefore contains exactly the characters that it
was built from, whichever way it was built.
-/

namespace Packrat.CharSet

def Cover (ranges : List CodeRange) (point : Nat) : Prop :=
  ∃ range ∈ ranges, range.Covers point

/-- Ranges that ascend, none of which is reversed or touches another one. -/
structure Ascending (ranges : List CodeRange) : Prop where
  proper : ∀ range ∈ ranges, range.first ≤ range.last
  apart : ranges.Pairwise fun low high => low.last + 1 < high.first

variable {ranges merged rest : List CodeRange} {range top : CodeRange} {point : Nat}

@[simp]
theorem cover_nil : ¬ Cover [] point := by
  rintro ⟨range, member, -⟩
  cases member

@[simp]
theorem cover_cons : Cover (range :: rest) point ↔ range.Covers point ∨ Cover rest point := by
  simp only [Cover, List.mem_cons, exists_eq_or_imp]

theorem cover_reverse : Cover ranges.reverse point ↔ Cover ranges point := by
  simp only [Cover, List.mem_reverse]

theorem cover_append {more : List CodeRange} :
    Cover (ranges ++ more) point ↔ Cover ranges point ∨ Cover more point := by
  simp only [Cover, List.mem_append, or_and_right, exists_or]

namespace Ascending

theorem tail (ascending : Ascending (range :: rest)) : Ascending rest where
  proper other member := ascending.proper other (List.mem_cons_of_mem range member)
  apart := (List.pairwise_cons.mp ascending.apart).2

/-- Between the first range and the points of the others there is a gap. -/
theorem beyond (ascending : Ascending (range :: rest)) (covered : Cover rest point) :
    range.last + 1 < point := by
  obtain ⟨other, member, low, -⟩ := covered
  exact ((List.pairwise_cons.mp ascending.apart).1 other member).trans_le low

end Ascending

theorem point_le (c : Char) : c.toNat ≤ maxPoint := by
  rcases c.valid with low | ⟨-, high⟩
  · exact Nat.le_of_lt_succ (Nat.lt_trans low (by decide))
  · exact Nat.le_of_lt_succ high

theorem ascending_reverse_cons : Ascending (top :: rest).reverse ↔
    top.first ≤ top.last ∧ (∀ range ∈ rest, range.last + 1 < top.first) ∧
      Ascending rest.reverse := by
  constructor
  · rintro ⟨proper, apart⟩
    rw [List.pairwise_reverse, List.pairwise_cons] at apart
    simp only [List.mem_reverse, List.mem_cons, forall_eq_or_imp] at proper
    exact ⟨proper.1, apart.1, fun range member => proper.2 range (List.mem_reverse.mp member),
      List.pairwise_reverse.mpr apart.2⟩
  · rintro ⟨proper, above, ascending⟩
    refine ⟨?_, List.pairwise_reverse.mpr
      (List.pairwise_cons.mpr ⟨above, List.pairwise_reverse.mp ascending.apart⟩)⟩
    simp only [List.mem_reverse, List.mem_cons, forall_eq_or_imp]
    exact ⟨proper, fun range member => ascending.proper range (List.mem_reverse.mpr member)⟩

/-- Merging one more range keeps the order and adds what the range covers. -/
theorem absorb_spec (ascending : Ascending merged.reverse) (proper : range.first ≤ range.last)
    (later : ∀ other ∈ merged, other.first ≤ range.first) :
    Ascending (absorb merged range).reverse ∧
      (∀ other ∈ absorb merged range, other.first ≤ range.first) ∧
      ∀ point, Cover (absorb merged range) point ↔ Cover merged point ∨ range.Covers point := by
  cases merged with
  | nil =>
      refine ⟨⟨?_, ?_⟩, ?_, ?_⟩
      · simpa [absorb] using proper
      · simp [absorb]
      · simp [absorb]
      · simp [absorb]
  | cons top rest =>
      obtain ⟨topProper, above, ascending⟩ := ascending_reverse_cons.mp ascending
      have before := later top List.mem_cons_self
      by_cases touching : range.first ≤ top.last + 1
      · rw [absorb, if_pos touching]
        refine ⟨ascending_reverse_cons.mpr ⟨?_, above, ascending⟩, ?_, fun point => ?_⟩
        · exact topProper.trans (Nat.le_max_left _ _)
        · simp only [List.mem_cons, forall_eq_or_imp] at later ⊢
          exact later
        · simp only [cover_cons, CodeRange.Covers]
          constructor
          · rintro (⟨low, high⟩ | covered)
            · by_cases inTop : point ≤ top.last
              · exact .inl (.inl ⟨low, inTop⟩)
              · exact .inr ⟨by omega, by omega⟩
            · exact .inl (.inr covered)
          · rintro ((⟨low, high⟩ | covered) | ⟨low, high⟩)
            · exact .inl ⟨low, by omega⟩
            · exact .inr covered
            · exact .inl ⟨by omega, by omega⟩
      · rw [absorb, if_neg touching]
        refine ⟨ascending_reverse_cons.mpr ⟨proper, fun other member => ?_,
          ascending_reverse_cons.mpr ⟨topProper, above, ascending⟩⟩, ?_, fun point => ?_⟩
        · rcases List.mem_cons.mp member with rfl | member
          · omega
          · have gap := above other member
            omega
        · rw [List.forall_mem_cons]
          exact ⟨Nat.le_refl _, later⟩
        · rw [cover_cons, or_comm]

theorem foldl_absorb (ascending : Ascending merged.reverse)
    (proper : ∀ range ∈ ranges, range.first ≤ range.last)
    (sorted : ranges.Pairwise fun one other => one.first ≤ other.first)
    (later : ∀ range ∈ ranges, ∀ other ∈ merged, other.first ≤ range.first) :
    Ascending (ranges.foldl absorb merged).reverse ∧
      ∀ point, Cover (ranges.foldl absorb merged) point ↔
        Cover merged point ∨ Cover ranges point := by
  induction ranges generalizing merged with
  | nil => exact ⟨ascending, fun point => by simp⟩
  | cons range ranges ih =>
      rw [List.pairwise_cons] at sorted
      obtain ⟨ascendingToo, bounded, covers⟩ :=
        absorb_spec ascending (proper range List.mem_cons_self) (later range List.mem_cons_self)
      obtain ⟨ascendingLast, coversLast⟩ := ih ascendingToo
        (fun other member => proper other (List.mem_cons_of_mem _ member)) sorted.2
        fun other member one among => (bounded one among).trans (sorted.1 other member)
      refine ⟨ascendingLast, fun point => ?_⟩
      rw [List.foldl_cons, coversLast, covers, cover_cons, or_assoc]

/-- A set of ranges ascends and covers what the ranges cover. -/
theorem ofRanges_spec (ranges : List CodeRange) :
    Ascending (ofRanges ranges).ranges.toList ∧
      ∀ point, Cover (ofRanges ranges).ranges.toList point ↔ Cover ranges point := by
  let proper := ranges.filter fun range => range.first ≤ range.last
  have trans (one two three : CodeRange) (first : one.le two = true)
      (second : two.le three = true) :
      one.le three = true := by
    simp only [CodeRange.le, Bool.or_eq_true, decide_eq_true_eq, Bool.and_eq_true,
      beq_iff_eq] at first second ⊢
    omega
  have total (one other : CodeRange) : (one.le other || other.le one) = true := by
    simp only [CodeRange.le, Bool.or_eq_true, decide_eq_true_eq, Bool.and_eq_true, beq_iff_eq]
    omega
  have sorted := (List.pairwise_mergeSort trans total proper).imp fun {one other} le => by
    simp only [CodeRange.le, Bool.or_eq_true, decide_eq_true_eq, Bool.and_eq_true,
      beq_iff_eq] at le
    exact show one.first ≤ other.first by omega
  have members (range : CodeRange) : range ∈ proper.mergeSort CodeRange.le ↔
      range ∈ ranges ∧ range.first ≤ range.last := by
    rw [List.mem_mergeSort, List.mem_filter, decide_eq_true_eq]
  have nothing : Ascending ([] : List CodeRange).reverse := ⟨nofun, .nil⟩
  obtain ⟨ascending, covers⟩ := foldl_absorb nothing
    (fun range member => ((members range).mp member).2) sorted nofun
  refine ⟨ascending, fun point => ?_⟩
  change Cover (List.foldl absorb [] _).reverse point ↔ _
  rw [cover_reverse, covers, or_iff_right cover_nil]
  simp only [Cover, members]
  constructor
  · rintro ⟨range, ⟨member, -⟩, covered⟩
    exact ⟨range, member, covered⟩
  · rintro ⟨range, member, covered⟩
    exact ⟨range, ⟨member, covered.1.trans covered.2⟩, covered⟩

/-- The gaps between ascending ranges ascend and cover what the ranges leave out. -/
theorem gaps_spec {next : Nat} (ascending : Ascending ranges)
    (above : ∀ range ∈ ranges, next ≤ range.first) :
    Ascending (gaps next ranges) ∧ (∀ range ∈ gaps next ranges, next ≤ range.first) ∧
      ∀ point ≤ maxPoint, Cover (gaps next ranges) point ↔ next ≤ point ∧ ¬ Cover ranges point := by
  induction ranges generalizing next with
  | nil =>
      by_cases inside : next ≤ maxPoint
      · rw [gaps, if_pos inside]
        refine ⟨⟨by simpa using inside, List.pairwise_singleton _ _⟩, by simp,
          fun point small => ?_⟩
        simp [CodeRange.Covers, small]
      · rw [gaps, if_neg inside]
        refine ⟨⟨nofun, .nil⟩, nofun, fun point small => ?_⟩
        simp only [cover_nil, not_false_eq_true, and_true, false_iff]
        omega
  | cons range rest ih =>
      have proper := ascending.proper range List.mem_cons_self
      have apart := (List.pairwise_cons.mp ascending.apart).1
      have first := above range List.mem_cons_self
      obtain ⟨laterAscending, bounded, covers⟩ :=
        ih ascending.tail fun other member => (apart other member).le
      -- What lies before the range is a gap of its own unless it is empty.
      have split (point : Nat) (small : point ≤ maxPoint) :
          (next ≤ point ∧ point < range.first) ∨ Cover (gaps (range.last + 1) rest) point ↔
            next ≤ point ∧ ¬ Cover (range :: rest) point := by
        rw [covers point small, cover_cons, CodeRange.Covers]
        constructor
        · rintro (⟨low, high⟩ | ⟨low, uncovered⟩)
          · refine ⟨low, ?_⟩
            rintro (⟨inside, -⟩ | covered)
            · omega
            · have := ascending.beyond covered
              omega
          · refine ⟨by omega, ?_⟩
            rintro (⟨-, inside⟩ | covered)
            · omega
            · exact uncovered covered
        · rintro ⟨low, uncovered⟩
          by_cases before : point < range.first
          · exact .inl ⟨low, before⟩
          · refine .inr ⟨?_, fun covered => uncovered (.inr covered)⟩
            by_contra within
            exact uncovered (.inl ⟨by omega, by omega⟩)
      by_cases gap : next < range.first
      · rw [gaps, if_pos gap]
        refine ⟨⟨?_, List.pairwise_cons.mpr ⟨fun other member => ?_, laterAscending.apart⟩⟩, ?_,
          fun point small => ?_⟩
        · rw [List.forall_mem_cons]
          exact ⟨Nat.le_sub_one_of_lt gap, laterAscending.proper⟩
        · have := bounded other member
          change range.first - 1 + 1 < other.first
          omega
        · rw [List.forall_mem_cons]
          refine ⟨Nat.le_refl _, fun other member => ?_⟩
          have := bounded other member
          omega
        · rw [← split point small, cover_cons, CodeRange.Covers, Nat.le_sub_one_iff_lt (by omega)]
      · rw [gaps, if_neg gap]
        refine ⟨laterAscending, fun other member => ?_, fun point small => ?_⟩
        · have := bounded other member
          omega
        · rw [← split point small, or_iff_right (by omega)]

/-! ## Looking for a code point -/

/-- Halving finds the range that covers the code point, if there is one. -/
theorem search_iff {ranges : Array CodeRange} (ascending : Ascending ranges.toList) {low high : Nat}
    (bounded : high ≤ ranges.size) :
    search ranges point low high = true ↔
      ∃ index range, low ≤ index ∧ index < high ∧ ranges[index]? = some range ∧
        range.Covers point := by
  have apart {one other : Nat} {first second : CodeRange} (less : one < other)
      (here : ranges[one]? = some first) (there : ranges[other]? = some second) :
      first.last + 1 < second.first := by
    rw [← Array.getElem?_toList] at here there
    obtain ⟨inside, rfl⟩ := List.getElem?_eq_some_iff.mp here
    obtain ⟨insideToo, rfl⟩ := List.getElem?_eq_some_iff.mp there
    exact List.pairwise_iff_getElem.mp ascending.apart _ _ inside insideToo less
  have proper {index : Nat} {range : CodeRange} (here : ranges[index]? = some range) :
      range.first ≤ range.last := by
    rw [← Array.getElem?_toList] at here
    exact ascending.proper range (List.mem_of_getElem? here)
  fun_induction search ranges point low high with
  | case1 low high less middle missing =>
      have inside : middle < ranges.size := by omega
      rw [Array.getElem?_eq_getElem inside] at missing
      cases missing
  | case2 low high less middle range found before ih =>
      refine (ih bounded).trans ?_
      constructor
      · rintro ⟨index, other, above, below, here, covers⟩
        exact ⟨index, other, by omega, below, here, covers⟩
      · rintro ⟨index, other, above, below, here, covers⟩
        refine ⟨index, other, ?_, below, here, covers⟩
        by_contra left
        obtain ⟨-, last⟩ := covers
        rcases Nat.lt_or_eq_of_le (show index ≤ middle by omega) with less | rfl
        · have := apart less here found
          have := proper found
          omega
        · cases here.symm.trans found
          omega
  | case3 low high less middle range found notBefore after ih =>
      refine (ih (by omega)).trans ?_
      constructor
      · rintro ⟨index, other, above, below, here, covers⟩
        exact ⟨index, other, above, by omega, here, covers⟩
      · rintro ⟨index, other, above, below, here, covers⟩
        refine ⟨index, other, above, ?_, here, covers⟩
        by_contra right
        obtain ⟨first, -⟩ := covers
        rcases Nat.lt_or_eq_of_le (show middle ≤ index by omega) with less | same
        · have := apart less found here
          have := proper found
          omega
        · rw [← same] at here
          cases here.symm.trans found
          omega
  | case4 low high less middle range found notBefore notAfter =>
      refine iff_of_true rfl ⟨middle, range, by omega, by omega, found, ?_⟩
      exact ⟨by omega, by omega⟩
  | case5 low high none =>
      refine iff_of_false (by simp) ?_
      rintro ⟨index, range, above, below, -⟩
      omega

/-- A set contains the characters that its ranges cover. -/
theorem contains_iff {set : CharSet} (ascending : Ascending set.ranges.toList) (c : Char) :
    set.contains c = true ↔ Cover set.ranges.toList c.toNat := by
  rw [contains, hasPoint, search_iff ascending (Nat.le_refl _)]
  constructor
  · rintro ⟨index, range, -, -, found, covers⟩
    rw [← Array.getElem?_toList] at found
    exact ⟨range, List.mem_of_getElem? found, covers⟩
  · rintro ⟨range, member, covers⟩
    obtain ⟨index, found⟩ := List.mem_iff_getElem?.mp member
    have inside := (List.getElem?_eq_some_iff.mp found).choose
    rw [Array.getElem?_toList] at found
    exact ⟨index, range, Nat.zero_le _, inside, found, covers⟩

theorem contains_ofRanges (ranges : List CodeRange) (c : Char) :
    (ofRanges ranges).contains c = true ↔ Cover ranges c.toNat := by
  obtain ⟨ascending, covers⟩ := ofRanges_spec ranges
  rw [contains_iff ascending, covers]

@[simp]
theorem contains_ofString (chars : String) (c : Char) :
    (ofString chars).contains c = true ↔ c ∈ chars.toList := by
  rw [ofString, ofList, contains_ofRanges]
  simp only [Cover, List.mem_map, exists_exists_and_eq_and, CodeRange.Covers, CodeRange.single]
  constructor
  · rintro ⟨other, member, low, high⟩
    rwa [Char.toNat_inj.mp (Nat.le_antisymm low high)] at member
  · intro member
    exact ⟨c, member, Nat.le_refl _, Nat.le_refl _⟩

@[simp]
theorem contains_range (first last c : Char) :
    (CharSet.range first last).contains c = true ↔ first ≤ c ∧ c ≤ last := by
  rw [CharSet.range, contains_ofRanges, cover_cons, or_iff_left cover_nil]
  exact Iff.rfl

theorem ascending_ofRanges (ranges : List CodeRange) : Ascending (ofRanges ranges).ranges.toList :=
  (ofRanges_spec ranges).1

theorem contains_union {one other : CharSet} (ascending : Ascending one.ranges.toList)
    (ascendingToo : Ascending other.ranges.toList) (c : Char) :
    (one.union other).contains c = true ↔ one.contains c = true ∨ other.contains c = true := by
  rw [union, contains_ofRanges, cover_append, contains_iff ascending, contains_iff ascendingToo]

theorem contains_inverted {set : CharSet} (ascending : Ascending set.ranges.toList) (c : Char) :
    set.inverted.contains c = true ↔ ¬ set.contains c = true := by
  obtain ⟨inverted, -, covers⟩ := gaps_spec ascending fun _ _ => Nat.zero_le _
  rw [contains_iff ascending]
  refine Iff.trans ?_ ((covers c.toNat (point_le c)).trans (and_iff_right (Nat.zero_le _)))
  exact contains_iff (by rwa [CharSet.inverted, List.toList_toArray]) c

end Packrat.CharSet
