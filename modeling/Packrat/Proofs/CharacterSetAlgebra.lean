import Mathlib.Order.BooleanAlgebra.Set
import Mathlib.Order.Interval.Set.Defs
import Packrat.Proofs.CharacterSets

/-!
# The algebra of character sets

Every set that can be built stores its code points in one way only: as ranges that ascend, do not
touch one another and stay in the code space.  So two sets with the same code points are equal,
and the laws that unions and complements of code points obey hold of the sets themselves.
-/

namespace Packrat.CharSet

variable {set one other : CharSet} {ranges merged rest more : List CodeRange}
  {range top first second : CodeRange} {point : Nat}

namespace Ascending

/-- No point lies before the first range. -/
theorem first_le (ascending : Ascending (range :: rest)) (covered : Cover (range :: rest) point) :
    range.first ≤ point := by
  rcases cover_cons.mp covered with ⟨low, -⟩ | later
  · exact low
  · have proper := ascending.proper range List.mem_cons_self
    have gap := ascending.beyond later
    omega

theorem covers_first (ascending : Ascending (range :: rest)) :
    Cover (range :: rest) range.first :=
  cover_cons.mpr (.inl ⟨Nat.le_refl _, ascending.proper range List.mem_cons_self⟩)

theorem covers_last (ascending : Ascending ranges) (member : range ∈ ranges) :
    Cover ranges range.last :=
  ⟨range, member, ascending.proper range member, Nat.le_refl _⟩

theorem last_le (ascending : Ascending (second :: more)) (start : first.first = second.first)
    (within : ∀ point, Cover (first :: rest) point → Cover (second :: more) point) :
    first.last ≤ second.last := by
  by_contra longer
  have proper := ascending.proper second List.mem_cons_self
  have inside : Cover (first :: rest) (second.last + 1) :=
    cover_cons.mpr (.inl ⟨by omega, by omega⟩)
  rcases cover_cons.mp (within _ inside) with ⟨-, high⟩ | later
  · omega
  · exact absurd (ascending.beyond later) (Nat.lt_irrefl _)

/-- Ascending ranges that cover the same points are the same. -/
theorem eq_of_cover (ascending : Ascending ranges) (ascendingToo : Ascending more)
    (same : ∀ point, Cover ranges point ↔ Cover more point) : ranges = more := by
  induction ranges generalizing more with
  | nil =>
      cases more with
      | nil => rfl
      | cons second more => exact absurd ((same _).mpr ascendingToo.covers_first) cover_nil
  | cons first rest ih =>
      cases more with
      | nil => exact absurd ((same _).mp ascending.covers_first) cover_nil
      | cons second more =>
          have start : first.first = second.first := Nat.le_antisymm
            (ascending.first_le ((same _).mpr ascendingToo.covers_first))
            (ascendingToo.first_le ((same _).mp ascending.covers_first))
          have stop : first.last = second.last := Nat.le_antisymm
            (ascendingToo.last_le start fun point => (same point).mp)
            (ascending.last_le start.symm fun point => (same point).mpr)
          obtain rfl : first = second := by
            cases first
            cases second
            cases start
            cases stop
            rfl
          -- The same range covers none of the points of the others.
          have outside {point : Nat} (later : first.last + 1 < point) : ¬ first.Covers point :=
            fun covered => absurd covered.2 (by omega)
          congr 1
          refine ih ascending.tail ascendingToo.tail fun point => ?_
          constructor
          · intro covered
            exact (cover_cons.mp ((same point).mp (cover_cons.mpr (.inr covered)))).resolve_left
              (outside (ascending.beyond covered))
          · intro covered
            exact (cover_cons.mp ((same point).mpr (cover_cons.mpr (.inr covered)))).resolve_left
              (outside (ascendingToo.beyond covered))

end Ascending

def points (set : CharSet) : Set Nat := {point | Cover set.ranges.toList point}

/-- The ranges of a set ascend, do not touch one another and stay in the code space. -/
structure Canonical (set : CharSet) : Prop where
  ascending : Ascending set.ranges.toList
  bounded : ∀ range ∈ set.ranges.toList, range.last ≤ maxPoint

namespace Canonical

theorem points_le (canonical : set.Canonical) : set.points ⊆ Set.Iic maxPoint := by
  rintro point ⟨range, member, -, high⟩
  exact high.trans (canonical.bounded range member)

/-- Sets with the same points are equal. -/
theorem eq_of_points (canonical : one.Canonical) (canonicalToo : other.Canonical)
    (same : one.points = other.points) : one = other := by
  have ranges := canonical.ascending.eq_of_cover canonicalToo.ascending (Set.ext_iff.mp same)
  cases one
  cases other
  rw [CharSet.mk.injEq]
  exact Array.toList_inj.mp ranges

end Canonical

@[simp]
theorem points_empty : empty.points = ∅ := Set.eq_empty_iff_forall_notMem.mpr fun _ => cover_nil

theorem canonical_ofRanges (within : ∀ point, Cover ranges point → point ≤ maxPoint) :
    (ofRanges ranges).Canonical where
  ascending := ascending_ofRanges ranges
  bounded _ member :=
    within _ (((ofRanges_spec ranges).2 _).mp ((ascending_ofRanges ranges).covers_last member))

theorem points_ofRanges (ranges : List CodeRange) :
    (ofRanges ranges).points = {point | Cover ranges point} :=
  Set.ext (ofRanges_spec ranges).2

@[simp]
theorem points_ofList (chars : List Char) :
    (ofList chars).points = {point | ∃ c ∈ chars, c.toNat = point} := by
  rw [ofList, points_ofRanges]
  ext point
  simp only [Cover, List.mem_map, exists_exists_and_eq_and, CodeRange.Covers, CodeRange.single,
    Set.mem_ofPred_eq, ← Nat.le_antisymm_iff]

@[simp]
theorem points_range (first last : Char) :
    (CharSet.range first last).points = Set.Icc first.toNat last.toNat := by
  rw [CharSet.range, points_ofRanges]
  ext point
  simp only [cover_cons, cover_nil, or_false, Set.mem_ofPred_eq, CodeRange.Covers, Set.mem_Icc]

@[simp]
theorem points_union (one other : CharSet) :
    (one.union other).points = one.points ∪ other.points := by
  rw [union, points_ofRanges]
  ext point
  exact cover_append

theorem gaps_le {next : Nat} (proper : ∀ range ∈ ranges, range.first ≤ range.last)
    (bounded : ∀ range ∈ ranges, range.last ≤ maxPoint) :
    ∀ range ∈ gaps next ranges, range.last ≤ maxPoint := by
  induction ranges generalizing next with
  | nil =>
      unfold gaps
      split <;> simp
  | cons range rest ih =>
      rw [List.forall_mem_cons] at proper bounded
      unfold gaps
      split
      · refine List.forall_mem_cons.mpr ⟨?_, ih proper.2 bounded.2⟩
        change range.first - 1 ≤ maxPoint
        omega
      · exact ih proper.2 bounded.2

theorem Canonical.inverted (canonical : set.Canonical) : set.inverted.Canonical := by
  obtain ⟨ascending, -, -⟩ := gaps_spec canonical.ascending fun _ _ => Nat.zero_le _
  constructor
  · rwa [CharSet.inverted, List.toList_toArray]
  · rw [CharSet.inverted, List.toList_toArray]
    exact gaps_le canonical.ascending.proper canonical.bounded

@[simp]
theorem Canonical.points_inverted (canonical : set.Canonical) :
    set.inverted.points = Set.Iic maxPoint \ set.points := by
  obtain ⟨-, -, covers⟩ := gaps_spec canonical.ascending fun _ _ => Nat.zero_le _
  ext point
  have stored : point ∈ set.inverted.points ↔ Cover (gaps 0 set.ranges.toList) point := by
    rw [CharSet.inverted, points, List.toList_toArray]
    exact Iff.rfl
  constructor
  · intro member
    have small : point ≤ maxPoint := canonical.inverted.points_le member
    exact ⟨small, ((covers point small).mp (stored.mp member)).2⟩
  · rintro ⟨small, outside⟩
    exact stored.mpr ((covers point small).mpr ⟨Nat.zero_le point, outside⟩)

/-! ## Sets that can be built -/

/-- The sets that the operations build. -/
inductive Built : CharSet → Prop where
  | empty : Built .empty
  | ofString (chars : String) : Built (.ofString chars)
  | ofList (chars : List Char) : Built (.ofList chars)
  | range (first last : Char) : Built (.range first last)
  | union {one other : CharSet} : Built one → Built other → Built (one.union other)
  | inverted {set : CharSet} : Built set → Built set.inverted

theorem canonical_ofList (chars : List Char) : (ofList chars).Canonical := by
  apply canonical_ofRanges
  rintro point ⟨range, member, -, high⟩
  obtain ⟨c, -, rfl⟩ := List.mem_map.mp member
  exact high.trans (point_le c)

theorem Built.canonical (built : set.Built) : set.Canonical := by
  induction built with
  | empty => exact ⟨⟨nofun, .nil⟩, nofun⟩
  | ofString chars => exact canonical_ofList chars.toList
  | ofList chars => exact canonical_ofList chars
  | range first last =>
      apply canonical_ofRanges
      intro point covered
      exact ((cover_cons.mp covered).resolve_right cover_nil).2.trans (point_le last)
  | union _ _ ih ihToo =>
      apply canonical_ofRanges
      intro point covered
      rcases cover_append.mp covered with covered | covered
      · exact ih.points_le covered
      · exact ihToo.points_le covered
  | inverted _ ih => exact ih.inverted

/-- One more, if that fits into 32 bits. -/
def next? (point : Nat) : Option Nat := if point + 1 < Nat.pow 2 32 then some (point + 1) else none

def previous? (point : Nat) : Option Nat := if 0 < point then some (point - 1) else none

def absorb? (merged : List CodeRange) (range : CodeRange) : Option (List CodeRange) :=
  match merged with
  | [] => some [range]
  | top :: rest => (next? top.last).map fun next =>
      if range.first ≤ next then ⟨top.first, max top.last range.last⟩ :: rest
      else range :: top :: rest

def gaps? (next : Nat) : List CodeRange → Option (List CodeRange)
  | [] => some (gaps next [])
  | range :: rest => do
      let later ← gaps? (← next? range.last) rest
      if next < range.first then
        return ⟨next, ← previous? range.first⟩ :: later
      else
        return later

def union? (one other : CharSet) : Option CharSet :=
  let ranges := one.ranges.toList ++ other.ranges.toList
  let sorted := (ranges.filter fun range => range.first ≤ range.last).mergeSort CodeRange.le
  (sorted.foldlM absorb? []).map fun merged => ⟨merged.reverse.toArray⟩

def inverted? (set : CharSet) : Option CharSet :=
  (gaps? 0 set.ranges.toList).map fun ranges => ⟨ranges.toArray⟩

theorem next?_eq (small : point ≤ maxPoint) : next? point = some (point + 1) :=
  if_pos (Nat.lt_of_le_of_lt (Nat.succ_le_succ small) (by decide))

theorem absorb?_eq (bounded : ∀ range ∈ merged, range.last ≤ maxPoint) :
    absorb? merged range = some (absorb merged range) := by
  cases merged with
  | nil => rfl
  | cons top rest =>
      rw [absorb?, next?_eq (bounded top List.mem_cons_self), Option.map_some, absorb]

theorem absorb_le (bounded : ∀ range ∈ merged, range.last ≤ maxPoint)
    (small : range.last ≤ maxPoint) : ∀ other ∈ absorb merged range, other.last ≤ maxPoint := by
  cases merged with
  | nil => simpa [absorb] using small
  | cons top rest =>
      have head := bounded top List.mem_cons_self
      by_cases touching : range.first ≤ top.last + 1
      · rw [absorb, if_pos touching, List.forall_mem_cons]
        refine ⟨Nat.max_le.mpr ⟨head, small⟩, fun other member => ?_⟩
        exact bounded other (List.mem_cons_of_mem top member)
      · rw [absorb, if_neg touching, List.forall_mem_cons]
        exact ⟨small, bounded⟩

theorem foldlM_absorb? (bounded : ∀ range ∈ merged, range.last ≤ maxPoint)
    (small : ∀ range ∈ ranges, range.last ≤ maxPoint) :
    ranges.foldlM absorb? merged = some (ranges.foldl absorb merged) := by
  induction ranges generalizing merged with
  | nil => rfl
  | cons range ranges ih =>
      rw [List.forall_mem_cons] at small
      rw [List.foldlM_cons, absorb?_eq bounded, List.foldl_cons]
      exact ih (absorb_le bounded small.1) small.2

/-- Ranges of the code space are merged without any overflow. -/
theorem union?_eq (canonical : one.Canonical) (canonicalToo : other.Canonical) :
    one.union? other = some (one.union other) := by
  have none : ∀ range ∈ ([] : List CodeRange), range.last ≤ maxPoint := nofun
  have small : ∀ range ∈ ((one.ranges.toList ++ other.ranges.toList).filter fun range =>
      range.first ≤ range.last).mergeSort CodeRange.le, range.last ≤ maxPoint := by
    intro range member
    rcases List.mem_append.mp (List.mem_filter.mp (List.mem_mergeSort.mp member)).1 with
      member | member
    · exact canonical.bounded range member
    · exact canonicalToo.bounded range member
  simp only [union?, foldlM_absorb? none small, Option.map_some]
  rfl

theorem gaps?_eq {next : Nat} (bounded : ∀ range ∈ ranges, range.last ≤ maxPoint) :
    gaps? next ranges = some (gaps next ranges) := by
  induction ranges generalizing next with
  | nil => rfl
  | cons range rest ih =>
      rw [List.forall_mem_cons] at bounded
      rw [gaps?, next?_eq bounded.1, gaps]
      by_cases gap : next < range.first
      · have positive : 0 < range.first := Nat.zero_lt_of_lt gap
        simp [ih bounded.2, gap, previous?, positive]
      · simp [ih bounded.2, gap]

theorem inverted?_eq (canonical : set.Canonical) : set.inverted? = some set.inverted := by
  rw [inverted?, gaps?_eq canonical.bounded]
  rfl

def meet (one other : CharSet) : CharSet := (one.inverted.union other.inverted).inverted

theorem Built.points_meet (built : one.Built) (builtToo : other.Built) :
    (one.meet other).points = one.points ∩ other.points := by
  have outside := (built.inverted.union builtToo.inverted).canonical.points_inverted
  rw [meet, outside, points_union, built.canonical.points_inverted,
    builtToo.canonical.points_inverted, ← Set.sdiff_inter, Set.sdiff_sdiff_cancel_left]
  exact Set.inter_subset_left.trans built.canonical.points_le

/-- What holds of three sets of code points and of their unions and complements. -/
structure BooleanLaws (one two three : CharSet) : Prop where
  canonical : one.Canonical
  contains_iff : ∀ c : Char,
    one.contains c = true ↔ ∃ range ∈ one.ranges.toList, range.Covers c.toNat
  points_union : (one.union two).points = one.points ∪ two.points
  points_inverted : one.inverted.points = Set.Iic maxPoint \ one.points
  points_meet : (one.meet two).points = one.points ∩ two.points
  union_fits : one.union? two = some (one.union two)
  inverted_fits : one.inverted? = some one.inverted
  eq_iff : one = two ↔ one.points = two.points
  inverted_inverted : one.inverted.inverted = one
  union_comm : one.union two = two.union one
  union_assoc : (one.union two).union three = one.union (two.union three)
  union_self : one.union one = one
  inverted_union : (one.union two).inverted = one.inverted.meet two.inverted
  inverted_meet : (one.meet two).inverted = one.inverted.union two.inverted

theorem built_sets_obey_boolean_laws {one two three : CharSet} (built : one.Built)
    (builtTwo : two.Built) (builtThree : three.Built) : BooleanLaws one two three := by
  have double {set : CharSet} (built : set.Built) : set.inverted.inverted = set := by
    apply built.inverted.inverted.canonical.eq_of_points built.canonical
    rw [built.inverted.canonical.points_inverted, built.canonical.points_inverted,
      Set.sdiff_sdiff_cancel_left built.canonical.points_le]
  constructor
  · exact built.canonical
  · exact contains_iff built.canonical.ascending
  · exact points_union one two
  · exact built.canonical.points_inverted
  · exact built.points_meet builtTwo
  · exact union?_eq built.canonical builtTwo.canonical
  · exact inverted?_eq built.canonical
  · exact ⟨congrArg points, built.canonical.eq_of_points builtTwo.canonical⟩
  · exact double built
  · apply (built.union builtTwo).canonical.eq_of_points (builtTwo.union built).canonical
    rw [points_union, points_union, Set.union_comm]
  · apply ((built.union builtTwo).union builtThree).canonical.eq_of_points
      (built.union (builtTwo.union builtThree)).canonical
    simp only [points_union, Set.union_assoc]
  · apply (built.union built).canonical.eq_of_points built.canonical
    rw [points_union, Set.union_self]
  · rw [meet, double built, double builtTwo]
  · rw [meet, double (built.inverted.union builtTwo.inverted)]

/-- Neighbours merge, and a reversed range has no members. -/
theorem boolean_laws_letters :
    let letters := (CharSet.range 'a' 'c').union (CharSet.range 'd' 'f')
    Built letters ∧ Built (CharSet.range 'a' 'f') ∧ Built (CharSet.range 'z' 'a') ∧
      BooleanLaws letters (CharSet.range 'a' 'f') (CharSet.range 'z' 'a') ∧
      letters = CharSet.range 'a' 'f' := by
  have built : Built ((CharSet.range 'a' 'c').union (CharSet.range 'd' 'f')) :=
    .union (.range 'a' 'c') (.range 'd' 'f')
  have laws := built_sets_obey_boolean_laws built (.range 'a' 'f') (.range 'z' 'a')
  refine ⟨built, .range 'a' 'f', .range 'z' 'a', laws, laws.eq_iff.mpr ?_⟩
  rw [CharSet.points_union, points_range, points_range, points_range]
  ext point
  simp only [Set.mem_union, Set.mem_Icc]
  constructor
  · rintro (⟨low, high⟩ | ⟨low, high⟩)
    · exact ⟨low, high.trans (by decide)⟩
    · exact ⟨le_trans (by decide) low, high⟩
  · rintro ⟨low, high⟩
    by_cases early : point ≤ 'c'.toNat
    · exact .inl ⟨low, early⟩
    · exact .inr ⟨Nat.succ_le_of_lt (Nat.lt_of_not_le early), high⟩

end Packrat.CharSet
