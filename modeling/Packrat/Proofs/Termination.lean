import Mathlib.Algebra.Order.BigOperators.Group.Finset
import Mathlib.Data.Fintype.Order
import Packrat.Proofs.Extent

/-!
# Termination under a re-entrancy limit

Under a policy chain with a re-entrancy limit every call of a finite grammar ends, however
left recursive or ill defined its rules are.  A position and the tags of the grammar leave
a budget of calls at that position; a tagged call uses some of it up, and input that is
consumed outweighs all budgets.  Between two tagged calls a body only descends into its
own parts, follows handles, or repeats a part that consumes input.
-/

namespace Packrat

open Readable (IsBoundary)

variable {ι α : Type}

/-- The slot of the handle that a parser is, up to wrappers that share its body. -/
def Parser.alias? : Parser ι α → Option Nat
  | .recording _ inner => inner.alias?
  | .retag _ inner => inner.alias?
  | .handle _ slot => some slot
  | _ => none

namespace Arena

def Aliases (arena : Arena ι α) (slot other : Nat) : Prop :=
  ∃ tag parser, arena.resolve tag slot = .ok parser ∧ parser.alias? = some other

/-- No handle is defined as a chain of handles that leads back to itself. -/
def Acyclic (arena : Arena ι α) : Prop :=
  ∀ slot, ¬ Relation.TransGen arena.Aliases slot slot

theorem Aliases.lt_size {arena : Arena ι α} {slot other : Nat}
    (aliases : arena.Aliases slot other) : slot < arena.slots.size := by
  obtain ⟨tag, parser, resolved, -⟩ := aliases
  exact (Array.getElem?_eq_some_iff.mp (held_of_resolve resolved)).choose

theorem acyclic_of_alias_eq_none {arena : Arena ι α}
    (unaliased : ∀ (slot : Nat) (parser : Parser ι α),
      arena.slots[slot]? = some (some parser) → parser.alias? = none) :
    arena.Acyclic := by
  intro slot circle
  obtain ⟨other, ⟨tag, parser, resolved, aliased⟩, -⟩ := Relation.TransGen.head'_iff.mp circle
  rw [unaliased slot parser (held_of_resolve resolved)] at aliased
  cases aliased

theorem acyclic_of_lt {arena : Arena ι α}
    (upward : ∀ slot other, arena.Aliases slot other → slot < other) : arena.Acyclic := by
  have further {slot other : Nat} (chain : Relation.TransGen arena.Aliases slot other) :
      slot < other := by
    induction chain with
    | single aliases => exact upward _ _ aliases
    | tail _ aliases ih => exact ih.trans (upward _ _ aliases)
  exact fun slot circle => Nat.lt_irrefl slot (further circle)

theorem empty_acyclic : (empty : Arena ι α).Acyclic := by
  refine acyclic_of_alias_eq_none fun slot parser held => ?_
  cases held

/-- Following handles comes to an end. -/
theorem Acyclic.acc {arena : Arena ι α} (acyclic : arena.Acyclic) (slot : Nat) :
    Acc (flip arena.Aliases) slot := by
  let further (one other : Fin arena.slots.size) : Prop :=
    Relation.TransGen arena.Aliases other one
  have trans : IsTrans _ further := ⟨fun _ _ _ first second => second.trans first⟩
  have irrefl : Std.Irrefl further := ⟨fun one => acyclic one⟩
  have founded := Finite.wellFounded_of_trans_of_irrefl further
  have inside (one : Fin arena.slots.size) : Acc (flip arena.Aliases) one := by
    induction one using founded.induction with
    | h one ih =>
        refine .intro _ fun other aliases => ?_
        by_cases bounded : other < arena.slots.size
        · exact ih ⟨other, bounded⟩ (.single aliases)
        · exact .intro _ fun _ outside => absurd (Aliases.lt_size outside) bounded
  refine .intro _ fun other aliases => ?_
  by_cases bounded : other < arena.slots.size
  · exact inside ⟨other, bounded⟩
  · exact .intro _ fun _ outside => absurd (Aliases.lt_size outside) bounded

end Arena

/-! ## Weights -/

section Weights

variable {tags : Finset Tag}

/-- The calls that the limit still grants at a position, over all tags. -/
def DepthLimiter.budget (limiter : DepthLimiter) (tags : Finset Tag) (position remaining : Nat) :
    Nat :=
  ∑ tag ∈ tags, (remaining + 1 - limiter.depth ⟨position, tag⟩)

theorem DepthLimiter.budget_le (limiter : DepthLimiter) (position remaining : Nat) :
    limiter.budget tags position remaining ≤ tags.card * (remaining + 1) :=
  Finset.sum_le_card_nsmul _ _ _ fun _ _ => Nat.sub_le _ _

theorem DepthLimiter.budget_anti {limiter deeper : DepthLimiter} {position : Nat}
    (deepened : ∀ key, limiter.depth key ≤ deeper.depth key) (remaining : Nat) :
    deeper.budget tags position remaining ≤ limiter.budget tags position remaining :=
  Finset.sum_le_sum fun _ _ => Nat.sub_le_sub_left (deepened _) _

theorem DepthLimiter.budget_lt {limiter deeper : DepthLimiter} {position remaining : Nat}
    (deepened : ∀ key, limiter.depth key ≤ deeper.depth key) {tag : Tag} (member : tag ∈ tags)
    (granted : limiter.depth ⟨position, tag⟩ ≤ remaining)
    (opened : limiter.depth ⟨position, tag⟩ < deeper.depth ⟨position, tag⟩) :
    deeper.budget tags position remaining < limiter.budget tags position remaining := by
  refine Finset.sum_lt_sum (fun _ _ => Nat.sub_le_sub_left (deepened _) _) ⟨tag, member, ?_⟩
  omega

variable [Input ι]

/-- The input that is left outweighs the budget at the position. -/
def weight (input : ι) (tags : Finset Tag) (limiter : DepthLimiter) (position : Nat) : Nat :=
  Input.remaining input position * (tags.card * (Input.size input + 1) + 1) +
    limiter.budget tags position (Input.remaining input position)

theorem weight_lt_of_lt {input : ι} (limiter other : DepthLimiter) {position further : Nat}
    (forward : position < further) (inside : further ≤ Input.size input) :
    weight input tags other further < weight input tags limiter position := by
  have less : Input.remaining input further + 1 ≤ Input.remaining input position := by
    unfold Input.remaining
    omega
  have bounded : other.budget tags further (Input.remaining input further) ≤
      tags.card * (Input.size input + 1) := by
    refine (other.budget_le further _).trans (Nat.mul_le_mul_left _ (Nat.succ_le_succ ?_))
    exact Nat.sub_le _ _
  calc weight input tags other further
      ≤ Input.remaining input further * (tags.card * (Input.size input + 1) + 1) +
          tags.card * (Input.size input + 1) := Nat.add_le_add_left bounded _
    _ < (Input.remaining input further + 1) * (tags.card * (Input.size input + 1) + 1) := by
        rw [Nat.succ_mul]
        omega
    _ ≤ Input.remaining input position * (tags.card * (Input.size input + 1) + 1) :=
        Nat.mul_le_mul_right _ less
    _ ≤ weight input tags limiter position := Nat.le_add_right _ _

variable [Readable ι]

/-- A sound state with a re-entrancy limit and a bounded weight. -/
structure State.Bounded (input : ι) (tags : Finset Tag) (bound : Nat) (state : State α) :
    Prop where
  sound : state.Sound input
  limited : ∃ limiter, state.policy.limiter? = some limiter ∧
    weight input tags limiter state.cursor ≤ bound

theorem State.Bounded.record {input : ι} {bound : Nat} {state : State α}
    (bounded : state.Bounded input tags bound) (events : List Event) :
    (state.record events).Bounded input tags bound :=
  ⟨⟨bounded.sound.boundary, bounded.sound.remembers⟩, bounded.limited⟩

theorem State.Bounded.after {setting : Setting ι α}
    (arena : setting.arena.Composed .vocabulary) {parser : Parser ι α}
    (regular : parser.Regular) {bound : Nat} {state final : State α}
    {outcome : Outcome (Symbol α)} (bounded : state.Bounded setting.input tags bound)
    (ends : Ends setting (.call parser) state (.answered outcome) final) :
    final.Bounded setting.input tags bound := by
  obtain ⟨⟨fits, lands⟩, sound⟩ := ends.call_sound arena regular bounded.sound
  obtain ⟨limiter, outermost, weighs⟩ := bounded.limited
  obtain ⟨same, outermostToo, depths⟩ := Policy.Deepened.limiter? ends.balances outermost
  refine ⟨sound, same, outermostToo, Nat.le_trans ?_ weighs⟩
  have forward := fits.le_landing
  rw [← lands] at forward
  rcases Nat.eq_or_lt_of_le forward with stayed | moved
  · rw [← stayed, weight, weight]
    exact Nat.add_le_add_left (DepthLimiter.budget_anti (fun key => (depths key).ge) _) _
  · exact (weight_lt_of_lt limiter same moved (Readable.le_size sound.boundary)).le

end Weights

/-- How many more calls a waiting body can make before it repeats one. -/
def Pending.rank : Pending ι α → Nat
  | .first _ _ => 1
  | .choosing _ => 1
  | .alternative _ _ rest => rest.length
  | .firstItem _ _ => 1
  | _ => 0

/-- A waiting body ends, goes down in rank, or has consumed input. -/
theorem Pending.resume_cases {pending : Pending ι α} {within : Parser ι α → Prop}
    (covered : pending.Over within Finish.Total) (outcome : Outcome (Symbol α)) :
    (∃ result, pending.resume outcome = .reply result) ∨
    ∃ parser following, pending.resume outcome = .call parser following ∧
      (following.rank < pending.rank ∨
        ∃ matched, outcome = .ok matched ∧ matched.span.isEmpty = false) := by
  cases pending with
  | finish complete =>
      obtain ⟨finished, completes⟩ := covered (outcome.map Match.symbol)
      exact .inl ⟨finished, by rw [resume, completes]; rfl⟩
  | first other combine =>
      cases outcome with
      | ok matched => exact .inr ⟨_, _, rfl, .inl Nat.zero_lt_one⟩
      | error mismatch => exact .inl ⟨_, rfl⟩
  | second symbol combine => cases outcome <;> exact .inl ⟨_, rfl⟩
  | choosing next =>
      cases outcome with
      | ok matched => exact .inr ⟨_, _, rfl, .inl Nat.zero_lt_one⟩
      | error mismatch => exact .inl ⟨_, rfl⟩
  | passing => exact .inl ⟨_, rfl⟩
  | alternative tag alternatives rest =>
      cases outcome with
      | ok matched => exact .inl ⟨_, rfl⟩
      | error mismatch =>
          cases rest with
          | nil => exact .inl ⟨_, rfl⟩
          | cons parser rest => exact .inr ⟨_, _, rfl, .inl (Nat.lt_succ_self _)⟩
  | iteration tag item limit taken =>
      cases outcome with
      | error mismatch => exact .inl ⟨_, rfl⟩
      | ok matched =>
          rw [resume, continueRepetition]
          split
          · exact .inl ⟨_, rfl⟩
          · next progress =>
              split
              · exact .inr ⟨_, _, rfl, .inr ⟨matched, rfl, Bool.eq_false_iff.mpr progress⟩⟩
              · exact .inl ⟨_, rfl⟩
  | firstItem item separator =>
      cases outcome with
      | ok matched => exact .inr ⟨_, _, rfl, .inl Nat.zero_lt_one⟩
      | error mismatch => exact .inl ⟨_, rfl⟩
  | nextItem item separator taken =>
      cases outcome with
      | error mismatch => exact .inl ⟨_, rfl⟩
      | ok matched =>
          rw [resume]
          split
          · exact .inl ⟨_, rfl⟩
          · next progress =>
              exact .inr ⟨_, _, rfl, .inr ⟨matched, rfl, Bool.eq_false_iff.mpr progress⟩⟩

variable [Input ι] [Readable ι]

/--
The pieces of a grammar that uses the given tags and whose finishing steps break no rule.
-/
def Pieces.over (tags : Finset Tag) : Pieces ι α where
  terminal := Readable.IsTerminal
  finish := Finish.Total
  tag := (· ∈ tags)
  event := Event.IsCounted

theorem Pieces.over_within (tags : Finset Tag) :
    (Pieces.over tags : Pieces ι α).Within .vocabulary where
  terminal := id
  finish total result fault broken := by
    obtain ⟨finished, completes⟩ := total result
    rw [completes] at broken
    cases broken
  tag _ := trivial
  event := id

def Parser.CallEnds (setting : Setting ι α) (tags : Finset Tag) (bound : Nat)
    (parser : Parser ι α) : Prop :=
  ∀ state : State α, state.Bounded setting.input tags bound →
    ∃ outcome final, Ends setting (.call parser) state (.answered outcome) final

def Parser.BodyEnds (setting : Setting ι α) (tags : Finset Tag) (bound : Nat)
    (parser : Parser ι α) : Prop :=
  ∀ state : State α, state.Bounded setting.input tags bound →
    ∃ result final, Ends setting (.body parser) state (.replied result) final

section Ending

variable {setting : Setting ι α} {tags : Finset Tag} {bound : Nat}

/-- A call ends if it is answered or its body ends. -/
theorem call_ends_of_body (arena : setting.arena.Composed .vocabulary) {parser : Parser ι α}
    (regular : parser.Regular) {state : State α} (sound : state.Sound setting.input)
    (body : (setting.entry parser state).answer = none →
      ∃ result final, Ends setting (.body parser) (setting.entered parser state)
        (.replied result) final) :
    ∃ outcome final, Ends setting (.call parser) state (.answered outcome) final := by
  cases answer : (setting.entry parser state).answer with
  | some outcome => exact ⟨_, _, .answered answer⟩
  | none =>
      obtain ⟨result, middle, ends⟩ := body answer
      cases sealed : sealResult (callAt setting.input state.cursor parser) parser.kind
          middle.cursor result with
      | ok outcome => exact ⟨_, _, .executed answer ends sealed⟩
      | error fault =>
          -- The only fault of sealing is a reversed span, which no sound run meets.
          have broken := ((Ends.unsealed answer ends sealed).call_sound arena regular sound).1
          rw [fault_of_sealResult sealed] at broken
          cases broken

theorem State.Bounded.entered {state : State α}
    (bounded : state.Bounded setting.input tags bound) (parser : Parser ι α)
    (unanswered : (setting.entry parser state).answer = none) :
    (setting.entered parser state).Bounded setting.input tags bound := by
  obtain ⟨limiter, outermost, weighs⟩ := bounded.limited
  have opened := (Policy.enter_deepened state.policy _).1 unanswered
  obtain ⟨deeper, outermostToo, depths⟩ := Policy.Deepened.limiter? opened outermost
  refine ⟨⟨bounded.sound.boundary, (enter_sound bounded.sound.remembers).1⟩, deeper,
    outermostToo, Nat.le_trans (Nat.add_le_add_left ?_ _) weighs⟩
  exact DepthLimiter.budget_anti (fun key => by rw [depths key]; exact Nat.le_add_right _ _) _

/-- The body of a tagged parser runs in a state that weighs less than that of its call. -/
theorem State.Bounded.entered_tagged {state : State α}
    (bounded : state.Bounded setting.input tags bound) {parser : Parser ι α} {tag : Tag}
    (tagged : parser.tag = some tag) (member : tag ∈ tags)
    (unanswered : (setting.entry parser state).answer = none) :
    ∃ smaller < bound, (setting.entered parser state).Bounded setting.input tags smaller := by
  obtain ⟨limiter, outermost, weighs⟩ := bounded.limited
  have opened := (Policy.enter_deepened state.policy _).1 unanswered
  obtain ⟨deeper, outermostToo, depths⟩ := Policy.Deepened.limiter? opened outermost
  have keyed : (callAt setting.input state.cursor parser).key? = some ⟨state.cursor, tag⟩ := by
    rw [Call.key?, callAt, tagged]
    rfl
  have granted := Policy.not_refused_of_unanswered keyed outermost unanswered
  have less : weight setting.input tags deeper state.cursor <
      weight setting.input tags limiter state.cursor := by
    refine Nat.add_lt_add_left (DepthLimiter.budget_lt ?_ member ?_ ?_) _
    · intro key
      rw [depths key]
      exact Nat.le_add_right _ _
    · exact Nat.not_lt.mp (decide_eq_false_iff_not.mp granted)
    · rw [depths, Call.opens, if_pos keyed]
      exact Nat.lt_succ_self _
  refine ⟨weight setting.input tags deeper state.cursor, less.trans_le weighs, ?_⟩
  exact ⟨⟨bounded.sound.boundary, (enter_sound bounded.sound.remembers).1⟩, deeper,
    outermostToo, Nat.le_refl _⟩

theorem Outcome.Fits.lt_landing {σ : Type} {input : ι} {position : Nat} {matched : Match σ}
    (fits : Outcome.Fits input position (.ok matched)) (progress : matched.span.isEmpty = false) :
    position < Outcome.landing position (.ok matched) := by
  obtain ⟨starts, forward, -⟩ := fits
  simp only [Span.isEmpty, beq_eq_false_iff_ne] at progress
  simp only [landing]
  omega

section Fine

variable {fine : Parser ι α → Prop}

theorem call_move_ends (arena : setting.arena.Composed .vocabulary)
    (following : ∀ {first second}, fine first → fine second → fine (first.ignoreThen second))
    (regular : ∀ {parser}, fine parser → parser.Regular)
    (ends : ∀ {parser}, fine parser → parser.CallEnds setting tags bound)
    {parser : Parser ι α} (one : fine parser) {pending : Pending ι α}
    (covered : pending.Over fine Finish.Total) {state : State α}
    (bounded : state.Bounded setting.input tags bound) :
    ∃ result final,
      Ends setting (.move (.call parser pending)) state (.replied result) final := by
  -- First by the input that is left, then by the rank of the waiting body.
  generalize rooms : Input.size setting.input - state.cursor = room
  induction room using Nat.strongRecOn generalizing parser pending state with
  | ind room outerIh =>
    generalize ranks : pending.rank = rank
    induction rank using Nat.strongRecOn generalizing parser pending state with
    | ind rank innerIh =>
      obtain ⟨outcome, middle, called⟩ := ends one state bounded
      have boundedToo := bounded.after arena (regular one) called
      obtain ⟨⟨fits, lands⟩, -⟩ := called.call_sound arena (regular one) bounded.sound
      have coveredToo : (pending.resume outcome).Over fine Finish.Total Event.IsCounted :=
        Pending.resume_over following covered outcome
      rcases Pending.resume_cases covered outcome with
        ⟨result, resumes⟩ | ⟨next, last, resumes, less⟩
      · refine ⟨result, middle, .resumed called ?_⟩
        rw [resumes]
        exact .reply result middle
      · rw [resumes] at coveredToo
        have forward := fits.le_landing
        rw [← lands] at forward
        have inside := Readable.le_size boundedToo.sound.boundary
        have continues : ∃ result final,
            Ends setting (.move (.call next last)) middle (.replied result) final := by
          rcases Nat.eq_or_lt_of_le forward with stayed | moved
          · rcases less with lower | ⟨matched, rfl, progress⟩
            · refine innerIh last.rank (ranks ▸ lower) coveredToo.1 coveredToo.2 boundedToo ?_ rfl
              rw [← stayed, rooms]
            · have advanced := fits.lt_landing progress
              omega
          · exact outerIh _ (by omega) coveredToo.1 coveredToo.2 boundedToo rfl
        obtain ⟨result, final, endsToo⟩ := continues
        refine ⟨result, final, .resumed called ?_⟩
        rw [resumes]
        exact endsToo

/-- A move that neither breaks a rule nor turns to another body. -/
def Move.Steady : Move ι α → Prop
  | .abort _ => False
  | .become _ _ => False
  | _ => True

theorem body_ends_of_steady (arena : setting.arena.Composed .vocabulary)
    (following : ∀ {first second}, fine first → fine second → fine (first.ignoreThen second))
    (regular : ∀ {parser}, fine parser → parser.Regular)
    (ends : ∀ {parser}, fine parser → parser.CallEnds setting tags bound)
    {parser : Parser ι α}
    (steady : ∀ state, IsBoundary setting.input state.cursor →
      (parser.start setting state).Steady)
    (covered : ∀ state, (parser.start setting state).Over fine Finish.Total
      Event.IsCounted) :
    parser.BodyEnds setting tags bound := by
  intro state bounded
  have stable := steady state bounded.sound.boundary
  have calls := covered state
  suffices moves : ∃ result final,
      Ends setting (.move (parser.start setting state)) state (.replied result) final by
    obtain ⟨result, final, moves⟩ := moves
    exact ⟨result, final, .body moves⟩
  cases move : parser.start setting state with
  | reply result => exact ⟨_, _, .reply result state⟩
  | read symbol stop => exact ⟨_, _, .read symbol stop state⟩
  | abort fault =>
      rw [move] at stable
      exact stable.elim
  | become events other =>
      rw [move] at stable
      exact stable.elim
  | call other pending =>
      rw [move] at calls
      exact call_move_ends arena following regular ends calls.1 calls.2 bounded

end Fine

end Ending

/-! ## Grammars that end -/

def Parser.isWrapper : Parser ι α → Bool
  | .retag _ _ => true
  | .recording _ _ => true
  | .handle _ _ => true
  | _ => false

section Grammar

variable {setting : Setting ι α} {tags : Finset Tag} {bound : Nat}

theorem Parser.Composed.start_steady {parser : Parser ι α}
    (composed : parser.Composed (.over tags)) (unwrapped : parser.isWrapper = false)
    {state : State α} (boundary : IsBoundary setting.input state.cursor) :
    (parser.start setting state).Steady := by
  cases composed with
  | terminal known =>
      obtain ⟨found, reads, reaches⟩ := Readable.reads known boundary
      rw [Parser.start, reads]
      cases found with
      | none => trivial
      | some found =>
          simp only [if_pos (Readable.le_size (reaches found.1 found.2 rfl))]
          trivial
  | repetition limit _ _ =>
      rw [Parser.start, continueRepetition]
      split <;> trivial
  | choice _ alternatives => cases ‹List (Parser ι α)› <;> trivial
  | retag _ _ => cases unwrapped
  | recording _ _ => cases unwrapped
  | handle _ _ => cases unwrapped
  | _ => trivial

theorem Parser.Composed.regular {parser : Parser ι α}
    (composed : parser.Composed (.over tags)) : parser.Regular :=
  composed.mono (Pieces.over_within tags)

def Parser.Fine (setting : Setting ι α) (tags : Finset Tag) (bound : Nat)
    (parser : Parser ι α) : Prop :=
  parser.Composed (.over tags) ∧ parser.CallEnds setting tags bound

/-- A call of an untagged parser ends if its body does. -/
theorem untagged_call_ends (arena : setting.arena.Composed .vocabulary) {parser : Parser ι α}
    (regular : parser.Regular) (body : parser.BodyEnds setting tags bound) :
    parser.CallEnds setting tags bound := fun _ bounded =>
  call_ends_of_body arena regular bounded.sound fun unanswered =>
    body _ (bounded.entered parser unanswered)

/-- A call of a tagged parser ends if all bodies end in states of less weight. -/
theorem tagged_call_ends (arena : setting.arena.Composed .vocabulary)
    (bodies : ∀ smaller < bound, ∀ parser : Parser ι α, parser.Composed (.over tags) →
      parser.BodyEnds setting tags smaller)
    {parser : Parser ι α} (composed : parser.Composed (.over tags)) {tag : Tag}
    (tagged : parser.tag = some tag) (member : tag ∈ tags) :
    parser.CallEnds setting tags bound := by
  intro state bounded
  refine call_ends_of_body arena composed.regular bounded.sound fun unanswered => ?_
  obtain ⟨smaller, less, boundedToo⟩ := bounded.entered_tagged tagged member unanswered
  exact bodies smaller less parser composed _ boundedToo

theorem Parser.Fine.ignoreThen (arena : setting.arena.Composed .vocabulary)
    {first second : Parser ι α} (one : first.Fine setting tags bound)
    (other : second.Fine setting tags bound) :
    (first.ignoreThen second).Fine setting tags bound := by
  have composed := one.1.ignoreThen other.1
  refine ⟨composed, untagged_call_ends arena composed.regular ?_⟩
  intro state bounded
  obtain ⟨outcome, middle, called⟩ := one.2 state bounded
  cases outcome with
  | error mismatch => exact ⟨_, _, .body (.resumed called (.reply (.error mismatch) middle))⟩
  | ok matched =>
      obtain ⟨outcome, final, calledToo⟩ :=
        other.2 middle (bounded.after arena one.1.regular called)
      cases outcome with
      | error mismatch =>
          exact ⟨_, _,
            .body (.resumed called (.resumed calledToo (.reply (.error mismatch) final)))⟩
      | ok matchedToo =>
          exact ⟨_, _, .body (.resumed called
            (.resumed calledToo (.reply (.ok matchedToo.symbol) final)))⟩

/-- If all bodies end in states of less weight, then all calls end. -/
theorem composed_call_ends (arena : setting.arena.Composed .vocabulary)
    (bodies : ∀ smaller < bound, ∀ parser : Parser ι α, parser.Composed (.over tags) →
      parser.BodyEnds setting tags smaller)
    {parser : Parser ι α} (composed : parser.Composed (.over tags)) :
    parser.CallEnds setting tags bound := by
  -- The body of an untagged parser runs at the same weight, but only calls its parts.
  have steady {parser : Parser ι α} (composed : parser.Composed (.over tags))
      (unwrapped : parser.isWrapper = false)
      (covered : ∀ state, (parser.start setting state).Over (Parser.Fine setting tags bound)
        Finish.Total Event.IsCounted) : parser.BodyEnds setting tags bound :=
    body_ends_of_steady arena (Parser.Fine.ignoreThen arena) (fun fine => fine.1.regular)
      (fun fine => fine.2) (fun _ boundary => composed.start_steady unwrapped boundary) covered
  have called {parser : Parser ι α} (composed : parser.Composed (.over tags))
      (tagged : ∀ tag ∈ parser.tag, tag ∈ tags)
      (body : parser.tag = none → parser.BodyEnds setting tags bound) :
      parser.Fine setting tags bound := by
    refine ⟨composed, ?_⟩
    cases given : parser.tag with
    | none => exact untagged_call_ends arena composed.regular (body given)
    | some tag => exact tagged_call_ends arena bodies composed given (tagged tag given)
  suffices all : (∀ tag ∈ parser.tag, tag ∈ tags) ∧
      (parser.tag = none → parser.BodyEnds setting tags bound) from
    (called composed all.1 all.2).2
  induction composed with
  | terminal known =>
      exact ⟨nofun, fun _ => steady (.terminal known) rfl fun state =>
        Parser.start_terminal_over setting state _ _⟩
  | answer look =>
      exact ⟨nofun, fun _ => steady (.answer look) rfl fun _ => trivial⟩
  | wrap named inner total ih =>
      exact ⟨named, fun _ => steady (.wrap named inner total) rfl fun _ =>
        ⟨called inner ih.1 ih.2, total⟩⟩
  | both combine first second firstIh secondIh =>
      exact ⟨nofun, fun _ => steady (.both combine first second) rfl
        fun _ => ⟨called first firstIh.1 firstIh.2, called second secondIh.1 secondIh.2⟩⟩
  | andThen first next firstIh nextIh =>
      exact ⟨nofun, fun _ => steady (.andThen first next) rfl
        fun _ => ⟨called first firstIh.1 firstIh.2, fun symbol =>
          called (next symbol) (nextIh symbol).1 (nextIh symbol).2⟩⟩
  | repetition limit named item ih =>
      exact ⟨named, fun _ => steady (.repetition limit named item) rfl fun _ =>
        continueRepetition_over (called item ih.1 ih.2)⟩
  | separated named item separator itemIh separatorIh =>
      have fine := called item itemIh.1 itemIh.2
      exact ⟨named, fun _ => steady (.separated named item separator) rfl fun _ =>
        ⟨fine, fine, called separator separatorIh.1 separatorIh.2⟩⟩
  | choice named alternatives ih =>
      exact ⟨named, fun _ => steady (.choice named alternatives) rfl fun _ =>
        tryAlternatives_over fun parser member =>
          called (alternatives parser member) (ih parser member).1 (ih parser member).2⟩
  | @recording events _ recorded inner ih =>
      refine ⟨ih.1, fun untagged state bounded => ?_⟩
      obtain ⟨result, final, ends⟩ := ih.2 untagged _ (bounded.record events)
      exact ⟨result, final, .body (.become ends)⟩
  | retag member inner _ =>
      refine ⟨fun _ given => ?_, nofun⟩
      cases given
      exact member
  | recursive member body _ =>
      refine ⟨fun _ given => ?_, nofun⟩
      cases given
      exact member
  | self depth =>
      exact ⟨nofun, fun _ => steady (.self depth) rfl fun _ => trivial⟩
  | handle slot member =>
      refine ⟨fun _ given => ?_, nofun⟩
      cases given
      exact member

/-- A body ends if the handle that it may stand for resolves to a parser whose body ends. -/
theorem body_ends_of_alias (arena : setting.arena.Composed (.over tags))
    (calls : ∀ parser : Parser ι α, parser.Composed (.over tags) →
      parser.CallEnds setting tags bound)
    {parser : Parser ι α} (composed : parser.Composed (.over tags))
    (resolved : ∀ tag slot other, parser.alias? = some slot →
      setting.arena.resolve tag slot = .ok other → other.BodyEnds setting tags bound) :
    parser.BodyEnds setting tags bound ∧
      ∀ name ∈ tags, (parser.renamed name).BodyEnds setting tags bound := by
  have steady {parser : Parser ι α} (composed : parser.Composed (.over tags))
      (unwrapped : parser.isWrapper = false) : parser.BodyEnds setting tags bound :=
    body_ends_of_steady (arena.mono (Pieces.over_within tags)) Parser.Composed.ignoreThen
      Parser.Composed.regular (calls _)
      (fun _ boundary => composed.start_steady unwrapped boundary)
      (fun state => composed.start arena state)
  induction parser using Parser.alias?.induct with
  | case1 events inner ih =>
      cases composed with
      | recording recorded composed =>
          have recordingEnds : (Parser.recording events inner).BodyEnds setting tags bound := by
            intro state bounded
            obtain ⟨result, final, ends⟩ := (ih composed resolved).1 _ (bounded.record events)
            exact ⟨result, final, .body (.become ends)⟩
          exact ⟨recordingEnds, fun _ _ => recordingEnds⟩
  | case2 tag inner ih =>
      cases composed with
      | retag admitted composed =>
          obtain ⟨-, renamed⟩ := ih composed resolved
          refine ⟨fun state bounded => ?_, renamed⟩
          obtain ⟨result, final, ends⟩ := renamed tag admitted _ (bounded.record [])
          exact ⟨result, final, .body (.become ends)⟩
  | case3 tag slot =>
      have handleEnds : (Parser.handle tag slot).BodyEnds setting tags bound := by
        intro state bounded
        cases found : setting.arena.resolve tag slot with
        | error mismatch =>
            refine ⟨.error mismatch, state, .body ?_⟩
            rw [Parser.start, found]
            exact .reply _ _
        | ok other =>
            obtain ⟨result, final, ends⟩ :=
              resolved tag slot other rfl found _ (bounded.record [])
            refine ⟨result, final, .body ?_⟩
            rw [Parser.start, found]
            exact .become ends
      exact ⟨handleEnds, fun _ _ => handleEnds⟩
  | case4 parser notRecording notRetag notHandle =>
      have unwrapped : parser.isWrapper = false := by
        cases parser with
        | retag tag inner => exact (notRetag tag inner rfl).elim
        | recording events inner => exact (notRecording events inner rfl).elim
        | handle tag slot => exact (notHandle tag slot rfl).elim
        | _ => rfl
      refine ⟨steady composed unwrapped, fun name member => ?_⟩
      refine steady (composed.renamed member) ?_
      cases parser with
      | retag tag inner => cases unwrapped
      | _ => exact unwrapped

/-- If all calls end, then all bodies end, because handles do not go in circles. -/
theorem composed_body_ends (arena : setting.arena.Composed (.over tags))
    (acyclic : setting.arena.Acyclic)
    (calls : ∀ parser : Parser ι α, parser.Composed (.over tags) →
      parser.CallEnds setting tags bound)
    {parser : Parser ι α} (composed : parser.Composed (.over tags)) :
    parser.BodyEnds setting tags bound := by
  have behind (slot : Nat) : ∀ tag other, setting.arena.resolve tag slot = .ok other →
      other.BodyEnds setting tags bound := by
    induction acyclic.acc slot with
    | intro slot _ ih =>
        intro tag other found
        refine (body_ends_of_alias arena calls (arena.resolve found) ?_).1
        intro tagToo further last stands foundToo
        exact ih further ⟨tag, other, found, stands⟩ tagToo last foundToo
  exact (body_ends_of_alias arena calls composed fun tag slot other _ => behind slot tag other).1

/-- Every call of the grammar ends in every state of bounded weight. -/
theorem grammar_call_ends (arena : setting.arena.Composed (.over tags))
    (acyclic : setting.arena.Acyclic) (bound : Nat) {parser : Parser ι α}
    (composed : parser.Composed (.over tags)) : parser.CallEnds setting tags bound := by
  induction bound using Nat.strongRecOn generalizing parser with
  | ind bound ih =>
      refine composed_call_ends (arena.mono (Pieces.over_within tags)) ?_ composed
      intro smaller less other composedToo
      exact composed_body_ends arena acyclic (fun _ composed => ih smaller less composed)
        composedToo

end Grammar

/--
Running a parser of a finite grammar from a reachable state ends with a symbol or a mismatch
if the policies limit re-entrancy and no handle is a chain of handles back to itself.
-/
theorem runMatch_terminates (setting : Setting ι α) (tags : Finset Tag)
    (arena : setting.arena.Composed (.over tags)) (acyclic : setting.arena.Acyclic)
    (parser : Parser ι α) (composed : parser.Composed (.over tags)) (state : State α)
    (reachable : Reachable setting.input state) (limited : state.policy.limiter? ≠ none) :
    ∃ steps outcome final, setting.runMatch steps parser state = .done outcome final := by
  obtain ⟨limiter, outermost⟩ := Option.ne_none_iff_exists'.mp limited
  obtain ⟨outcome, final, ends⟩ :=
    grammar_call_ends arena acyclic (weight setting.input tags limiter state.cursor) composed state
      ⟨reachable.sound, limiter, outermost, Nat.le_refl _⟩
  obtain ⟨steps, done⟩ := Setting.runMatch_eq_done_iff.mpr ends
  exact ⟨steps, outcome, final, done⟩

/-- The letters grammar with a handle in the place of `self`. -/
def lettersArena : Arena (Array Char) Unit :=
  .ofParsers [.replaceSelf (.handle ⟨"letters"⟩ 0) 0 letters]

theorem runMatch_terminates_letters :
    ∃ steps outcome final,
      (Setting.mk #['a', 'a'] lettersArena).runMatch steps (.handle ⟨"letters"⟩ 0)
        (.initial .standard) = .done outcome final := by
  have admitted (c : Char) : (letter c).Composed (.over {⟨"letters"⟩}) :=
    .terminal (TokenTerminal.oneToken _ _)
  have named : (Parser.handle ⟨"letters"⟩ 0 : Parser (Array Char) Unit).Composed
      (.over {⟨"letters"⟩}) := .handle 0 (Finset.mem_singleton_self _)
  have composed : lettersArena.Composed (.over {⟨"letters"⟩}) := by
    refine Arena.ofParsers_composed fun parser member => ?_
    rw [List.mem_singleton.mp member]
    exact .replaceSelf named (letters_composed admitted) 0
  have acyclic : lettersArena.Acyclic := by
    refine Arena.acyclic_of_alias_eq_none fun slot parser held => ?_
    rw [List.mem_singleton.mp (Arena.mem_of_held held)]
    rfl
  exact runMatch_terminates (Setting.mk #['a', 'a'] lettersArena) {⟨"letters"⟩} composed acyclic
    (.handle ⟨"letters"⟩ 0) named (.initial .standard)
    (.fresh (Nat.zero_le 2) Policy.standard_fresh) nofun

end Packrat
