import Mathlib.Tactic.Choose
import Packrat.Proofs.DirectRecursion

/-!
# Direct left recursion grows a seed

A directly recursive parser descends into itself until the re-entrancy limit refuses it, and
on the way back every active call runs the body once more with the outcome of the call
inside.  This computes the seed that is grown from the refusal: the body is applied again
and again as long as the match gets longer.  The limit leaves room for as many rounds as
there are positions ahead, and a match cannot get longer more often than that.
-/

namespace Packrat

open Readable (IsBoundary)

variable {ι α : Type}

/-- The candidate if it is a match that ends later than the current outcome, if that is one. -/
def Outcome.grow {σ : Type} (current candidate : Outcome σ) : Outcome σ :=
  match current, candidate with
  | current, .error _ => current
  | .error _, .ok new => .ok new
  | .ok old, .ok new => if old.span.stop < new.span.stop then .ok new else .ok old

/-- The seed after some rounds of growing, with what the body makes of an outcome. -/
def seed {σ : Type} (body : Outcome σ → Outcome σ) (refusal : Outcome σ) : Nat → Outcome σ
  | 0 => body refusal
  | rounds + 1 => (seed body refusal rounds).grow (body (seed body refusal rounds))

theorem Outcome.grow_eq_or {σ : Type} (current candidate : Outcome σ) :
    current.grow candidate = current ∨
      (current.grow candidate = candidate ∧
        ∃ new, candidate = .ok new ∧ ∀ old, current = .ok old → old.span.stop < new.span.stop) := by
  cases candidate with
  | error mismatch => cases current <;> exact .inl rfl
  | ok new =>
      cases current with
      | error mismatch => exact .inr ⟨rfl, new, rfl, nofun⟩
      | ok old =>
          simp only [grow]
          split
          · next longer =>
              refine .inr ⟨rfl, new, rfl, fun other same => ?_⟩
              cases same
              exact longer
          · exact .inl rfl

theorem Outcome.grow_self {σ : Type} (current : Outcome σ) : current.grow current = current := by
  rcases current.grow_eq_or current with same | ⟨same, -⟩ <;> exact same

def Outcome.sealedAs (kind : Kind) (outcome : Outcome (Symbol α)) : Outcome (Sealed α) :=
  outcome.map fun matched => matched.map (Sealed.mk kind)

theorem Outcome.sealed_eq (outcome : Outcome (Symbol α)) :
    outcome.sealed = outcome.sealedAs .general := rfl

/-- Storing an improvement in the memo table grows the outcome. -/
theorem Outcome.grow_of_improves {kind : Kind} {current candidate : Outcome (Symbol α)}
    (improves : Memoizer.improves (current.sealedAs kind) (candidate.sealedAs kind) = true) :
    current.grow candidate = candidate := by
  cases candidate with
  | error mismatch => cases current <;> cases improves
  | ok new =>
      cases current with
      | error mismatch => rfl
      | ok old => exact if_pos (of_decide_eq_true improves)

theorem Outcome.grow_of_not_improves {kind : Kind} {current candidate : Outcome (Symbol α)}
    (improves : Memoizer.improves (current.sealedAs kind) (candidate.sealedAs kind) = false) :
    current.grow candidate = current := by
  cases candidate with
  | error mismatch => cases current <;> rfl
  | ok new =>
      cases current with
      | error mismatch => cases improves
      | ok old => exact if_neg (of_decide_eq_false improves)

section Seeds

variable {σ : Type} {body : Outcome σ → Outcome σ} {refusal : Outcome σ}

/-- A predicate on outcomes that the body keeps holds of every seed. -/
theorem seed_induction {holds : Outcome σ → Prop} (start : holds refusal)
    (keeps : ∀ outcome, holds outcome → holds (body outcome)) (rounds : Nat) :
    holds (seed body refusal rounds) := by
  induction rounds with
  | zero => exact keeps refusal start
  | succ rounds ih =>
      rw [seed]
      rcases Outcome.grow_eq_or (seed body refusal rounds) (body (seed body refusal rounds)) with
        same | ⟨same, -⟩
      · rw [same]
        exact ih
      · rw [same]
        exact keeps _ ih

/-- If the body makes the same of every outcome, then growing ends at once. -/
theorem seed_eq_of_constant {holds : Outcome σ → Prop} (start : holds refusal)
    (keeps : ∀ outcome, holds outcome → holds (body outcome)) {value : Outcome σ}
    (constant : ∀ outcome, holds outcome → body outcome = value) (rounds : Nat) :
    seed body refusal rounds = value := by
  induction rounds with
  | zero => exact constant refusal start
  | succ rounds ih =>
      have held := seed_induction start keeps rounds
      rw [seed, constant _ held, ih, Outcome.grow_self]

/-- Growing stops as soon as a round does not grow the seed. -/
theorem seed_stable {rounds : Nat}
    (stable : seed body refusal (rounds + 1) = seed body refusal rounds) :
    seed body refusal (rounds + 2) = seed body refusal (rounds + 1) := by
  rw [seed, stable]
  exact stable

end Seeds

variable [Input ι] [Readable ι]

/--
There are never more rounds that grow the seed than positions ahead, because every such
round but the first makes a match longer.
-/
theorem seed_fixed {input : ι} {position : Nat} (start : IsBoundary input position)
    {body : Outcome (Symbol α) → Outcome (Symbol α)}
    (keeps : ∀ outcome, outcome.Fits input position → (body outcome).Fits input position)
    (blind : ∀ mismatch other, (∃ cause, body (.error mismatch) = .error cause) →
      ∃ cause, body (.error other) = .error cause) (refusal : Mismatch) :
    seed body (.error refusal) (Input.remaining input position + 1) =
      seed body (.error refusal) (Input.remaining input position) := by
  have fits (rounds : Nat) : (seed body (.error refusal) rounds).Fits input position :=
    seed_induction trivial keeps rounds
  have grows (rounds : Nat) :
      seed body (.error refusal) (rounds + 1) = seed body (.error refusal) rounds ∨
        ∃ matched, seed body (.error refusal) (rounds + 1) = .ok matched ∧
          position + rounds < matched.span.stop := by
    induction rounds with
    | zero =>
        have first := fits 0
        cases made : seed body (.error refusal) 0 with
        | error cause =>
            obtain ⟨other, fails⟩ := blind refusal cause ⟨cause, made⟩
            refine .inl ?_
            rw [seed, made, fails]
            rfl
        | ok old =>
            rw [made] at first
            rw [seed, made]
            rcases Outcome.grow_eq_or (.ok old) (body (.ok old)) with same | ⟨same, new, is, longer⟩
            · exact .inl same
            · exact .inr ⟨new, same.trans is, Nat.lt_of_le_of_lt first.2.1 (longer old rfl)⟩
    | succ rounds ih =>
        rcases ih with stable | ⟨old, made, far⟩
        · exact .inl (seed_stable stable)
        · rw [seed, made]
          rcases Outcome.grow_eq_or (.ok old) (body (.ok old)) with same | ⟨same, new, is, longer⟩
          · exact .inl same
          · exact .inr ⟨new, same.trans is, Nat.lt_of_le_of_lt far (longer old rfl)⟩
  rcases grows (Input.remaining input position) with stable | ⟨matched, made, far⟩
  · exact stable
  · -- A match that ends past the input is impossible.
    have last := fits (Input.remaining input position + 1)
    rw [made] at last
    have inside := Readable.le_size last.2.2
    have before := Readable.le_size start
    unfold Input.remaining at far
    omega

/-- The same, or a mismatch in both cases. -/
def Alike {β : Type} (one other : Except Mismatch β) : Prop :=
  one = other ∨ ∃ mismatch cause, one = .error mismatch ∧ other = .error cause

def Halt.Alike : Halt α → Halt α → Prop
  | .answered one, .answered other => Packrat.Alike one other
  | .replied one, .replied other => Packrat.Alike one other
  | _, _ => False

omit [Input ι] [Readable ι] in
/-- A waiting body goes on in one way after all mismatches, or fails after all. -/
theorem Pending.resume_alike {pending : Pending ι α} {within : Parser ι α → Prop}
    (covered : pending.Over within Finish.Blind) (mismatch other : Mismatch) :
    pending.resume (.error mismatch) = pending.resume (.error other) ∨
      ∃ one two, pending.resume (.error mismatch) = .reply (.error one) ∧
        pending.resume (.error other) = .reply (.error two) := by
  cases pending with
  | finish complete =>
      rcases covered.blind with fails | ⟨symbol, recovers⟩
      · obtain ⟨one, first⟩ := fails mismatch
        obtain ⟨two, second⟩ := fails other
        refine .inr ⟨one, two, ?_, ?_⟩
        · exact congrArg Move.ofFinished first
        · exact congrArg Move.ofFinished second
      · exact .inl (congrArg Move.ofFinished ((recovers mismatch).trans (recovers other).symm))
  | iteration tag item limit taken =>
      simp only [resume, endRepetition]
      split
      · exact .inl rfl
      · cases item.tag with
        | none => exact .inr ⟨_, _, rfl, rfl⟩
        | some name => exact .inl rfl
  | alternative tag alternatives rest => exact .inl rfl
  | firstItem item separator => exact .inl rfl
  | nextItem item separator taken => exact .inl rfl
  | _ => exact .inr ⟨_, _, rfl, rfl⟩

/-- Answers that are alike lead to evaluations that are alike. -/
theorem Evaluates.blind {setting : Setting ι α} {tag : Tag} {body : Parser ι α}
    (composed : body.Composed .untagged) {given givenToo : Call → Option (Outcome (Symbol α))}
    (missing : ∀ call, given call = none → givenToo call = none)
    (alike : ∀ call outcome, given call = some outcome →
      ∃ other, givenToo call = some other ∧ Alike outcome other)
    {height position stop : Nat} {control : Control ι α} {halt : Halt α}
    (evaluates : Evaluates setting given height control position halt stop)
    (covered : control.Over (Parser.Within tag body) Finish.Blind Event.IsCounted) :
    ∃ haltToo, Evaluates setting givenToo height control position haltToo stop ∧
      halt.Alike haltToo := by
  induction evaluates with
  | reply result => exact ⟨_, .reply result, .inl rfl⟩
  | read symbol stop => exact ⟨_, .read symbol stop, .inl rfl⟩
  | become _ ih =>
      obtain ⟨haltToo, evaluates, same⟩ := ih covered.1
      exact ⟨haltToo, .become evaluates, same⟩
  | body _ ih =>
      obtain ⟨haltToo, evaluates, same⟩ := ih (covered.start composed setting _)
      exact ⟨haltToo, .body evaluates, same⟩
  | @resumed _ _ _ _ _ pending outcome _ _ moved callIh moveIh =>
      obtain ⟨called, evaluates, same⟩ := callIh covered.1
      have coveredToo : (pending.resume outcome).Over (Parser.Within tag body) Finish.Blind
          Event.IsCounted := Pending.resume_over Parser.Within.ignoreThen covered.2 outcome
      cases called with
      | replied result => exact same.elim
      | faulted fault => exact same.elim
      | answered other =>
          rcases same with rfl | ⟨mismatch, cause, rfl, rfl⟩
          · obtain ⟨haltToo, evaluatesToo, sameToo⟩ := moveIh coveredToo
            exact ⟨haltToo, .resumed evaluates evaluatesToo, sameToo⟩
          · rcases Pending.resume_alike covered.2 mismatch cause with
              equal | ⟨one, two, first, second⟩
            · obtain ⟨haltToo, evaluatesToo, sameToo⟩ := moveIh coveredToo
              rw [equal] at evaluatesToo
              exact ⟨haltToo, .resumed evaluates evaluatesToo, sameToo⟩
            · rw [first] at moved
              cases moved
              refine ⟨.replied (.error two), .resumed evaluates ?_, .inr ⟨one, two, rfl, rfl⟩⟩
              rw [second]
              exact .reply _
  | answered answer =>
      obtain ⟨other, answerToo, same⟩ := alike _ _ answer
      rcases same with rfl | ⟨mismatch, cause, rfl, rfl⟩
      · exact ⟨_, .answered answerToo, .inl rfl⟩
      · exact ⟨.answered (.error cause), .answered answerToo, .inr ⟨mismatch, cause, rfl, rfl⟩⟩
  | executed unanswered _ sealed ih =>
      obtain ⟨replied, evaluates, same⟩ := ih covered
      cases replied with
      | answered outcome => exact same.elim
      | faulted fault => exact same.elim
      | replied result =>
          rcases same with rfl | ⟨mismatch, cause, rfl, rfl⟩
          · exact ⟨_, .executed (missing _ unanswered) evaluates sealed, .inl rfl⟩
          · cases sealed
            have ends := Evaluates.executed (missing _ unanswered) evaluates
              (rfl : sealResult _ _ _ (.error cause) = .ok (.error cause))
            exact ⟨_, ends, .inr ⟨mismatch, cause, rfl, rfl⟩⟩

/-! ## Calls of the recursive parser -/

def Setting.refusal (setting : Setting ι α) (tag : Tag) (body : Parser ι α) (position : Nat) :
    Outcome (Symbol α) :=
  .error (DepthLimiter.refusal (callAt setting.input position (.recursive tag body)))

section Calls

variable {setting : Setting ι α} {tag : Tag} {body parser : Parser ι α} {state final : State α}
  {outcome : Outcome (Symbol α)} {limiter : DepthLimiter} {memo : Memoizer α}

omit [Readable ι] in
theorem Parser.Refers.key?_eq (refers : Parser.Refers tag body parser) (input : ι)
    (position : Nat) : (callAt input position parser).key? = some ⟨position, tag⟩ := by
  rw [Call.key?, callAt, refers.tag_eq]
  rfl

omit [Readable ι] in
theorem remembered_call (refers : Parser.Refers tag body parser)
    (standard : state.policy.IsStandard limiter memo)
    (granted : limiter.depth ⟨state.cursor, tag⟩ ≤ Input.remaining setting.input state.cursor)
    {value : Outcome (Symbol α)}
    (remembered : memo.find? ⟨state.cursor, tag⟩ = some value.sealed)
    (ends : Ends setting (.call parser) state (.answered outcome) final) :
    outcome = value ∧ ∃ limiterToo, final.policy.IsStandard limiterToo memo := by
  have unrefused : limiter.refuses ⟨state.cursor, tag⟩
      (callAt setting.input state.cursor parser).remaining = false :=
    decide_eq_false (Nat.not_lt.mpr granted)
  obtain ⟨answer, limiterToo, standardToo⟩ :=
    standard.enter_remembered (refers.key?_eq _ _) unrefused remembered
  have answered : Ends setting (.call parser) state _ _ := .answered answer
  rw [refers.kind_eq, settle_general] at answered
  obtain ⟨same, rfl⟩ := ends.unique answered
  exact ⟨Halt.answered.inj same, limiterToo, standardToo⟩

omit [Readable ι] in
theorem refused_call (refers : Parser.Refers tag body parser)
    (standard : state.policy.IsStandard limiter memo)
    (beyond : Input.remaining setting.input state.cursor < limiter.depth ⟨state.cursor, tag⟩)
    (ends : Ends setting (.call parser) state (.answered outcome) final) :
    outcome = setting.refusal tag body state.cursor ∧
      final.policy.IsStandard limiter memo := by
  obtain ⟨answer, standardToo⟩ :=
    standard.enter_refused (refers.key?_eq setting.input _) (decide_eq_true beyond)
  have answered : Ends setting (.call parser) state _ _ := .answered answer
  have same : callAt setting.input state.cursor parser =
      callAt setting.input state.cursor (.recursive tag body) := by
    rw [callAt, refers.tag_eq]
    rfl
  obtain ⟨equal, rfl⟩ := ends.unique answered
  rw [Setting.refusal, ← same]
  exact ⟨Halt.answered.inj equal, standardToo⟩

omit [Readable ι] in
theorem reference_body (refers : Parser.Refers tag body parser) {result : Result α}
    (ends : Ends setting (.body parser) state (.replied result) final) :
    ∃ events called, Ends setting (.call (Parser.unfold tag body)) (state.record events)
      (.answered called) final ∧ result = called.map Match.symbol := by
  induction refers generalizing state with
  | self =>
      cases ends with
      | body ends =>
          cases ends with
          | resumed called moved =>
              cases moved
              exact ⟨[], _, called, rfl⟩
  | recording events _ ih =>
      cases ends with
      | body ends =>
          cases ends with
          | become ends =>
              obtain ⟨eventsToo, called, endsToo, same⟩ := ih ends
              refine ⟨events ++ eventsToo, called, ?_, same⟩
              rw [State.record, List.foldl_append]
              exact endsToo

theorem leave_grows (kind : Kind) {policy : Policy α} (standard : policy.IsStandard limiter memo)
    {call : Call} {key : Key} (tagged : call.key? = some key)
    {current candidate value : Outcome (Symbol α)}
    (remembered : (memo.find? key = none ∧ value = candidate) ∨
      (memo.find? key = some (current.sealedAs kind) ∧ value = current.grow candidate)) :
    (policy.leave call (candidate.sealedAs kind)).outcome = value.sealedAs kind ∧
      ∃ limiterToo memoToo,
        (policy.leave call (candidate.sealedAs kind)).policy.IsStandard limiterToo memoToo ∧
        memoToo.find? key = some (value.sealedAs kind) ∧
        ∀ other, other ≠ key → memoToo.find? other = memo.find? other := by
  have inserted (outcome : Outcome (Sealed α)) :
      (memo.insert key outcome).find? key = some outcome ∧
        ∀ other, other ≠ key → (memo.insert key outcome).find? other = memo.find? other := by
    refine ⟨by rw [Memoizer.find?_insert, if_pos rfl], fun other different => ?_⟩
    rw [Memoizer.find?_insert, if_neg (Ne.symm different)]
  rcases remembered with ⟨missing, rfl⟩ | ⟨found, rfl⟩
  · obtain ⟨returns, limiterToo, left⟩ :=
      standard.leave_stored tagged (by rw [missing]; rfl)
    exact ⟨returns, limiterToo, _, left, inserted _⟩
  · cases improves : Memoizer.improves (current.sealedAs kind) (candidate.sealedAs kind) with
    | true =>
        obtain ⟨returns, limiterToo, left⟩ :=
          standard.leave_stored tagged (by rw [found]; exact improves)
        rw [Outcome.grow_of_improves improves]
        exact ⟨returns, limiterToo, _, left, inserted _⟩
    | false =>
        obtain ⟨returns, limiterToo, left⟩ :=
          standard.leave_kept tagged (by rw [found]; exact improves)
        rw [Outcome.grow_of_not_improves improves]
        rw [found, Memoizer.better] at returns
        simp only [improves, Bool.false_eq_true, if_false] at returns
        exact ⟨returns, limiterToo, memo, left, found, fun _ _ => rfl⟩

end Calls

/-- The stage before any call of the recursive parser at a position or further on. -/
def Stage.outset (table : Nat → Outcome (Symbol α)) (position : Nat) : Stage α :=
  ⟨position, 0, False, table, position⟩

/-- What the body makes of the outcomes of the calls at a position. -/
def Setting.Makes (setting : Setting ι α) (tag : Tag) (body : Parser ι α) (position : Nat)
    (table : Nat → Outcome (Symbol α)) (make : Outcome (Symbol α) → Outcome (Symbol α)) : Prop :=
  ∀ outcome, outcome.Fits setting.input position →
    (make outcome).Fits setting.input position ∧
    ∃ height, Evaluates setting (answering tag (Function.update table position outcome)) height
      (.call (Parser.unfold tag body)) position (.answered (make outcome))
      ((make outcome).landing position)

section Rounds

variable {setting : Setting ι α} {tag : Tag} {body : Parser ι α} {position : Nat}
  {table : Nat → Outcome (Symbol α)} {make : Outcome (Symbol α) → Outcome (Symbol α)}

/-- Calls that are answered from the outset on are answered at any stage further back. -/
theorem Stage.Answers.inward {stage : Stage α} {place : Nat}
    (answers : (Stage.outset table place).Answers setting tag body place)
    (same : ∀ further ≥ place, stage.table further = table further)
    (within : stage.position < place ∨ stage.position = place ∧ stage.depth = 0)
    (low : stage.low ≤ place) : stage.Answers setting tag body place := by
  intro parser state final outcome limiter memo refers sound here standard level ends
  have levelToo : (Stage.outset table place).Level tag limiter memo := by
    refine ⟨?_, ?_, ?_, False.elim⟩
    · rcases within with further | ⟨equal, idle⟩
      · exact level.beyond place further
      · have counted := level.here
        rw [equal, idle] at counted
        exact counted
    · intro further (after : place < further)
      exact level.beyond further (by omega)
    · intro further (after : place ≤ further)
      have agrees := level.agrees further (by omega)
      rw [same further after] at agrees
      exact agrees
  obtain ⟨equal, limiterToo, memoToo, standardToo, gains, kept⟩ :=
    answers parser state final outcome limiter memo refers sound here standard levelToo ends
  refine ⟨?_, limiterToo, memoToo, standardToo, fun further => ?_, fun _ => kept (Nat.le_refl _)⟩
  · rw [equal, same place (Nat.le_refl _)]
    rfl
  · rcases gains further with unchanged | ⟨after, gained⟩
    · exact .inl unchanged
    · refine .inr ⟨low.trans after, ?_⟩
      rw [gained, same further after]
      rfl

theorem sealResult_of_fits {outcome : Outcome (Symbol α)} {call : Call} {input : ι}
    (fits : outcome.Fits input call.position) :
    sealResult call .general (outcome.landing call.position) (outcome.map Match.symbol) =
      .ok outcome.sealed := by
  cases outcome with
  | error mismatch => rfl
  | ok matched =>
      obtain ⟨starts, forward, -⟩ := fits
      have between : Span.between call.position matched.span.stop = .ok matched.span := by
        rw [Span.between, if_pos forward, ← starts]
      change sealResult call .general matched.span.stop (.ok matched.symbol) = _
      rw [sealResult, between]
      rfl

/-- At a stage that is answered at its position, everything from there on is answered. -/
theorem Stage.Answers.onward {stage : Stage α} {current : Outcome (Symbol α)}
    (beyond : ∀ place > stage.position, (Stage.outset table place).Answers setting tag body place)
    (updated : stage.table = Function.update table stage.position current)
    (low : stage.low ≤ stage.position + 1) (here : stage.Answers setting tag body stage.position) :
    ∀ place ≥ stage.position, stage.Answers setting tag body place := by
  intro place after
  rcases Nat.eq_or_lt_of_le after with rfl | later
  · exact here
  · refine (beyond place later).inward (fun further reached => ?_) (.inl later) (low.trans later)
    rw [updated]
    exact Function.update_of_ne (Nat.ne_of_gt (Nat.lt_of_lt_of_le later reached)) _ _

omit [Input ι] [Readable ι] in
/-- One more call at the position leads to the next level, if nothing is remembered of it. -/
theorem Stage.Level.opened {depth low : Nat} {current value : Outcome (Symbol α)}
    {limiter : DepthLimiter} {memo : Memoizer α}
    (level : Stage.Level ⟨position, depth, False, Function.update table position value, position⟩
      tag limiter memo)
    (missing : memo.find? ⟨position, tag⟩ = none) :
    Stage.Level ⟨position, depth + 1, False, Function.update table position current, low⟩ tag
      (limiter.opened ⟨position, tag⟩) memo := by
  refine ⟨?_, fun further after => ?_, fun further after => ?_, False.elim⟩
  · rw [DepthLimiter.depth_opened, if_pos rfl, level.here]
  · have different : (⟨position, tag⟩ : Key) ≠ ⟨further, tag⟩ := by
      intro same
      cases same
      exact Nat.lt_irrefl _ after
    rw [DepthLimiter.depth_opened, if_neg different]
    exact level.beyond further after
  · rcases Nat.eq_or_lt_of_le after with rfl | later
    · exact .inl missing
    · have agrees := level.agrees further after
      simp only [Function.update_of_ne (Nat.ne_of_gt later)] at agrees ⊢
      exact agrees

omit [Input ι] [Readable ι] in
/-- Storing the value of a stage adds to what the stage inside it has gained. -/
theorem Stage.Gains.stored {depth low : Nat} {current value : Outcome (Symbol α)}
    {first middle last : Memoizer α}
    (gains : Stage.Gains ⟨position, depth + 1, False, Function.update table position current, low⟩
      tag first middle)
    (least : position ≤ low) (stored : last.find? ⟨position, tag⟩ = some value.sealed)
    (kept : ∀ other, other ≠ ⟨position, tag⟩ → last.find? other = middle.find? other) :
    Stage.Gains ⟨position, depth, False, Function.update table position value, position⟩ tag
      first last := by
  intro place
  by_cases same : place = position
  · subst same
    refine .inr ⟨Nat.le_refl _, ?_⟩
    simp only [Function.update_self]
    exact stored
  · rw [kept ⟨place, tag⟩ fun equal => same (congrArg Key.position equal)]
    rcases gains place with unchanged | ⟨reached, gained⟩
    · exact .inl unchanged
    · refine .inr ⟨least.trans reached, ?_⟩
      simp only [Function.update_of_ne same] at gained ⊢
      exact gained

/--
What the body has made at the next level, and what is then remembered: nothing, in which case
the body makes the same of everything, or the outcome of the calls at that level.
-/
theorem Stage.Follows.remembered {depth low : Nat} {current called : Outcome (Symbol α)}
    {state final : State α} {memo memoToo : Memoizer α} {limiterToo : DepthLimiter}
    (follows : Stage.Follows
      ⟨position, depth, False, Function.update table position current, low⟩ setting tag
      (.call (Parser.unfold tag body)) state (.answered called) final memo limiterToo memoToo)
    (makes : setting.Makes tag body position table make)
    (fits : current.Fits setting.input position) (here : state.cursor = position)
    (missing : memo.find? ⟨position, tag⟩ = none) :
    called = make current ∧
      ((memoToo.find? ⟨position, tag⟩ = none ∧ (low ≤ position →
        ∀ other, other.Fits setting.input position → make other = make current)) ∨
      (low ≤ position ∧ memoToo.find? ⟨position, tag⟩ = some current.sealed)) := by
  subst here
  obtain ⟨height, evaluates⟩ := follows.evaluates
  obtain ⟨-, heightToo, made⟩ := makes current fits
  cases (evaluates.unique made).1
  refine ⟨rfl, ?_⟩
  rcases follows.gains state.cursor with unchanged | ⟨reached, gained⟩
  · have missingToo := unchanged.trans missing
    refine .inl ⟨missingToo, fun reached other fitsOther => ?_⟩
    obtain ⟨_, evaluatesOther⟩ := follows.needless reached missingToo other
    obtain ⟨-, _, madeOther⟩ := makes other fitsOther
    rw [Function.update_idem] at evaluatesOther
    exact Halt.answered.inj (madeOther.unique evaluatesOther).1
  · simp only [Function.update_self] at gained
    exact .inr ⟨reached, gained⟩

/--
One level of the descent: if the calls at the next level are answered with an outcome, then
the calls at this level are answered with what growing makes of it.
-/
theorem Stage.Answers.grow (arena : setting.arena.Composed .vocabulary)
    (composed : body.Composed .untagged) (makes : setting.Makes tag body position table make)
    (beyond : ∀ place > position, (Stage.outset table place).Answers setting tag body place)
    {depth low : Nat} {current value : Outcome (Symbol α)}
    (granted : depth ≤ Input.remaining setting.input position)
    (fits : current.Fits setting.input position) (least : position ≤ low)
    (most : low ≤ position + 1)
    (inner : Stage.Answers ⟨position, depth + 1, False, Function.update table position current, low⟩
      setting tag body position)
    (needed : low ≤ position → value = current.grow (make current))
    (needless : (low ≤ position → ∀ other, other.Fits setting.input position →
      make other = make current) → value = make current) :
    Stage.Answers ⟨position, depth, False, Function.update table position value, position⟩
      setting tag body position := by
  intro parser state final outcome limiter memo refers sound here standard level ends
  subst here
  have keyed := refers.key?_eq setting.input state.cursor
  have counted : limiter.depth ⟨state.cursor, tag⟩ = depth := level.here
  cases found : memo.find? ⟨state.cursor, tag⟩ with
  | some remembered =>
      have agrees := level.agrees state.cursor (Nat.le_refl _)
      simp only [found, Function.update_self, reduceCtorEq, false_or] at agrees
      rw [agrees] at found
      obtain ⟨same, limiterToo, standardToo⟩ :=
        remembered_call refers standard (by rw [counted]; exact granted) found ends
      have updated : Function.update table state.cursor value state.cursor = value :=
        Function.update_self _ _ _
      refine ⟨same.trans updated.symm, limiterToo, memo, standardToo, .refl _ _ _, ?_⟩
      intro _ missing
      rw [found] at missing
      cases missing
  | none =>
      have unrefused : limiter.refuses ⟨state.cursor, tag⟩
          (callAt setting.input state.cursor parser).remaining = false :=
        decide_eq_false (Nat.not_lt.mpr (by rw [counted]; exact granted))
      obtain ⟨answer, entered⟩ := standard.enter_open keyed unrefused found
      cases ends with
      | answered answerToo =>
          rw [Setting.entry, answer] at answerToo
          cases answerToo
      | executed _ ran sealed =>
          obtain ⟨events, called, ends, rfl⟩ := reference_body refers ran
          have soundToo : ((setting.entered parser state).record events).Sound setting.input :=
            ⟨sound.boundary, (enter_sound sound.remembers).1⟩
          have answers := inner.onward beyond rfl most
          obtain ⟨limiterToo, memoToo, follows⟩ := ends.follows arena composed answers (by simp)
            (Parser.Within.unfold composed) soundToo (Nat.le_refl _) entered (level.opened found)
          obtain ⟨rfl, remembers⟩ := follows.remembered makes fits rfl found
          have regular : (Parser.unfold tag body).Regular :=
            Parser.Within.regular composed (.unfold composed)
          obtain ⟨⟨fitsToo, lands⟩, -⟩ := ends.call_sound arena regular soundToo
          rw [refers.kind_eq, lands] at sealed
          cases sealed.symm.trans (sealResult_of_fits fitsToo)
          have remembered : (memoToo.find? ⟨state.cursor, tag⟩ = none ∧ value = make current) ∨
              (memoToo.find? ⟨state.cursor, tag⟩ = some current.sealed ∧
                value = current.grow (make current)) :=
            remembers.imp (And.imp_right needless) fun both =>
              ⟨both.2, needed both.1⟩
          obtain ⟨returns, limiterLast, memoLast, left, stored, kept⟩ :=
            leave_grows .general follows.standard keyed remembered
          have updated : Function.update table state.cursor value state.cursor = value :=
            Function.update_self _ _ _
          rw [conclude, Outcome.sealed_eq, returns, ← Outcome.sealed_eq value, refers.kind_eq,
            settle_general]
          refine ⟨updated.symm, limiterLast, memoLast, left,
            follows.gains.stored least stored kept, fun _ missing => ?_⟩
          rw [stored] at missing
          cases missing

theorem refused_answers (table : Nat → Outcome (Symbol α)) :
    Stage.Answers ⟨position, Input.remaining setting.input position + 1, False,
      Function.update table position (setting.refusal tag body position), position + 1⟩ setting
        tag body position := by
  intro parser state final outcome limiter memo refers sound here standard level ends
  subst here
  have counted : limiter.depth ⟨state.cursor, tag⟩ =
      Input.remaining setting.input state.cursor + 1 := level.here
  obtain ⟨refused, standardToo⟩ :=
    refused_call refers standard (by rw [counted]; exact Nat.lt_succ_self _) ends
  have updated := Function.update_self state.cursor outcome table
  rw [refused] at updated
  refine ⟨refused.trans updated.symm, limiter, memo, standardToo, .refl _ _ _, ?_⟩
  exact fun reached => absurd reached (Nat.not_succ_le_self _)

/-- At every level of the descent the calls are answered with the seed after some rounds. -/
theorem seed_answers (arena : setting.arena.Composed .vocabulary)
    (composed : body.Composed .untagged) (makes : setting.Makes tag body position table make)
    (beyond : ∀ place > position, (Stage.outset table place).Answers setting tag body place)
    {rounds : Nat} (few : rounds ≤ Input.remaining setting.input position) :
    Stage.Answers ⟨position, Input.remaining setting.input position - rounds, False,
      Function.update table position (seed make (setting.refusal tag body position) rounds),
      position⟩ setting tag body position := by
  have keeps (outcome : Outcome (Symbol α)) (fits : outcome.Fits setting.input position) :=
    (makes outcome fits).1
  have start : (setting.refusal tag body position).Fits setting.input position := trivial
  induction rounds with
  | zero =>
      refine Stage.Answers.grow arena composed makes beyond (Nat.le_refl _) start
        (Nat.le_succ _) (Nat.le_refl _) (refused_answers table) (fun reached => ?_) fun _ => rfl
      exact absurd reached (Nat.not_succ_le_self _)
  | succ rounds ih =>
      have inner := ih (Nat.le_of_succ_le few)
      have deeper : Input.remaining setting.input position - rounds =
          Input.remaining setting.input position - (rounds + 1) + 1 := by omega
      rw [deeper] at inner
      refine Stage.Answers.grow arena composed makes beyond (Nat.sub_le _ _)
        (seed_induction start keeps rounds) (Nat.le_refl _) (Nat.le_succ _) inner
        (fun _ => rfl) fun constant => ?_
      exact seed_eq_of_constant start keeps (constant (Nat.le_refl _)) (rounds + 1)

/-- A run of the body, in which its calls at the position are answered from memory. -/
theorem body_made (arena : setting.arena.Composed .vocabulary)
    (composed : body.Composed .untagged)
    (beyond : ∀ place > position, (Stage.outset table place).Answers setting tag body place)
    {answer outcome : Outcome (Symbol α)} {state final : State α}
    (sound : state.Sound setting.input) (here : state.cursor = position)
    {limiter : DepthLimiter} {memo : Memoizer α}
    (standard : state.policy.IsStandard limiter memo)
    (level : Stage.Level ⟨position, 0, True, Function.update table position answer, position⟩ tag
      limiter memo)
    (ends : Ends setting (.call (Parser.unfold tag body)) state (.answered outcome) final) :
    outcome.Fits setting.input position ∧
    ∃ height, Evaluates setting (answering tag (Function.update table position answer)) height
      (.call (Parser.unfold tag body)) position (.answered outcome)
      (outcome.landing position) := by
  subst here
  let stage : Stage α :=
    ⟨state.cursor, 0, True, Function.update table state.cursor answer, state.cursor⟩
  have here : stage.Answers setting tag body stage.position := by
    intro parser state final outcome limiter memo refers _ here standard level ends
    have remembered : memo.find? ⟨stage.position, tag⟩ =
        some (stage.table stage.position).sealed :=
      (level.agrees stage.position (Nat.le_refl _)).resolve_left (level.starts trivial)
    rw [← here] at remembered
    have counted : limiter.depth ⟨state.cursor, tag⟩ = 0 := by
      rw [here]
      exact level.here
    obtain ⟨same, limiterToo, standardToo⟩ :=
      remembered_call refers standard (by rw [counted]; exact Nat.zero_le _) remembered ends
    rw [here] at same
    exact ⟨same, limiterToo, memo, standardToo, .refl _ _ _, fun _ => level.starts trivial⟩
  have answers := here.onward beyond rfl (Nat.le_succ _)
  obtain ⟨_, _, follows⟩ := ends.follows arena composed answers (by simp) (.unfold composed)
    sound (Nat.le_refl _) standard level
  obtain ⟨⟨fits, lands⟩, -⟩ :=
    ends.call_sound arena (Parser.Within.regular composed (.unfold composed)) sound
  obtain ⟨height, evaluates⟩ := follows.evaluates
  rw [lands] at evaluates
  exact ⟨fits, height, evaluates⟩

end Rounds

/-! ## The whole descent -/

omit [Input ι] [Readable ι] in
theorem level_of_insert {tag : Tag} {limiter : DepthLimiter} {memo : Memoizer α}
    (inactive : ∀ place, limiter.depth ⟨place, tag⟩ = 0)
    (unremembered : ∀ place, memo.find? ⟨place, tag⟩ = none) (position : Nat)
    (table : Nat → Outcome (Symbol α)) (answer : Outcome (Symbol α)) :
    Stage.Level ⟨position, 0, True, Function.update table position answer, position⟩ tag limiter
      (memo.insert ⟨position, tag⟩ answer.sealed) := by
  have inserted : (memo.insert ⟨position, tag⟩ answer.sealed).find? ⟨position, tag⟩ =
      some answer.sealed := by
    rw [Memoizer.find?_insert, if_pos rfl]
  refine ⟨inactive position, fun place _ => inactive place, fun place _ => ?_, fun _ => ?_⟩
  · by_cases same : place = position
    · have updated := Function.update_self position answer table
      rw [same]
      exact .inr (inserted.trans (congrArg (some ·.sealed) updated.symm))
    · have different : (⟨position, tag⟩ : Key) ≠ ⟨place, tag⟩ := fun equal =>
        same (congrArg Key.position equal).symm
      rw [Memoizer.find?_insert, if_neg different]
      exact .inl (unremembered place)
  · rw [inserted]
    exact nofun

theorem Outcome.fits_sealed {input : ι} {position : Nat} {outcome : Outcome (Symbol α)} :
    outcome.sealed.Fits input position ↔ outcome.Fits input position := by
  cases outcome <;> exact Iff.rfl

theorem sound_of_insert {input : ι} {position : Nat} {tracer : Tracer} {limiter : DepthLimiter}
    {memo : Memoizer α} {journal : List Event}
    (sound : State.Sound input
      ⟨position, .standardWith tracer limiter memo, journal⟩)
    {answer : Outcome (Symbol α)} (fits : answer.Fits input position) (tag : Tag) :
    State.Sound input
      ⟨position, .standardWith tracer limiter (memo.insert ⟨position, tag⟩ answer.sealed),
        journal⟩ :=
  ⟨sound.boundary, trivial, trivial,
    sound.remembers.2.2.insert (Outcome.fits_sealed.mpr fits)⟩

omit [Input ι] [Readable ι] in
theorem answering_alike (tag : Tag) (table : Nat → Outcome (Symbol α)) (position : Nat)
    (mismatch other : Mismatch) (call : Call) (outcome : Outcome (Symbol α))
    (given : answering tag (Function.update table position (.error mismatch)) call =
      some outcome) :
    ∃ another, answering tag (Function.update table position (.error other)) call =
      some another ∧ Alike outcome another := by
  unfold answering at given ⊢
  split at given
  · next tagged =>
      cases given
      refine ⟨_, if_pos tagged, ?_⟩
      by_cases here : call.position = position
      · rw [here, Function.update_self, Function.update_self]
        exact .inr ⟨mismatch, other, rfl, rfl⟩
      · rw [Function.update_of_ne here, Function.update_of_ne here]
        exact .inl rfl
  · cases given

omit [Input ι] [Readable ι] in
theorem answering_missing (tag : Tag) (table tableToo : Nat → Outcome (Symbol α)) (call : Call)
    (missing : answering tag table call = none) : answering tag tableToo call = none := by
  unfold answering at missing ⊢
  split at missing
  · cases missing
  · next untagged => rw [if_neg untagged]

theorem Setting.Makes.blind {setting : Setting ι α} {tag : Tag} {body : Parser ι α}
    (composed : body.Composed .untagged) {position : Nat} {table : Nat → Outcome (Symbol α)}
    {make : Outcome (Symbol α) → Outcome (Symbol α)}
    (makes : setting.Makes tag body position table make) (mismatch other : Mismatch)
    (fails : ∃ cause, make (.error mismatch) = .error cause) :
    ∃ cause, make (.error other) = .error cause := by
  obtain ⟨cause, failed⟩ := fails
  obtain ⟨-, height, evaluates⟩ := makes (.error mismatch) trivial
  obtain ⟨-, heightToo, evaluatesToo⟩ := makes (.error other) trivial
  obtain ⟨halt, blindly, alike⟩ := evaluates.blind composed
    (answering_missing tag _ (Function.update table position (.error other)))
    (answering_alike tag table position mismatch other) (Parser.Within.unfold composed)
  obtain ⟨rfl, -⟩ := blindly.unique evaluatesToo
  rw [failed] at alike
  rcases alike with same | ⟨_, causeToo, -, failedToo⟩
  · exact ⟨cause, same.symm⟩
  · exact ⟨causeToo, failedToo⟩

section Descent

variable {setting : Setting ι α} {tag : Tag} {body : Parser ι α}

theorem Parser.Composed.unfold_over (composed : body.Composed .untagged) :
    (Parser.unfold tag body).Composed (.over {tag}) :=
  Parser.Within.composed composed (.unfold composed)

/-- There is a way in which the body makes outcomes of the outcomes at a position. -/
theorem exists_makes (arena : setting.arena.Composed (.over {tag}))
    (acyclic : setting.arena.Acyclic) (composed : body.Composed .untagged) {position : Nat}
    (start : IsBoundary setting.input position) {table : Nat → Outcome (Symbol α)}
    (beyond : ∀ place > position, (Stage.outset table place).Answers setting tag body place) :
    ∃ make, setting.Makes tag body position table make := by
  have each (answer : Outcome (Symbol α)) :
      ∃ made : Outcome (Symbol α), answer.Fits setting.input position →
        made.Fits setting.input position ∧
        ∃ height, Evaluates setting (answering tag (Function.update table position answer)) height
          (.call (Parser.unfold tag body)) position (.answered made)
          (made.landing position) := by
    by_cases fits : answer.Fits setting.input position
    · have sound : State.Sound setting.input (⟨position, .standard, []⟩ : State α) :=
        ⟨start, Policy.standard_fresh.remembers _⟩
      have soundToo := sound_of_insert sound fits tag
      obtain ⟨made, final, ends⟩ := grammar_call_ends arena acyclic _
        composed.unfold_over _ ⟨soundToo, .empty, rfl, Nat.le_refl _⟩
      refine ⟨made, fun _ => ?_⟩
      exact body_made (arena.mono (Pieces.over_within {tag})) composed beyond soundToo rfl ⟨_, rfl⟩
        (level_of_insert (fun _ => DepthLimiter.depth_empty _) (fun _ => Memoizer.find?_empty _)
          position table answer) ends
    · exact ⟨answer, fun given => absurd given fits⟩
  choose make makes using each
  exact ⟨make, makes⟩

theorem answers_of_not_boundary {place : Nat} (outside : ¬ IsBoundary setting.input place)
    (stage : Stage α) : stage.Answers setting tag body place := by
  intro parser state final outcome limiter memo refers sound here
  rw [← here] at outside
  exact absurd sound.boundary outside

/-- The calls of the recursive parser near the end of the input are answered from a table. -/
theorem exists_table (arena : setting.arena.Composed (.over {tag}))
    (acyclic : setting.arena.Acyclic) (composed : body.Composed .untagged) (room : Nat) :
    ∃ table : Nat → Outcome (Symbol α), ∀ place, Input.size setting.input < place + room →
      (Stage.outset table place).Answers setting tag body place := by
  have vocabulary := arena.mono (Pieces.over_within {tag})
  induction room with
  | zero =>
      refine ⟨fun _ => .error .empty, fun place outside => answers_of_not_boundary ?_ _⟩
      exact fun boundary => Nat.not_le_of_lt outside (Readable.le_size boundary)
  | succ room ih =>
      obtain ⟨table, answers⟩ := ih
      by_cases start : ∃ position, position + room = Input.size setting.input ∧
          IsBoundary setting.input position
      · obtain ⟨position, reached, start⟩ := start
        have beyond : ∀ place > position,
            (Stage.outset table place).Answers setting tag body place :=
          fun place after => answers place (by omega)
        obtain ⟨make, makes⟩ := exists_makes arena acyclic composed start beyond
        obtain ⟨grown, answered⟩ : ∃ grown, (Stage.outset (Function.update table position grown)
            position).Answers setting tag body position := by
          have answered := seed_answers vocabulary composed makes beyond
            (Nat.le_refl (Input.remaining setting.input position))
          rw [Nat.sub_self] at answered
          exact ⟨_, answered⟩
        refine ⟨Function.update table position grown, fun place inside => ?_⟩
        rcases Nat.lt_trichotomy place position with before | rfl | after
        · omega
        · exact answered
        · refine (beyond place after).inward (fun further later => ?_) (.inr ⟨rfl, rfl⟩)
            (Nat.le_refl _)
          exact Function.update_of_ne (Nat.ne_of_gt (Nat.lt_of_lt_of_le after later)) _ _
      · refine ⟨table, fun place inside => ?_⟩
        by_cases further : Input.size setting.input < place + room
        · exact answers place further
        · exact answers_of_not_boundary (fun boundary => start ⟨place, by omega, boundary⟩) _

end Descent

section Elsewhere

variable {tag : Tag} {body : Parser ι α}

theorem Parser.Within.start_eq {parser : Parser ι α} (within : Parser.Within tag body parser)
    (input : ι) (arena other : Arena ι α) (state : State α) :
    parser.start ⟨input, arena⟩ state = parser.start ⟨input, other⟩ state := by
  obtain ⟨shape, composed, rfl⟩ := within
  cases composed with
  | self level =>
      rw [replaceSelf]
      split <;> rfl
  | handle _ named => exact named.elim
  | _ => rfl

/-- Whatever is within the recursive parser ends in the same way with any other arena. -/
theorem Ends.elsewhere (composed : body.Composed .untagged) {input : ι} {arena : Arena ι α}
    {control : Control ι α} {state final : State α} {halt : Halt α}
    (ends : Ends ⟨input, arena⟩ control state halt final)
    (covered : control.Over (Parser.Within tag body) Finish.Blind Event.IsCounted)
    (other : Arena ι α) : Ends ⟨input, other⟩ control state halt final := by
  induction ends with
  | reply result state => exact .reply result state
  | read symbol stop state => exact .read symbol stop state
  | abort fault state => exact .abort fault state
  | become _ ih => exact .become (ih covered.1)
  | @body parser state _ _ _ ih =>
      refine .body ?_
      rw [covered.start_eq input other arena]
      exact ih (covered.start composed _ state)
  | resumed _ _ callIh moveIh =>
      exact .resumed (callIh covered.1)
        (moveIh (Pending.resume_over Parser.Within.ignoreThen covered.2 _))
  | lost _ ih => exact .lost (ih covered.1)
  | answered answer => exact .answered answer
  | executed answer _ sealed ih => exact .executed answer (ih covered) sealed
  | unsealed answer _ sealed ih => exact .unsealed answer (ih covered) sealed
  | broken answer _ ih => exact .broken answer (ih covered)

end Elsewhere

/--
Run a recursive parser whose body is untagged apart from its references to the parser, on a
standard engine that remembers nothing of its tag and on which no call of it is active.  The
run ends with the seed that is grown in as many rounds as there are positions ahead, where
the body is run with the outcome of the parser's own calls at the position remembered, and
another round would not grow that seed.  What the body makes is determined on all seeds,
since it makes fitting outcomes of fitting ones and the refusal fits.
-/
theorem runMatch_recursive_eq_seed (setting : Setting ι α) (tag : Tag) (body : Parser ι α)
    (composed : body.Composed .untagged) (position : Nat) (tracer : Tracer)
    (limiter : DepthLimiter) (memo : Memoizer α) (journal : List Event)
    (reachable : Reachable setting.input
      ⟨position, .standardWith tracer limiter memo, journal⟩)
    (unremembered : ∀ place, memo.find? ⟨place, tag⟩ = none)
    (inactive : ∀ place, limiter.depth ⟨place, tag⟩ = 0) :
    ∃ make : Outcome (Symbol α) → Outcome (Symbol α),
      (∀ outcome, outcome.Fits setting.input position →
        (make outcome).Fits setting.input position ∧ ∃ steps final,
          setting.runMatch steps (Parser.unfold tag body)
            ⟨position, .standardWith tracer limiter (memo.insert ⟨position, tag⟩ outcome.sealed),
              journal⟩ = .done (make outcome) final) ∧
      (∃ steps final,
        setting.runMatch steps (.recursive tag body)
          ⟨position, .standardWith tracer limiter memo, journal⟩ =
          .done (seed make (setting.refusal tag body position)
            (Input.remaining setting.input position)) final) ∧
      seed make (setting.refusal tag body position)
          (Input.remaining setting.input position + 1) =
        seed make (setting.refusal tag body position)
          (Input.remaining setting.input position) := by
  let bare : Setting ι α := ⟨setting.input, .empty⟩
  have arena : bare.arena.Composed (.over {tag}) := Arena.empty_composed _
  have start := reachable.sound.boundary
  obtain ⟨table, answers⟩ := exists_table arena Arena.empty_acyclic composed
    (Input.size setting.input + 1)
  have beyond : ∀ place > position,
      (Stage.outset table place).Answers bare tag body place :=
    fun place after => answers place (Nat.lt_of_lt_of_le (Nat.lt_succ_self _) (Nat.le_add_left _ _))
  obtain ⟨make, makes⟩ := exists_makes arena Arena.empty_acyclic composed start beyond
  have vocabulary := arena.mono (Pieces.over_within {tag})
  refine ⟨make, fun answer fits => ?_, ?_, ?_⟩
  · have sound := sound_of_insert reachable.sound fits tag
    obtain ⟨made, final, ends⟩ := grammar_call_ends arena Arena.empty_acyclic _
      composed.unfold_over _ ⟨sound, limiter, rfl, Nat.le_refl _⟩
    obtain ⟨-, _, evaluates⟩ := body_made vocabulary composed beyond sound rfl ⟨tracer, rfl⟩
      (level_of_insert inactive unremembered position table answer) ends
    obtain ⟨fitsToo, _, evaluatesToo⟩ := makes answer fits
    cases (evaluates.unique evaluatesToo).1
    obtain ⟨steps, done⟩ := Setting.runMatch_eq_done_iff.mpr
      (ends.elsewhere composed (.unfold composed) setting.arena)
    exact ⟨fitsToo, steps, final, done⟩
  · have whole : Parser.Within tag body (.recursive tag body) := .self
    obtain ⟨outcome, final, ends⟩ := grammar_call_ends arena Arena.empty_acyclic _
      (whole.composed composed) _ ⟨reachable.sound, limiter, rfl, Nat.le_refl _⟩
    have answered := seed_answers vocabulary composed makes beyond
      (Nat.le_refl (Input.remaining setting.input position))
    rw [Nat.sub_self] at answered
    obtain ⟨same, -⟩ := answered _ _ final outcome limiter memo .self reachable.sound rfl
      ⟨tracer, rfl⟩ ⟨inactive position, fun place _ => inactive place,
        fun place _ => .inl (unremembered place), False.elim⟩ ends
    obtain ⟨steps, done⟩ := Setting.runMatch_eq_done_iff.mpr
      (ends.elsewhere composed whole setting.arena)
    refine ⟨steps, final, done.trans ?_⟩
    rw [same]
    exact congrArg (Run.done · final) (Function.update_self _ _ _)
  · exact seed_fixed start (fun outcome fits => (makes outcome fits).1) (makes.blind composed) _

theorem runMatch_recursive_eq_seed_letters :
    ∃ make : Outcome (Symbol Unit) → Outcome (Symbol Unit),
      (∀ outcome, outcome.Fits #['a', 'a'] 0 →
        (make outcome).Fits #['a', 'a'] 0 ∧ ∃ steps final,
          (Setting.mk #['a', 'a'] .empty).runMatch steps (Parser.unfold ⟨"letters"⟩ letters)
            ⟨0, .standardWith .empty .empty
              (Memoizer.empty.insert ⟨0, ⟨"letters"⟩⟩ outcome.sealed), []⟩ =
            .done (make outcome) final) ∧
      (∃ steps final,
        (Setting.mk #['a', 'a'] .empty).runMatch steps (.recursive ⟨"letters"⟩ letters)
          (.initial .standard) =
          .done (seed make
            ((Setting.mk #['a', 'a'] .empty).refusal ⟨"letters"⟩ letters 0) 2) final) ∧
      seed make ((Setting.mk #['a', 'a'] .empty).refusal ⟨"letters"⟩ letters 0) 3 =
        seed make ((Setting.mk #['a', 'a'] .empty).refusal ⟨"letters"⟩ letters 0) 2 := by
  have composed : letters.Composed .untagged :=
    letters_composed fun c => .terminal (TokenTerminal.oneToken _ _)
  exact runMatch_recursive_eq_seed (Setting.mk #['a', 'a'] .empty) ⟨"letters"⟩ letters composed
    0 .empty .empty .empty [] (.fresh (Nat.zero_le 2) Policy.standard_fresh)
    (fun _ => Memoizer.find?_empty _) fun _ => DepthLimiter.depth_empty _

end Packrat
