import Packrat.Proofs.PlainEvaluation
import Packrat.Proofs.StandardChain
import Packrat.Proofs.Termination

/-!
# Direct recursion under the standard chain

A directly recursive parser is the only tagged parser that its body calls.  While a call of
it is active at a position, its calls at that position are answered in one way as long as
the level does not change, and its calls further on by what it matches there.  Whatever a
body does at such a level is therefore its plain evaluation with those answers given.
-/

namespace Packrat

open Readable (IsBoundary)

variable {ι α : Type}

/-- The pieces of a body without tags, whose finishing steps do not look at mismatches. -/
def Pieces.untagged [Input ι] [Readable ι] : Pieces ι α where
  terminal := Readable.IsTerminal
  finish := Finish.Blind
  tag _ := False
  event := Event.IsCounted

/-- The parser is the recursive one, seen from outside. -/
inductive Parser.Refers (tag : Tag) (body : Parser ι α) : Parser ι α → Prop where
  | self : Refers tag body (.recursive tag body)
  | recording (events : List Event) {inner : Parser ι α} :
      Refers tag body inner → Refers tag body (.recording events inner)

namespace Parser.Refers

variable {tag : Tag} {body parser : Parser ι α}

theorem tag_eq (refers : Refers tag body parser) : parser.tag = some tag := by
  induction refers with
  | self => rfl
  | recording _ _ ih => exact ih

theorem kind_eq (refers : Refers tag body parser) : parser.kind = .general := by
  induction refers with
  | self => rfl
  | recording _ _ ih => exact ih

end Parser.Refers

variable [Input ι] [Readable ι]

def Parser.Within (tag : Tag) (body parser : Parser ι α) : Prop :=
  ∃ shape : Parser ι α, shape.Composed .untagged ∧
    parser = replaceSelf (.recursive tag body) 0 shape

namespace Parser.Within

variable {tag : Tag} {body parser : Parser ι α}

theorem ignoreThen {first second : Parser ι α} (within : Within tag body first)
    (withinToo : Within tag body second) : Within tag body (first.ignoreThen second) := by
  obtain ⟨shape, composed, rfl⟩ := within
  obtain ⟨other, composedToo, rfl⟩ := withinToo
  exact ⟨shape.ignoreThen other, composed.ignoreThen composedToo, rfl⟩

theorem unfold (composed : body.Composed .untagged) :
    Within tag body (Parser.unfold tag body) :=
  ⟨body, composed, rfl⟩

theorem self : Within tag body (.recursive tag body) :=
  ⟨.self 0, .self 0, rfl⟩

theorem tag_eq (within : Within tag body parser) :
    parser.tag = none ∨ Refers tag body parser := by
  obtain ⟨shape, composed, rfl⟩ := within
  have untagged {name : Option Tag} (named : ∀ tag ∈ name, False) : name = none :=
    Option.eq_none_iff_forall_not_mem.mpr named
  induction composed with
  | wrap named _ _ _ => exact .inl (untagged named)
  | repetition limit named _ _ => exact .inl (untagged named)
  | separated named _ _ _ _ => exact .inl (untagged named)
  | choice named _ _ => exact .inl (untagged named)
  | recording _ _ ih => exact ih.imp id (.recording _)
  | self level =>
      rw [replaceSelf]
      split
      · exact .inr .self
      · exact .inl rfl
  | retag named _ _ => exact named.elim
  | recursive named _ _ => exact named.elim
  | handle _ named => exact named.elim
  | _ => exact .inl rfl

theorem composed (body_composed : body.Composed .untagged) (within : Within tag body parser) :
    parser.Composed (.over {tag}) := by
  have less : (Pieces.untagged : Pieces ι α).Within (.over {tag}) :=
    ⟨id, Finish.Blind.total, False.elim, id⟩
  obtain ⟨shape, shape_composed, rfl⟩ := within
  exact Parser.Composed.replaceSelf
    (.recursive (Finset.mem_singleton_self tag) (body_composed.mono less))
    (shape_composed.mono less) 0

theorem regular (body_composed : body.Composed .untagged) (within : Within tag body parser) :
    parser.Regular :=
  (within.composed body_composed).regular

theorem start (body_composed : body.Composed .untagged) (within : Within tag body parser)
    (setting : Setting ι α) (state : State α) :
    (parser.start setting state).Over (Parser.Within tag body) Finish.Blind
      Event.IsCounted := by
  obtain ⟨shape, composed, rfl⟩ := within
  cases composed with
  | terminal _ => exact start_terminal_over setting state _ _
  | answer look => trivial
  | wrap _ inner blind => exact ⟨⟨_, inner, rfl⟩, blind⟩
  | both combine first second => exact ⟨⟨_, first, rfl⟩, ⟨_, second, rfl⟩⟩
  | andThen first next => exact ⟨⟨_, first, rfl⟩, fun symbol => ⟨_, next symbol, rfl⟩⟩
  | repetition limit _ item => exact continueRepetition_over ⟨_, item, rfl⟩
  | separated _ item separator =>
      exact ⟨⟨_, item, rfl⟩, ⟨_, item, rfl⟩, ⟨_, separator, rfl⟩⟩
  | choice _ alternatives =>
      rw [replaceSelf, replaceSelfAll_eq_map]
      refine tryAlternatives_over fun parser member => ?_
      obtain ⟨alternative, memberToo, rfl⟩ := List.mem_map.mp member
      exact ⟨alternative, alternatives alternative memberToo, rfl⟩
  | recording recorded inner => exact ⟨⟨_, inner, rfl⟩, recorded⟩
  | self level =>
      rw [replaceSelf]
      split
      · exact ⟨unfold body_composed, trivial⟩
      · trivial
  | retag named _ => exact named.elim
  | recursive named _ => exact named.elim
  | handle _ named => exact named.elim

end Parser.Within

/-! ## Levels -/

section Levels

omit [Input ι] [Readable ι]

def Outcome.sealed (outcome : Outcome (Symbol α)) : Outcome (Sealed α) :=
  outcome.map fun matched => matched.map (Sealed.mk .general)

theorem settle_general (call : Call) (outcome : Outcome (Symbol α)) (state : State α) :
    settle call .general outcome.sealed state =
      (outcome, state.moveTo (outcome.landing call.position)) := by
  cases outcome <;> rfl

def answering (tag : Tag) (table : Nat → Outcome (Symbol α)) (call : Call) :
    Option (Outcome (Symbol α)) :=
  if call.tag = some tag then some (table call.position) else none

/--
A stage of a descent at a position: so many calls are active there, an outcome is remembered
there from the start or not, calls from there on are answered from a table, and what is
remembered from a low position on may come from that table.
-/
structure Stage (α : Type) where
  position : Nat
  depth : Nat
  seeded : Prop
  table : Nat → Outcome (Symbol α)
  low : Nat

structure Stage.Level (stage : Stage α) (tag : Tag) (limiter : DepthLimiter)
    (memo : Memoizer α) : Prop where
  here : limiter.depth ⟨stage.position, tag⟩ = stage.depth
  beyond : ∀ further > stage.position, limiter.depth ⟨further, tag⟩ = 0
  agrees : ∀ further ≥ stage.position, memo.find? ⟨further, tag⟩ = none ∨
    memo.find? ⟨further, tag⟩ = some (stage.table further).sealed
  starts : stage.seeded → memo.find? ⟨stage.position, tag⟩ ≠ none

/-- What a memo table has gained for a tag comes from the table of a stage. -/
def Stage.Gains (stage : Stage α) (tag : Tag) (before after : Memoizer α) : Prop :=
  ∀ position, after.find? ⟨position, tag⟩ = before.find? ⟨position, tag⟩ ∨
    stage.low ≤ position ∧ after.find? ⟨position, tag⟩ = some (stage.table position).sealed

namespace Stage

variable {stage : Stage α} {tag : Tag} {first middle last : Memoizer α}

theorem Gains.refl (stage : Stage α) (tag : Tag) (memo : Memoizer α) :
    stage.Gains tag memo memo := fun _ => .inl rfl

theorem Gains.trans (gains : stage.Gains tag first middle)
    (gainsToo : stage.Gains tag middle last) : stage.Gains tag first last := by
  intro position
  rcases gainsToo position with same | gained
  · rw [same]
    exact gains position
  · exact .inr gained

theorem Gains.eq_none (gains : stage.Gains tag first last) {position : Nat}
    (missing : last.find? ⟨position, tag⟩ = none) : first.find? ⟨position, tag⟩ = none := by
  rcases gains position with same | ⟨-, gained⟩
  · rw [← same, missing]
  · rw [missing] at gained
    cases gained

theorem Level.gains {limiter further : DepthLimiter} (level : stage.Level tag limiter first)
    (same : ∀ key, further.depth key = limiter.depth key) (gains : stage.Gains tag first last) :
    stage.Level tag further last where
  here := by rw [same, level.here]
  beyond place after := by rw [same, level.beyond place after]
  agrees place after := by
    rcases gains place with kept | ⟨-, gained⟩
    · rw [kept]
      exact level.agrees place after
    · exact .inr gained
  starts seeded missing := level.starts seeded (gains.eq_none missing)

end Stage

end Levels

/-- At a stage the calls of the recursive parser at a place are answered from the table. -/
def Stage.Answers (stage : Stage α) (setting : Setting ι α) (tag : Tag) (body : Parser ι α)
    (place : Nat) : Prop :=
  ∀ (parser : Parser ι α) (state final : State α) (outcome : Outcome (Symbol α))
    (limiter : DepthLimiter) (memo : Memoizer α),
    Parser.Refers tag body parser → state.Sound setting.input → state.cursor = place →
    state.policy.IsStandard limiter memo → stage.Level tag limiter memo →
    Ends setting (.call parser) state (.answered outcome) final →
    outcome = stage.table place ∧ ∃ limiterToo memoToo,
      final.policy.IsStandard limiterToo memoToo ∧ stage.Gains tag memo memoToo ∧
      (stage.low ≤ place → memoToo.find? ⟨place, tag⟩ ≠ none)

/--
What a control has done at a stage: the level is kept, and the control ended as its plain
evaluation does.  If nothing is remembered at the position, no call there was ever needed.
-/
structure Stage.Follows (stage : Stage α) (setting : Setting ι α) (tag : Tag)
    (control : Control ι α) (state : State α) (halt : Halt α) (final : State α)
    (memo : Memoizer α) (limiterToo : DepthLimiter) (memoToo : Memoizer α) : Prop where
  standard : final.policy.IsStandard limiterToo memoToo
  level : stage.Level tag limiterToo memoToo
  gains : stage.Gains tag memo memoToo
  evaluates : ∃ height,
    Evaluates setting (answering tag stage.table) height control state.cursor halt final.cursor
  needless : stage.low ≤ stage.position → memoToo.find? ⟨stage.position, tag⟩ = none →
    ∀ other, ∃ height,
      Evaluates setting (answering tag (Function.update stage.table stage.position other)) height
        control state.cursor halt final.cursor

section AtStage

variable {setting : Setting ι α} {tag : Tag} {body : Parser ι α} {stage : Stage α}

omit [Readable ι] in
theorem answering_of_tagged {table : Nat → Outcome (Symbol α)} {parser : Parser ι α}
    (tagged : parser.tag = some tag) (input : ι) (cursor : Nat) :
    answering tag table (callAt input cursor parser) = some (table cursor) :=
  if_pos tagged

omit [Readable ι] in
theorem answering_of_untagged {table : Nat → Outcome (Symbol α)} {parser : Parser ι α}
    (untagged : parser.tag = none) (input : ι) (cursor : Nat) :
    answering tag table (callAt input cursor parser) = none :=
  if_neg (by simp [callAt, untagged])

omit [Readable ι] in
theorem Stage.Follows.lift {control other : Control ι α} {state start final last : State α}
    {halt ending : Halt α} {memo memoToo : Memoizer α} {limiterToo : DepthLimiter}
    (follows : stage.Follows setting tag control state halt final memo limiterToo memoToo)
    (standard : last.policy.IsStandard limiterToo memoToo)
    (evaluates : ∀ table height,
      Evaluates setting (answering tag table) height control state.cursor halt final.cursor →
      ∃ further, Evaluates setting (answering tag table) further other start.cursor ending
        last.cursor) :
    stage.Follows setting tag other start ending last memo limiterToo memoToo where
  standard := standard
  level := follows.level
  gains := follows.gains
  evaluates := by
    obtain ⟨height, done⟩ := follows.evaluates
    exact evaluates _ height done
  needless reached missing answer := by
    obtain ⟨height, done⟩ := follows.needless reached missing answer
    exact evaluates _ height done

/-- A call of the recursive parser follows the table. -/
theorem reference_follows (arena : setting.arena.Composed .vocabulary)
    (answers : ∀ place ≥ stage.position, stage.Answers setting tag body place)
    {parser : Parser ι α} (refers : Parser.Refers tag body parser) (regular : parser.Regular)
    {state final : State α} {outcome : Outcome (Symbol α)} (sound : state.Sound setting.input)
    (after : stage.position ≤ state.cursor) {limiter : DepthLimiter} {memo : Memoizer α}
    (standard : state.policy.IsStandard limiter memo) (level : stage.Level tag limiter memo)
    (ends : Ends setting (.call parser) state (.answered outcome) final) :
    ∃ limiterToo memoToo,
      stage.Follows setting tag (.call parser) state (.answered outcome) final memo limiterToo
        memoToo := by
  obtain ⟨rfl, limiterToo, memoToo, standardToo, gains, kept⟩ :=
    answers state.cursor after parser state final outcome limiter memo refers sound rfl standard
      level ends
  obtain ⟨⟨-, lands⟩, -⟩ := ends.call_sound arena regular sound
  refine ⟨limiterToo, memoToo, standardToo,
    level.gains (standard.depth_eq standardToo ends.balances) gains, gains, ⟨0, ?_⟩, ?_⟩
  · rw [lands]
    exact .answered (answering_of_tagged refers.tag_eq _ _)
  · intro reached missing other
    refine ⟨0, ?_⟩
    have elsewhere : state.cursor ≠ stage.position := by
      rintro here
      rw [here] at kept
      exact kept reached missing
    have same : Function.update stage.table stage.position other state.cursor =
        stage.table state.cursor := Function.update_of_ne elsewhere _ _
    rw [lands, ← same]
    exact .answered (answering_of_tagged refers.tag_eq _ _)

/-- At a stage everything within the recursive parser follows the table. -/
theorem Ends.follows (arena : setting.arena.Composed .vocabulary)
    (composed : body.Composed .untagged)
    (answers : ∀ place ≥ stage.position, stage.Answers setting tag body place)
    {control : Control ι α} {state final : State α} {halt : Halt α}
    (ends : Ends setting control state halt final) (unfaulted : ∀ fault, halt ≠ .faulted fault)
    (covered : control.Over (Parser.Within tag body) Finish.Blind Event.IsCounted)
    (sound : state.Sound setting.input) (after : stage.position ≤ state.cursor)
    {limiter : DepthLimiter} {memo : Memoizer α}
    (standard : state.policy.IsStandard limiter memo) (level : stage.Level tag limiter memo) :
    ∃ limiterToo memoToo,
      stage.Follows setting tag control state halt final memo limiterToo memoToo := by
  induction ends generalizing limiter memo with
  | reply result state =>
      exact ⟨limiter, memo, standard, level, .refl _ _ _, ⟨0, .reply result⟩,
        fun _ _ _ => ⟨0, .reply result⟩⟩
  | read symbol stop state =>
      exact ⟨limiter, memo, standard, level, .refl _ _ _, ⟨0, .read symbol stop⟩,
        fun _ _ _ => ⟨0, .read symbol stop⟩⟩
  | become _ ih =>
      obtain ⟨limiterToo, memoToo, follows⟩ :=
        ih unfaulted covered.1 ⟨sound.boundary, sound.remembers⟩ after standard level
      exact ⟨limiterToo, memoToo, follows.lift follows.standard fun _ height evaluates =>
        ⟨height, .become evaluates⟩⟩
  | @body parser state _ _ _ ih =>
      obtain ⟨limiterToo, memoToo, follows⟩ :=
        ih unfaulted (covered.start composed setting state) sound after standard level
      have starts : parser.start setting state = parser.start setting (.plain state.cursor) :=
        (covered.composed composed).start_congr rfl
      refine ⟨limiterToo, memoToo, follows.lift follows.standard fun _ height evaluates => ?_⟩
      rw [starts] at evaluates
      exact ⟨height, .body evaluates⟩
  | @resumed parser pending outcome state middle _ _ called _ callIh moveIh =>
      obtain ⟨limiterMid, memoMid, follows⟩ :=
        callIh (by simp) covered.1 sound after standard level
      have regular := covered.1.regular composed
      obtain ⟨⟨fits, lands⟩, soundToo⟩ := called.call_sound arena regular sound
      have afterToo : stage.position ≤ middle.cursor := by
        rw [lands]
        exact after.trans fits.le_landing
      have coveredToo : (pending.resume outcome).Over (Parser.Within tag body) Finish.Blind
          Event.IsCounted := Pending.resume_over Parser.Within.ignoreThen covered.2 outcome
      obtain ⟨limiterToo, memoToo, followsToo⟩ :=
        moveIh unfaulted coveredToo soundToo afterToo follows.standard follows.level
      obtain ⟨height, evaluates⟩ := follows.evaluates
      obtain ⟨heightToo, evaluatesToo⟩ := followsToo.evaluates
      refine ⟨limiterToo, memoToo, followsToo.standard, followsToo.level,
        follows.gains.trans followsToo.gains, ⟨max height heightToo, ?_⟩, ?_⟩
      · exact .resumed (evaluates.mono (Nat.le_max_left _ _))
          (evaluatesToo.mono (Nat.le_max_right _ _))
      · intro reached missing other
        obtain ⟨height, evaluates⟩ :=
          follows.needless reached (followsToo.gains.eq_none missing) other
        obtain ⟨heightToo, evaluatesToo⟩ := followsToo.needless reached missing other
        exact ⟨max height heightToo, .resumed (evaluates.mono (Nat.le_max_left _ _))
          (evaluatesToo.mono (Nat.le_max_right _ _))⟩
  | @answered parser state outcome answer =>
      rcases covered.tag_eq with untagged | refers
      · have missing : (callAt setting.input state.cursor parser).key? = none := by
          rw [Call.key?, callAt, untagged]
          rfl
        have unanswered := (standard.enter_untagged missing).1
        rw [Setting.entry, unanswered] at answer
        cases answer
      · exact reference_follows arena answers refers (covered.regular composed) sound after
          standard level (.answered answer)
  | @executed parser state middle result outcome answer ran sealed ih =>
      rcases covered.tag_eq with untagged | refers
      · have missing : (callAt setting.input state.cursor parser).key? = none := by
          rw [Call.key?, callAt, untagged]
          rfl
        have entered := (standard.enter_untagged missing).2
        have soundToo : (setting.entered parser state).Sound setting.input :=
          ⟨sound.boundary, (enter_sound sound.remembers).1⟩
        obtain ⟨limiterToo, memoToo, follows⟩ :=
          ih (by simp) covered soundToo after entered level
        obtain ⟨returns, left⟩ := follows.standard.leave_untagged missing outcome
        rw [conclude_sealed sealed returns]
        exact ⟨limiterToo, memoToo, follows.lift left fun _ height evaluates =>
          ⟨height + 1, .executed (answering_of_untagged untagged _ _) evaluates sealed⟩⟩
      · exact reference_follows arena answers refers (covered.regular composed) sound after
          standard level (.executed answer ran sealed)
  | _ => exact absurd rfl (unfaulted _)

end AtStage

end Packrat
