import Mathlib.Data.Nat.Find
import Packrat.Engine
import Packrat.Proofs.DirectRecursion

/-!
# Transparency of the policies

If every tag names one parser and running a parser without policies ends, then running it
under any policies ends in the same way.  Whatever the memo tables remember is then the
plain outcome of the parser that the tag names, and a call whose plain evaluation ends is
never active when it starts: its evaluation would contain itself.  No limit therefore
refuses a call.
-/

namespace Packrat

variable {ι α : Type}

/--
The parser whose body runs: it is inside a recording parser, and a retagged parser is renamed.
-/
def Parser.core : Parser ι α → Parser ι α
  | .retag tag inner => inner.renamed tag
  | .recording _ inner => inner.core
  | other => other

theorem Parser.kind_renamed (tag : Tag) (parser : Parser ι α) :
    (parser.renamed tag).kind = parser.kind := by
  induction parser using Parser.renamed.induct with
  | case1 tag body => rfl
  | case2 tag inner ih => exact ih
  | case3 parser recursive retag =>
      rw [renamed]
      · exact recursive
      · exact retag

theorem Parser.kind_core (parser : Parser ι α) : parser.core.kind = parser.kind := by
  induction parser using Parser.core.induct with
  | case1 tag inner => exact kind_renamed tag inner
  | case2 events inner ih => exact ih
  | case3 parser retag recording =>
      rw [core]
      · exact retag
      · exact recording

variable [Input ι]

theorem Evaluates.body_iff_of_becomes {setting : Setting ι α}
    {given : Call → Option (Outcome (Symbol α))} {height position stop : Nat}
    {parser other : Parser ι α} {events : List Event} {halt : Halt α}
    (becomes : parser.start setting (.plain position) = .become events other) :
    Evaluates setting given height (.body parser) position halt stop ↔
      Evaluates setting given height (.body other) position halt stop := by
  constructor
  · intro evaluates
    cases evaluates with
    | body evaluates =>
        rw [becomes] at evaluates
        cases evaluates with
        | become evaluates => exact evaluates
  · intro evaluates
    refine .body ?_
    rw [becomes]
    exact .become evaluates

theorem Evaluates.body_core {setting : Setting ι α}
    {given : Call → Option (Outcome (Symbol α))} {height position stop : Nat}
    {parser : Parser ι α} {halt : Halt α} :
    Evaluates setting given height (.body parser.core) position halt stop ↔
      Evaluates setting given height (.body parser) position halt stop := by
  induction parser using Parser.core.induct with
  | case1 tag inner => exact (body_iff_of_becomes rfl).symm
  | case2 events inner ih => exact ih.trans (body_iff_of_becomes rfl).symm
  | case3 parser retag recording =>
      rw [Parser.core]
      · exact retag
      · exact recording

namespace Setting

def Calls (setting : Setting ι α) (parser : Parser ι α) (position : Nat)
    (other : Parser ι α) : Prop :=
  ∃ stack state, Config.Reaches setting ⟨.call parser, [], .plain position⟩
    ⟨.call other, stack, state⟩

/-- Every tag under which a parser is called names that parser. -/
def Names (setting : Setting ι α) (names : Tag → Parser ι α) (parser : Parser ι α)
    (position : Nat) : Prop :=
  ∀ other tag, setting.Calls parser position other → other.tag = some tag →
    other.core = names tag

/-- The outcome is the plain one of the parser that the tag of the key names. -/
def Recalls (setting : Setting ι α) (names : Tag → Parser ι α) (key : Key)
    (outcome : Outcome (Sealed α)) : Prop :=
  ∃ height result stop,
    Evaluates setting unanswered height (.body (names key.tag)) key.position
      (.replied result) stop ∧
    sealResult ⟨key.position, some key.tag, Input.remaining setting.input key.position⟩
      (names key.tag).kind stop result = .ok outcome

theorem Recalls.unique {setting : Setting ι α} {names : Tag → Parser ι α} {key : Key}
    {outcome other : Outcome (Sealed α)} (recalls : setting.Recalls names key outcome)
    (recallsToo : setting.Recalls names key other) : outcome = other := by
  obtain ⟨_, result, stop, evaluates, sealed⟩ := recalls
  obtain ⟨_, resultToo, stopToo, evaluatesToo, sealedToo⟩ := recallsToo
  obtain ⟨same, rfl⟩ := evaluates.unique evaluatesToo
  cases same
  exact Except.ok.inj (sealed.symm.trans sealedToo)

end Setting

def Memoizer.Agrees (setting : Setting ι α) (names : Tag → Parser ι α) (memo : Memoizer α) :
    Prop :=
  ∀ key outcome, memo.find? key = some outcome → setting.Recalls names key outcome

theorem Memoizer.Agrees.insert {setting : Setting ι α} {names : Tag → Parser ι α}
    {memo : Memoizer α} (agrees : memo.Agrees setting names) {key : Key}
    {outcome : Outcome (Sealed α)} (recalls : setting.Recalls names key outcome) :
    (memo.insert key outcome).Agrees setting names := by
  intro another remembered found
  rw [Memoizer.find?_insert] at found
  split at found
  · next equal =>
      cases found
      rw [← equal]
      exact recalls
  · exact agrees another remembered found

/-- No active call has a plain evaluation of less than a height. -/
def DepthLimiter.Blocks (setting : Setting ι α) (names : Tag → Parser ι α) (height : Nat)
    (limiter : DepthLimiter) : Prop :=
  ∀ key, 0 < limiter.depth key → ∀ lower < height, ∀ result stop,
    ¬ Evaluates setting unanswered lower (.body (names key.tag)) key.position
      (.replied result) stop

structure Policy.Faithful (setting : Setting ι α) (names : Tag → Parser ι α) (height : Nat)
    (policy : Policy α) : Prop where
  remembers : policy.Remembers (Memoizer.Agrees setting names)
  blocks : policy.Limits (DepthLimiter.Blocks setting names height)

/-- The journal has grown by events none of which is a refusal. -/
def State.Grants (before after : State α) : Prop :=
  ∃ events, after.journal = events ++ before.journal ∧ ∀ event ∈ events, event.isRefusal = false

namespace State.Grants

variable {first middle last : State α}

theorem refl (state : State α) : state.Grants state := ⟨[], rfl, nofun⟩

theorem trans (grants : first.Grants middle) (grantsToo : middle.Grants last) :
    first.Grants last := by
  obtain ⟨events, grown, unrefused⟩ := grants
  obtain ⟨eventsToo, grownToo, unrefusedToo⟩ := grantsToo
  refine ⟨eventsToo ++ events, by rw [grownToo, grown, List.append_assoc], ?_⟩
  intro event member
  rcases List.mem_append.mp member with later | earlier
  · exact unrefusedToo event later
  · exact unrefused event earlier

theorem record (state : State α) {events : List Event}
    (unrefused : ∀ event ∈ events, event.isRefusal = false) :
    state.Grants (state.record events) := by
  refine ⟨events.reverse, ?_, fun event member => unrefused event (List.mem_reverse.mp member)⟩
  unfold State.record
  generalize state.journal = journal
  induction events generalizing journal with
  | nil => rfl
  | cons event events ih =>
      rw [List.foldl_cons, ih (fun other member => unrefused other (.tail event member)),
        List.reverse_cons, List.append_assoc]
      rfl

end State.Grants

section Calls

variable {setting : Setting ι α} {names : Tag → Parser ι α} {height : Nat} {policy : Policy α}
  {call : Call} {outcome : Outcome (Sealed α)}

/-- A call with a plain outcome is answered with that outcome, if it is answered. -/
theorem enter_agrees
    (recalls : ∀ key, call.key? = some key → setting.Recalls names key outcome)
    (granted : policy.Limits fun limiter => ∀ key, call.key? = some key →
      limiter.refuses key call.remaining = false)
    (remembers : policy.Remembers (Memoizer.Agrees setting names)) :
    (policy.enter call).policy.Remembers (Memoizer.Agrees setting names) ∧
      ∀ other, (policy.enter call).answer = some other → other = outcome := by
  refine Policy.enter_remembers (· = outcome) ?_ ?_ remembers (granted.imp ?_)
  · intro memo key other agrees tagged found
    exact (agrees key other found).unique (recalls key tagged)
  · intro memo key other agrees tagged same
    rw [same]
    exact agrees.insert (recalls key tagged)
  · intro limiter grants key tagged refuses
    rw [grants key tagged] at refuses
    cases refuses

/-- A call with a plain outcome returns that outcome. -/
theorem leave_agrees
    (recalls : ∀ key, call.key? = some key → setting.Recalls names key outcome)
    (remembers : policy.Remembers (Memoizer.Agrees setting names)) :
    (policy.leave call outcome).policy.Remembers (Memoizer.Agrees setting names) ∧
      (policy.leave call outcome).outcome = outcome := by
  refine Policy.leave_remembers (· = outcome) ?_ ?_ remembers rfl
  · intro memo key other agrees tagged found
    exact (agrees key other found).unique (recalls key tagged)
  · intro memo key other agrees tagged same
    rw [same]
    exact agrees.insert (recalls key tagged)

/-- A call with a plain evaluation below the height is not active and not refused. -/
theorem granted_of_blocks
    (evaluates : ∀ key, call.key? = some key → ∃ lower < height, ∃ result stop,
      Evaluates setting unanswered lower (.body (names key.tag)) key.position
        (.replied result) stop)
    (blocks : policy.Limits (DepthLimiter.Blocks setting names height)) :
    policy.Limits fun limiter => ∀ key, call.key? = some key →
      limiter.refuses key call.remaining = false := by
  refine blocks.imp fun limiter blocked key tagged => ?_
  obtain ⟨lower, less, result, stop, evaluated⟩ := evaluates key tagged
  have inactive : limiter.depth key = 0 := Nat.eq_zero_of_not_pos fun active =>
    blocked key active lower less result stop evaluated
  rw [DepthLimiter.refuses, inactive]
  exact decide_eq_false (Nat.not_lt_zero _)

end Calls

/-! ## The simulation -/

/-- A configuration of a plain run is about to do something at a position. -/
def Config.Passes (setting : Setting ι α) (origin : Config ι α) (control : Control ι α)
    (position : Nat) : Prop :=
  ∃ stack journal, Config.Reaches setting origin ⟨control, stack, ⟨position, .identity, journal⟩⟩

namespace Config.Passes

variable {setting : Setting ι α} {origin : Config ι α} {parser : Parser ι α} {position : Nat}

theorem start (passes : Passes setting origin (.body parser) position) :
    Passes setting origin (.move (parser.start setting (.plain position))) position := by
  obtain ⟨stack, journal, reaches⟩ := passes
  refine ⟨stack, journal, reaches.tail ?_⟩
  rw [← Parser.start_plain setting parser position journal]
  rfl

theorem execute (passes : Passes setting origin (.call parser) position) :
    Passes setting origin (.body parser) position := by
  obtain ⟨stack, journal, reaches⟩ := passes
  exact ⟨.active (callAt setting.input position parser) parser.kind :: stack, journal,
    reaches.tail rfl⟩

theorem become {events : List Event}
    (passes : Passes setting origin (.move (.become events parser)) position) :
    Passes setting origin (.body parser) position := by
  obtain ⟨stack, journal, reaches⟩ := passes
  exact ⟨stack, _, reaches.tail rfl⟩

theorem call {pending : Pending ι α}
    (passes : Passes setting origin (.move (.call parser pending)) position) :
    Passes setting origin (.call parser) position := by
  obtain ⟨stack, journal, reaches⟩ := passes
  exact ⟨.waiting pending :: stack, journal, reaches.tail rfl⟩

theorem resume {pending : Pending ι α} {height middle : Nat} {outcome : Outcome (Symbol α)}
    (passes : Passes setting origin (.move (.call parser pending)) position)
    (called : Evaluates setting unanswered height (.call parser) position (.answered outcome)
      middle) : Passes setting origin (.move (pending.resume outcome)) middle := by
  obtain ⟨stack, journal, reaches⟩ := passes
  obtain ⟨later, ends⟩ := called.ends_plainly journal
  obtain ⟨config, reachesToo, delivered⟩ := ends.reaches (.waiting pending :: stack)
  exact ⟨stack, later, ((reaches.tail rfl).trans reachesToo).tail delivered⟩

end Config.Passes

/-- Under faithful policies a control ends as it evaluates, and nothing is refused. -/
def Simulates (setting : Setting ι α) (names : Tag → Parser ι α) (control : Control ι α)
    (state : State α) (halt : Halt α) (stop : Nat) : Prop :=
  ∃ final, Ends setting control state halt final ∧ final.cursor = stop ∧
    final.policy.Remembers (Memoizer.Agrees setting names) ∧ state.Grants final

section Simulation

variable {setting : Setting ι α} {names : Tag → Parser ι α} {pieces : Pieces ι α}

theorem exists_least_height {height position stop : Nat} {parser : Parser ι α}
    {result : Result α}
    (evaluates : Evaluates setting unanswered height (.body parser) position
      (.replied result) stop) :
    ∃ least ≤ height,
      Evaluates setting unanswered least (.body parser) position (.replied result) stop ∧
      ∀ lower < least, ∀ result stop,
        ¬ Evaluates setting unanswered lower (.body parser) position (.replied result) stop := by
  classical
  have some : ∃ height result stop,
      Evaluates setting unanswered height (.body parser) position (.replied result) stop :=
    ⟨height, result, stop, evaluates⟩
  obtain ⟨resultToo, stopToo, least⟩ := Nat.find_spec some
  obtain ⟨same, rfl⟩ := evaluates.unique least
  cases same
  refine ⟨Nat.find some, Nat.find_min' some ⟨result, stop, evaluates⟩, least, ?_⟩
  intro lower less result stop evaluatesToo
  exact Nat.find_min some less ⟨result, stop, evaluatesToo⟩

theorem evaluates_named_iff {height position stop : Nat} {parser : Parser ι α} {halt : Halt α}
    {key : Key} (named : ∀ tag, parser.tag = some tag → parser.core = names tag)
    (tagged : (callAt setting.input position parser).key? = some key) :
    Evaluates setting unanswered height (.body (names key.tag)) key.position halt stop ↔
      Evaluates setting unanswered height (.body parser) position halt stop := by
  obtain ⟨tag, given, rfl⟩ := Option.map_eq_some_iff.mp tagged
  rw [← named tag given]
  exact Evaluates.body_core

theorem recalls_of_evaluates {height position middle : Nat} {parser : Parser ι α}
    {result : Result α} {outcome : Outcome (Sealed α)} {key : Key}
    (named : ∀ tag, parser.tag = some tag → parser.core = names tag)
    (tagged : (callAt setting.input position parser).key? = some key)
    (evaluates : Evaluates setting unanswered height (.body parser) position (.replied result)
      middle)
    (sealed : sealResult (callAt setting.input position parser) parser.kind middle result =
      .ok outcome) : setting.Recalls names key outcome := by
  refine ⟨height, result, middle, (evaluates_named_iff named tagged).mpr evaluates, ?_⟩
  obtain ⟨tag, given, rfl⟩ := Option.map_eq_some_iff.mp tagged
  rw [← named tag given, Parser.kind_core, ← given]
  exact sealed

/-- A call is simulated if the bodies of less height are. -/
theorem call_simulates {height position middle : Nat} {parser : Parser ι α}
    {result : Result α} {outcome : Outcome (Sealed α)}
    (named : ∀ tag, parser.tag = some tag → parser.core = names tag)
    (evaluates : Evaluates setting unanswered height (.body parser) position (.replied result)
      middle)
    (sealed : sealResult (callAt setting.input position parser) parser.kind middle result =
      .ok outcome)
    (bodies : ∀ lower ≤ height,
      Evaluates setting unanswered lower (.body parser) position (.replied result) middle →
      ∀ state : State α, state.cursor = position → state.policy.Faithful setting names lower →
        Simulates setting names (.body parser) state (.replied result) middle)
    {state : State α} (here : state.cursor = position)
    (faithful : state.policy.Faithful setting names (height + 1)) :
    Simulates setting names (.call parser) state (.answered outcome.unsealed)
      (outcome.landing position) := by
  subst here
  have recalls (key : Key)
      (tagged : (callAt setting.input state.cursor parser).key? = some key) :
      setting.Recalls names key outcome := recalls_of_evaluates named tagged evaluates sealed
  have granted : state.policy.Limits fun limiter => ∀ key,
      (callAt setting.input state.cursor parser).key? = some key →
        limiter.refuses key (Input.remaining setting.input state.cursor) = false := by
    refine granted_of_blocks (fun key tagged => ?_) faithful.blocks
    refine ⟨height, Nat.lt_succ_self height, result, middle, ?_⟩
    exact (evaluates_named_iff named tagged).mpr evaluates
  obtain ⟨remembers, answers⟩ := enter_agrees recalls granted faithful.remembers
  have entered : state.Grants (setting.entered parser state) :=
    .record _ (Policy.enter_unrefused granted)
  cases answer : (setting.entry parser state).answer with
  | some other =>
      cases answers other answer
      have ends := Ends.answered answer
      rw [settle_sealed sealed] at ends
      exact ⟨_, ends, rfl, remembers, entered⟩
  | none =>
      obtain ⟨least, bounded, evaluatesToo, minimal⟩ := exists_least_height evaluates
      have opened := (Policy.enter_deepened state.policy _).1 answer
      -- The call that starts is blocked below the least height, the others were before.
      have blocks : (setting.entered parser state).policy.Limits
          (DepthLimiter.Blocks setting names least) := by
        refine faithful.blocks.deepened ?_ opened
        intro limiter deeper depths blocked key active lower less resultToo stopToo found
        by_cases tagged : (callAt setting.input state.cursor parser).key? = some key
        · exact minimal lower less resultToo stopToo ((evaluates_named_iff named tagged).mp found)
        · rw [depths key, Call.opens, if_neg tagged, Nat.add_zero] at active
          exact blocked key active lower (by omega) resultToo stopToo found
      obtain ⟨final, ends, stops, remembersToo, grants⟩ :=
        bodies least bounded evaluatesToo (setting.entered parser state) rfl
          ⟨remembers, blocks⟩
      obtain ⟨remembersLast, returns⟩ := leave_agrees recalls remembersToo
      rw [← stops] at sealed
      have ended := Ends.executed answer ends sealed
      rw [conclude_sealed sealed returns] at ended
      refine ⟨_, ended, rfl, remembersLast, ?_⟩
      exact (entered.trans grants).trans (.record _ (Policy.leave_unrefused _ _ _))

/-- Under faithful policies whatever evaluates on the way of a plain run ends in the same way. -/
theorem Evaluates.simulates (arena : setting.arena.Composed pieces)
    (unforged : ∀ event, pieces.event event → event.isRefusal = false) {origin : Config ι α}
    (named : ∀ other position tag, Config.Passes setting origin (.call other) position →
      other.tag = some tag → other.core = names tag)
    {height position stop : Nat} {control : Control ι α} {halt : Halt α}
    (evaluates : Evaluates setting unanswered height control position halt stop)
    (composed : control.Over (Parser.Composed pieces) pieces.finish pieces.event)
    (passes : Config.Passes setting origin control position) {state : State α}
    (here : state.cursor = position) (faithful : state.policy.Faithful setting names height) :
    Simulates setting names control state halt stop := by
  -- First by the height, because a call continues with the least evaluation of its body.
  induction height using Nat.strongRecOn generalizing control position stop halt state with
  | ind height outerIh =>
    induction evaluates generalizing state with
    | reply result => exact ⟨state, .reply result state, here, faithful.remembers, .refl state⟩
    | read symbol stop =>
        exact ⟨state.moveTo stop, .read symbol stop state, rfl, faithful.remembers, .refl state⟩
    | @become _ position _ events _ _ _ ih =>
        have recorded : state.Grants (state.record events) := .record state fun event member =>
          unforged event (composed.2 event member)
        have hereToo : (state.record events).cursor = position := here
        obtain ⟨final, ends, stops, remembers, grants⟩ :=
          ih outerIh composed.1 passes.become hereToo faithful
        exact ⟨final, .become ends, stops, remembers, recorded.trans grants⟩
    | @body _ position _ parser _ _ ih =>
        have covered := Parser.Composed.start arena composed (State.plain position)
        obtain ⟨final, ends, stops, remembers, grants⟩ :=
          ih outerIh covered passes.start here faithful
        refine ⟨final, .body ?_, stops, remembers, grants⟩
        rw [composed.start_congr (show state.cursor = (State.plain position).cursor from here)]
        exact ends
    | @resumed height _ _ _ _ pending outcome _ called _ callIh moveIh =>
        obtain ⟨middle, ends, stops, remembers, grants⟩ :=
          callIh outerIh composed.1 passes.call here faithful
        have covered : (pending.resume outcome).Over (Parser.Composed pieces) pieces.finish
            pieces.event := Pending.resume_over Parser.Composed.ignoreThen composed.2 outcome
        have blocks : middle.policy.Limits (DepthLimiter.Blocks setting names height) := by
          refine faithful.blocks.deepened ?_ ends.balances
          intro limiter other same blocked key active
          rw [same key] at active
          exact blocked key active
        obtain ⟨final, endsToo, stopsToo, remembersToo, grantsToo⟩ :=
          moveIh outerIh covered (passes.resume called) stops ⟨remembers, blocks⟩
        exact ⟨final, .resumed ends endsToo, stopsToo, remembersToo, grants.trans grantsToo⟩
    | answered answer => cases answer
    | executed _ evaluates sealed _ =>
        refine call_simulates (fun tag tagged => named _ _ tag passes tagged) evaluates sealed ?_
          here faithful
        intro lower bounded evaluatesToo state here faithful
        exact outerIh lower (Nat.lt_succ_of_le bounded) evaluatesToo composed passes.execute here
          faithful

end Simulation

/-! ## Grammars in which tags name parsers -/

structure Config.Over (within : Parser ι α → Prop) (finishing : Finish α → Prop)
    (recording : Event → Prop) (config : Config ι α) : Prop where
  control : config.control.Over within finishing recording
  stack : ∀ pending, .waiting pending ∈ config.stack → pending.Over within finishing

section Grammars

variable {setting : Setting ι α} {within : Parser ι α → Prop} {finishing : Finish α → Prop}
  {recording : Event → Prop}

theorem Config.Over.step
    (following : ∀ {first second}, within first → within second →
      within (first.ignoreThen second))
    (starts : ∀ parser, within parser → ∀ state,
      (parser.start setting state).Over within finishing recording)
    {config next : Config ι α} (covered : config.Over within finishing recording)
    (edge : config.step setting = .next next) : next.Over within finishing recording := by
  obtain ⟨control, stack, state⟩ := config
  obtain ⟨control_over, stack_over⟩ := covered
  have ends {result : Result α} {state : State α}
      (edge : endBody result stack state = .next next) :
      next.Over within finishing recording := by
    unfold endBody at edge
    split at edge
    · split at edge
      · cases edge
        rw [endCall_eq]
        exact ⟨trivial, fun pending member => stack_over pending (.tail _ member)⟩
      · cases edge
    · cases edge
  cases control with
  | call parser =>
      cases edge
      cases answer : (setting.entry parser state).answer with
      | some outcome =>
          rw [beginCall_of_answer setting parser stack state answer]
          exact ⟨trivial, stack_over⟩
      | none =>
          rw [beginCall_of_no_answer setting parser stack state answer]
          refine ⟨control_over, fun pending member => stack_over pending ?_⟩
          cases member with
          | tail _ member => exact member
  | body parser =>
      cases edge
      exact ⟨starts parser control_over state, stack_over⟩
  | move move =>
      cases move with
      | reply result => exact ends edge
      | read symbol stop => exact ends edge
      | call parser pending =>
          cases edge
          refine ⟨control_over.1, fun other member => ?_⟩
          cases member with
          | head => exact control_over.2
          | tail _ member => exact stack_over other member
      | become events parser =>
          cases edge
          exact ⟨control_over.1, stack_over⟩
      | abort fault => cases edge
  | answer outcome =>
      cases stack with
      | nil => cases edge
      | cons frame stack =>
          cases frame with
          | active call kind => cases edge
          | waiting pending =>
              cases edge
              refine ⟨Pending.resume_over following (stack_over pending (.head _)) outcome, ?_⟩
              exact fun other member => stack_over other (.tail _ member)

/--
Tags name parsers if they do so in a grammar that is closed under what bodies do: wherever a
parser of the grammar runs, every parser that is called under a tag is the one of that tag.
-/
theorem Setting.names_of_grammar {names : Tag → Parser ι α}
    (following : ∀ {first second}, within first → within second →
      within (first.ignoreThen second))
    (starts : ∀ parser, within parser → ∀ state,
      (parser.start setting state).Over within finishing recording)
    (named : ∀ parser tag, within parser → parser.tag = some tag → parser.core = names tag)
    {parser : Parser ι α} (one : within parser) (position : Nat) :
    setting.Names names parser position := by
  have reached {start config : Config ι α} (covered : start.Over within finishing recording)
      (reaches : Config.Reaches setting start config) :
      config.Over within finishing recording := by
    induction reaches with
    | refl => exact covered
    | tail _ edge ih => exact ih.step following starts edge
  intro other tag ⟨stack, state, reaches⟩ tagged
  have start : Config.Over within finishing recording ⟨.call parser, [], .plain position⟩ :=
    ⟨one, fun pending member => nomatch member⟩
  exact named other tag (reached start reaches).control tagged

end Grammars

theorem Setting.names_of_recursive [Readable ι] (setting : Setting ι α) (tag : Tag)
    {body : Parser ι α} (composed : body.Composed .untagged) (position : Nat) :
    setting.Names (fun _ => .recursive tag body) (.recursive tag body) position := by
  have starts (parser : Parser ι α) (within : Parser.Within tag body parser) (state : State α) :=
    within.start composed setting state
  refine names_of_grammar Parser.Within.ignoreThen starts ?_ Parser.Within.self position
  intro parser name within tagged
  rcases within.tag_eq with untagged | refers
  · rw [untagged] at tagged
    cases tagged
  · clear tagged within
    induction refers with
    | self => rfl
    | recording events _ ih => exact ih

def Pieces.unrestricted : Pieces ι α where
  terminal _ _ := True
  finish _ := True
  tag _ := True
  event := Event.IsCounted

theorem Event.IsCounted.isRefusal {event : Event} (counted : event.IsCounted) :
    event.isRefusal = false := by
  obtain ⟨counter, rfl⟩ := counted
  rfl

/--
What a sequence of runs leaves behind in policies that were fresh at first, where every run
would end without policies and calls only parsers that their tags name.
-/
inductive LeftBehind (setting : Setting ι α) (names : Tag → Parser ι α) : Policy α → Prop where
  | fresh {policy : Policy α} : policy.Fresh → LeftBehind setting names policy
  | run {parser : Parser ι α} {state final plainFinal : State α} {steps plainSteps : Nat}
      {outcome plainOutcome : Outcome (Symbol α)} :
      LeftBehind setting names state.policy → parser.Composed .unrestricted →
      setting.Names names parser state.cursor →
      setting.runMatch plainSteps parser (.plain state.cursor) =
        .done plainOutcome plainFinal →
      setting.runMatch steps parser state = .done outcome final →
      LeftBehind setting names final.policy

/-- No call is active, and all that is remembered is plain. -/
structure Policy.Settled (setting : Setting ι α) (names : Tag → Parser ι α)
    (policy : Policy α) : Prop where
  remembers : policy.Remembers (Memoizer.Agrees setting names)
  idle : policy.Limits fun limiter => ∀ key, limiter.depth key = 0

section Runs

variable {setting : Setting ι α} {names : Tag → Parser ι α}

theorem Policy.Settled.faithful {policy : Policy α} (settled : policy.Settled setting names)
    (height : Nat) : policy.Faithful setting names height :=
  ⟨settled.remembers, settled.idle.imp fun limiter inactive key active => by
    rw [inactive key] at active
    cases active⟩

/-- A run under settled policies ends as it does without policies and settles them again. -/
theorem Policy.Settled.simulates (arena : setting.arena.Composed .unrestricted)
    {parser : Parser ι α} (composed : parser.Composed .unrestricted) {state : State α}
    (settled : state.policy.Settled setting names)
    (named : setting.Names names parser state.cursor) {plainSteps : Nat}
    {outcome : Outcome (Symbol α)} {plainFinal : State α}
    (plain : setting.runMatch plainSteps parser (.plain state.cursor) =
      .done outcome plainFinal) :
    ∃ final, Ends setting (.call parser) state (.answered outcome) final ∧
      final.cursor = plainFinal.cursor ∧ final.policy.Settled setting names ∧
      state.Grants final := by
  have plainly := Setting.runMatch_eq_done_iff.mp ⟨plainSteps, plain⟩
  obtain ⟨-, height, evaluates⟩ := plainly.evaluates nofun rfl
  have passes : Config.Passes setting ⟨.call parser, [], .plain state.cursor⟩ (.call parser)
      state.cursor := ⟨[], [], .refl⟩
  have here : state.cursor = state.cursor := rfl
  obtain ⟨final, ends, stops, remembers, grants⟩ :=
    evaluates.simulates arena (fun _ => Event.IsCounted.isRefusal)
      (fun other position tag passed => by
        obtain ⟨stack, journal, reaches⟩ := passed
        exact named other tag ⟨stack, _, reaches⟩)
      composed passes here (settled.faithful height)
  refine ⟨final, ends, stops, ⟨remembers, settled.idle.deepened ?_ ends.balances⟩, grants⟩
  intro limiter other same inactive key
  rw [same key, inactive key]

theorem LeftBehind.settled (arena : setting.arena.Composed .unrestricted) {policy : Policy α}
    (left : LeftBehind setting names policy) : policy.Settled setting names := by
  induction left with
  | fresh fresh =>
      refine ⟨Policy.remembers_of_fresh ?_ fresh,
        Policy.limits_of_fresh DepthLimiter.depth_empty fresh⟩
      intro key outcome found
      rw [Memoizer.find?_empty] at found
      cases found
  | run _ composed named plain done ih =>
      obtain ⟨final, ends, -, settled, -⟩ := ih.simulates arena composed named plain
      have endsToo := Setting.runMatch_eq_done_iff.mp ⟨_, done⟩
      rw [(endsToo.unique ends).2]
      exact settled

end Runs

/--
If running a parser at a position without policies ends, and every tag under which it calls
a parser names that parser, then running it there under any policies that earlier runs of
this kind left behind ends with the same outcome and the same cursor, and no call is refused.
-/
theorem runMatch_transparent (setting : Setting ι α)
    (arena : setting.arena.Composed .unrestricted) (names : Tag → Parser ι α)
    (policy : Policy α) (left : LeftBehind setting names policy) (parser : Parser ι α)
    (composed : parser.Composed .unrestricted) (position : Nat) (journal : List Event)
    (named : setting.Names names parser position) (plainSteps : Nat)
    (outcome : Outcome (Symbol α)) (plainFinal : State α)
    (plain : setting.runMatch plainSteps parser (.plain position) = .done outcome plainFinal) :
    ∃ steps final,
      setting.runMatch steps parser ⟨position, policy, journal⟩ = .done outcome final ∧
      final.cursor = plainFinal.cursor ∧
      State.Grants ⟨position, policy, journal⟩ final := by
  let state : State α := ⟨position, policy, journal⟩
  have settled : state.policy.Settled setting names := left.settled arena
  obtain ⟨final, ends, stops, -, grants⟩ := settled.simulates arena composed named plain
  obtain ⟨steps, done⟩ := Setting.runMatch_eq_done_iff.mpr ends
  exact ⟨steps, final, done, stops, grants⟩

/--
The body of a recursive parser that reads the letters `a`, nested to the right, and tries
itself twice at a position.
-/
def balanced : Parser (Array Char) Unit :=
  .oneOf [.followedBy (letter 'a') (.followedBy (.self 0) (letter 'b')),
    .followedBy (letter 'a') (.self 0), letter 'a']

theorem balanced_composed {pieces : Pieces (Array Char) Unit}
    (admitted : ∀ c, (letter c).Composed pieces) : balanced.Composed pieces := by
  refine .choice nofun fun parser member => ?_
  simp only [List.mem_cons, List.not_mem_nil, or_false] at member
  rcases member with rfl | rfl | rfl
  · exact .both _ (admitted 'a') (.both _ (.self 0) (admitted 'b'))
  · exact .both _ (admitted 'a') (.self 0)
  · exact admitted 'a'

theorem runMatch_transparent_balanced :
    ∃ steps final,
      (Setting.mk #['a'] .empty).runMatch steps (.recursive ⟨"letters"⟩ balanced)
        (.initial .standard) = .done (.ok ⟨.character 'a', ⟨0, 1⟩⟩) final ∧
      final.cursor = 1 ∧ State.Grants (.initial .standard) final := by
  have composed : balanced.Composed .untagged :=
    balanced_composed fun c => .terminal (TokenTerminal.oneToken _ _)
  have unrestricted : balanced.Composed .unrestricted :=
    balanced_composed fun c => .terminal trivial
  have plain : (Setting.mk #['a'] .empty).runMatch 109 (.recursive ⟨"letters"⟩ balanced)
      (.plain 0) = .done (.ok ⟨.character 'a', ⟨0, 1⟩⟩) (.plain 1) := by
    cbv
  exact runMatch_transparent (Setting.mk #['a'] .empty) (Arena.empty_composed _)
    (fun _ => .recursive ⟨"letters"⟩ balanced) .standard (.fresh Policy.standard_fresh)
    (.recursive ⟨"letters"⟩ balanced) (.recursive trivial unrestricted) 0 []
    (Setting.names_of_recursive _ _ composed 0) 109 _ _ plain

end Packrat
