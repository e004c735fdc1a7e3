import Packrat.Proofs.ActiveCalls
import Packrat.Proofs.MemoGrowth
import Packrat.Proofs.StandardChain

/-!
# How often bodies run

On a standard engine the bodies that run under one key are nested in one another, and there
are no more of them than positions ahead, plus one: a body starts only while the memo table
has nothing under the key, hence before any other has ended, and the re-entrancy limit bounds
how many run at once.  As soon as one has ended, every call of the key is answered from the
table, which it leaves as it is.
-/

namespace Packrat

variable {ι α : Type}

inductive Mark where
  | start
  | stop
  deriving DecidableEq, Repr

def Deed.mark? (key : Key) : Deed α → Option Mark
  | .answered _ _ _ => none
  | .started call => if call.key? = some key then some .start else none
  | .ended call _ _ _ => if call.key? = some key then some .stop else none

/-- The starts and ends of the bodies under a key in a history, the latest first. -/
def marks (key : Key) (history : List (Deed α)) : List Mark := history.filterMap (Deed.mark? key)

section Marks

variable {key : Key} {history : List (Deed α)} {call : Call}

theorem marks_answered (kind : Kind) (outcome : Outcome (Sealed α)) :
    marks key (.answered call kind outcome :: history) = marks key history :=
  List.filterMap_cons_none rfl

theorem marks_started :
    marks key (.started call :: history) =
      List.replicate (call.opens key) .start ++ marks key history := by
  by_cases same : call.key? = some key
  · rw [marks, List.filterMap_cons_some (show (Deed.started call).mark? key = some Mark.start from
      if_pos same), Call.opens, if_pos same]
    rfl
  · rw [marks, List.filterMap_cons_none (show (Deed.started call).mark? key = none from
      if_neg same), Call.opens, if_neg same]
    rfl

theorem marks_ended (kind : Kind) (made outcome : Outcome (Sealed α)) :
    marks key (.ended call kind made outcome :: history) =
      List.replicate (call.opens key) .stop ++ marks key history := by
  by_cases same : call.key? = some key
  · rw [marks, List.filterMap_cons_some (show (Deed.ended call kind made outcome).mark? key =
      some Mark.stop from if_pos same), Call.opens, if_pos same]
    rfl
  · rw [marks, List.filterMap_cons_none (show (Deed.ended call kind made outcome).mark? key =
      none from if_neg same), Call.opens, if_neg same]
    rfl

end Marks

namespace Policy.IsStandard

variable {policy : Policy α} {limiter : DepthLimiter} {memo : Memoizer α} {call : Call}

theorem memoTables (standard : policy.IsStandard limiter memo) : policy.memoTables = [memo] := by
  obtain ⟨tracer, rfl⟩ := standard
  rfl

theorem limits (standard : policy.IsStandard limiter memo) {holds : DepthLimiter → Prop}
    (limits : policy.Limits holds) : holds limiter := by
  obtain ⟨tracer, rfl⟩ := standard
  exact limits.2.1

theorem leave_remembers (standard : policy.IsStandard limiter memo) (made : Outcome (Sealed α)) :
    ∃ limiterToo memoToo, (policy.leave call made).policy.IsStandard limiterToo memoToo ∧
      memo.Grows memoToo ∧ ∀ key, call.key? = some key → memoToo.find? key ≠ none := by
  obtain ⟨limiterToo, memoToo, left⟩ := standard.leave call made
  refine ⟨limiterToo, memoToo, left, ?_, fun key tagged => ?_⟩
  · have grows := policy.leave_grows call made
    rw [Policy.Grows, standard.memoTables, left.memoTables] at grows
    cases grows with
    | cons grows _ => exact grows
  · have tables : (policy.returnsAtEnd call made).map Prod.fst = [memoToo] := by
      rw [policy.map_returnsAtEnd, left.memoTables]
    obtain ⟨pair, member, same⟩ : ∃ pair ∈ policy.returnsAtEnd call made, pair.1 = memoToo :=
      List.mem_map.mp (tables ▸ List.mem_singleton_self memoToo)
    have found := Policy.remembered_at_end tagged policy made pair member
    rw [same] at found
    rw [found]
    exact Option.some_ne_none _

end Policy.IsStandard

/-! ## Nested bodies -/

/--
Of the bodies that have started under a key some have ended, all of them after the last start.
As soon as one has ended, the table remembers an outcome.
-/
structure Nested [Input ι] (input : ι) (key : Key) (history : List (Deed α))
    (calls : List Call) (memo : Memoizer α) (starts stops : Nat) : Prop where
  marks : marks key history = List.replicate stops .stop ++ List.replicate starts .start
  running : starts = stops + callsOf key calls
  bounded : starts ≤ Input.remaining input key.position + 1
  remembered : 0 < stops → memo.find? key ≠ none

section Turns

variable [Input ι] {input : ι} {key : Key} {history : List (Deed α)} {calls : List Call}
  {call : Call} {memo memoToo : Memoizer α} {starts stops : Nat}

theorem Memoizer.Grows.remembers (grows : memo.Grows memoToo)
    (found : memo.find? key ≠ none) : memoToo.find? key ≠ none := by
  obtain ⟨outcome, found⟩ := Option.ne_none_iff_exists'.mp found
  obtain ⟨grown, foundToo, -⟩ := grows key outcome found
  rw [foundToo]
  exact Option.some_ne_none _

theorem Nested.start (nested : Nested input key history calls memo starts stops)
    (free : call.key? = some key →
      memo.find? key = none ∧ callsOf key calls ≤ Input.remaining input key.position) :
    Nested input key (.started call :: history) (call :: calls) memo
      (starts + call.opens key) stops := by
  by_cases same : call.key? = some key
  · obtain ⟨missing, few⟩ := free same
    have opens : call.opens key = 1 := if_pos same
    -- Nothing is remembered, so no body has ended.
    have none_ended : stops = 0 :=
      Nat.eq_zero_of_not_pos fun some_ended => nested.remembered some_ended missing
    subst none_ended
    have running := nested.running
    refine ⟨?_, ?_, ?_, nested.remembered⟩
    · rw [marks_started, nested.marks, opens]
      rfl
    · rw [callsOf_cons, opens]
      omega
    · rw [opens]
      omega
  · have opens : call.opens key = 0 := if_neg same
    refine ⟨?_, ?_, ?_, nested.remembered⟩
    · rw [marks_started, nested.marks, opens]
      rfl
    · rw [callsOf_cons, opens, nested.running]
      rfl
    · rw [opens]
      exact nested.bounded

theorem Nested.stop (nested : Nested input key history (call :: calls) memo starts stops)
    (kind : Kind) (made outcome : Outcome (Sealed α)) (grows : memo.Grows memoToo)
    (remembers : call.key? = some key → memoToo.find? key ≠ none) :
    Nested input key (.ended call kind made outcome :: history) calls memoToo starts
      (stops + call.opens key) where
  marks := by
    rw [marks_ended, nested.marks, Nat.add_comm, ← List.replicate_append_replicate,
      List.append_assoc]
  running := by
    rw [nested.running, callsOf_cons]
    omega
  bounded := nested.bounded
  remembered some_ended := by
    by_cases same : call.key? = some key
    · exact remembers same
    · rw [Call.opens, if_neg same, Nat.add_zero] at some_ended
      exact grows.remembers (nested.remembered some_ended)

/-- The policies are a standard chain, under which the bodies of every key are nested. -/
def Orderly (input : ι) (history : List (Deed α)) (policy : Policy α) (calls : List Call) :
    Prop :=
  policy.Limits (DepthLimiter.Counts calls) ∧
    ∃ limiter memo, policy.IsStandard limiter memo ∧
      ∀ key, ∃ starts stops, Nested input key history calls memo starts stops

theorem Turn.orderly {policy policyToo : Policy α} {callsToo : List Call}
    {deed? : Option (Deed α)} (turn : Turn input policy calls deed? policyToo callsToo)
    (orderly : Orderly input history policy calls) :
    Orderly input (deed?.toList ++ history) policyToo callsToo := by
  obtain ⟨counts, limiter, memo, standard, nested⟩ := orderly
  refine ⟨turn.counts counts, ?_⟩
  cases turn with
  | quiet => exact ⟨limiter, memo, standard, nested⟩
  | @answered _ call kind outcome _ _ =>
      obtain ⟨limiterToo, standardToo⟩ := standard.enter call
      refine ⟨limiterToo, memo, standardToo, fun key => ?_⟩
      obtain ⟨starts, stops, nested⟩ := nested key
      exact ⟨starts, stops, (marks_answered kind outcome).trans nested.marks, nested.running,
        nested.bounded, nested.remembered⟩
  | @started _ call ahead missing =>
      obtain ⟨limiterToo, standardToo⟩ := standard.enter call
      refine ⟨limiterToo, memo, standardToo, fun key => ?_⟩
      obtain ⟨starts, stops, nested⟩ := nested key
      refine ⟨_, stops, nested.start fun tagged => ?_⟩
      have few := standard.limits counts key
      cases refuses : limiter.refuses key call.remaining with
      | true => cases missing.symm.trans (standard.enter_refused tagged refuses).1
      | false =>
          cases found : memo.find? key with
          | some cached =>
              cases missing.symm.trans (standard.enter_remembered tagged refuses found).1
          | none =>
              refine ⟨rfl, ?_⟩
              rw [← few, Call.position_of_key? tagged, ← ahead]
              exact Nat.not_lt.mp (of_decide_eq_false refuses)
  | @ended _ call kind made _ =>
      obtain ⟨limiterToo, memoToo, standardToo, grows, remembers⟩ := standard.leave_remembers made
      refine ⟨limiterToo, memoToo, standardToo, fun key => ?_⟩
      obtain ⟨starts, stops, nested⟩ := nested key
      exact ⟨starts, _, nested.stop kind made _ grows (remembers key)⟩

end Turns

section Lives

variable [Input ι] {input : ι} {arena : Arena ι α} {parser : Parser ι α}
  {history : List (Deed α)} {moment : Moment ι α}

theorem Lives.orderly (lives : Lives input (.birth .standard arena parser) history moment) :
    Orderly input history moment.policy moment.config.calls := by
  refine lives.keeps (Orderly input) ?_ fun orderly turn => turn.orderly orderly
  refine ⟨Policy.limits_of_fresh .empty Policy.standard_fresh, .empty, .empty, ⟨.empty, rfl⟩, ?_⟩
  intro key
  exact ⟨0, 0, rfl, rfl, Nat.zero_le _, fun none_ended => (Nat.lt_irrefl 0 none_ended).elim⟩

end Lives

/-- A call of a key that the table remembers is answered with the outcome, and the table stays. -/
theorem replayed [Input ι] (setting : Setting ι α) {parser : Parser ι α}
    {stack : List (Frame ι α)} {state : State α} {limiter : DepthLimiter} {memo : Memoizer α}
    {key : Key} {stored : Outcome (Sealed α)} (standard : state.policy.IsStandard limiter memo)
    (tagged : (callAt setting.input state.cursor parser).key? = some key)
    (granted : limiter.refuses key (Input.remaining setting.input state.cursor) = false)
    (found : memo.find? key = some stored) :
    Config.deed? setting ⟨.call parser, stack, state⟩ =
        some (.answered (callAt setting.input state.cursor parser) parser.kind stored) ∧
      ∃ next limiterToo, Config.step setting ⟨.call parser, stack, state⟩ = .next next ∧
        next.control = .answer
          (settle (callAt setting.input state.cursor parser) parser.kind stored state).1 ∧
        next.state.policy.IsStandard limiterToo memo := by
  obtain ⟨answer, limiterToo, standardToo⟩ := standard.enter_remembered tagged granted found
  have given : (setting.entry parser state).answer = some stored := answer
  refine ⟨Config.deed?_of_answer answer, _, limiterToo,
    congrArg Progress.next (Config.beginCall_of_answer setting parser stack state given), ?_, ?_⟩
  · cases stored with
    | error mismatch => rfl
    | ok matched =>
        simp only [settle]
        split <;> rfl
  · rw [settle_policy]
    exact standardToo

/--
On a standard engine every body that ends is the innermost one that runs, and the bodies under
one key all start before the first of them ends, so that they are nested in one another.  There
are at most as many as positions ahead, plus one.  Once one of them has ended, no call of the
key is refused or starts a body: it is answered with the remembered outcome, and the memo table
stays as it is.
-/
theorem bodies_nest_and_replay [Input ι] (input : ι) (arena : Arena ι α) (parser : Parser ι α)
    (history : List (Deed α)) (moment : Moment ι α)
    (lives : Lives input (.birth .standard arena parser) history moment) (key : Key) :
    (openCalls history = moment.config.calls ∧ Bracketed history) ∧
    (∃ starts stops,
      marks key history = List.replicate stops .stop ++ List.replicate starts .start ∧
      stops ≤ starts ∧ starts ≤ Input.remaining input key.position + 1) ∧
    (Mark.stop ∈ marks key history →
      ∃ limiter memo stored, moment.policy.IsStandard limiter memo ∧
        memo.find? key = some stored ∧
        ∀ other stack state, moment.config = ⟨.call other, stack, state⟩ →
          (callAt input state.cursor other).key? = some key →
          limiter.refuses key (Input.remaining input state.cursor) = false ∧
          moment.config.deed? ⟨input, moment.arena⟩ =
            some (.answered (callAt input state.cursor other) other.kind stored) ∧
          ∃ next limiterToo, moment.config.step ⟨input, moment.arena⟩ = .next next ∧
            next.control = .answer
              (settle (callAt input state.cursor other) other.kind stored state).1 ∧
            next.state.policy.IsStandard limiterToo memo) := by
  obtain ⟨counts, limiter, memo, standard, nested⟩ := lives.orderly
  obtain ⟨starts, stops, nested⟩ := nested key
  have running := nested.running
  have bounded := nested.bounded
  refine ⟨lives.open_calls rfl, ⟨starts, stops, nested.marks, by omega, bounded⟩, ?_⟩
  intro ended
  have some_ended : 0 < stops := by
    rw [nested.marks, List.mem_append] at ended
    rcases ended with among | among
    · exact Nat.pos_of_ne_zero (List.mem_replicate.mp among).1
    · cases (List.mem_replicate.mp among).2
  obtain ⟨stored, found⟩ := Option.ne_none_iff_exists'.mp (nested.remembered some_ended)
  refine ⟨limiter, memo, stored, standard, found, ?_⟩
  intro other stack state here tagged
  have place : key.position = state.cursor := Call.position_of_key? tagged
  have granted : limiter.refuses key (Input.remaining input state.cursor) = false := by
    have few := standard.limits counts key
    rw [place] at bounded
    exact decide_eq_false (by omega)
  obtain ⟨arenaNow, config⟩ := moment
  cases here
  exact ⟨granted, replayed ⟨input, arenaNow⟩ standard tagged granted found⟩

/-- Run again, a rule that has failed is answered with what the table remembers. -/
theorem bodies_nest_and_replay_hopeless :
    ∃ history moment, Lives #['a'] (.birth .standard .empty hopelessItem) history moment ∧
      marks ⟨0, ⟨"item"⟩⟩ history = [.stop, .start] ∧
      ∃ limiter memo stored, moment.policy.IsStandard limiter memo ∧
        memo.find? ⟨0, ⟨"item"⟩⟩ = some stored ∧
        moment.config.deed? ⟨#['a'], moment.arena⟩ =
          some (.answered hopelessCall .general stored) := by
  have start : (Policy.standard : Policy Unit).IsStandard .empty .empty := ⟨.empty, rfl⟩
  have granted : DepthLimiter.empty.refuses ⟨0, ⟨"item"⟩⟩ hopelessCall.remaining = false := by
    rw [DepthLimiter.refuses, DepthLimiter.depth_empty]
    rfl
  have unanswered : ((Policy.standard : Policy Unit).enter hopelessCall).answer = none :=
    (start.enter_open rfl granted (Memoizer.find?_empty _)).1
  have begun : Lives #['a'] (.birth .standard .empty hopelessItem) [] _ := .here
  obtain ⟨outcome, final, -, lives⟩ := begun.fails ⟨#['a'], .empty⟩ unanswered rfl
  have again := lives.again .empty hopelessItem 0
  have ended (made outcome : Outcome (Sealed Unit)) :
      marks ⟨0, ⟨"item"⟩⟩ [.ended hopelessCall .general made outcome, .started hopelessCall] =
        [.stop, .start] := by
    rw [marks_ended, marks_started]
    rfl
  obtain ⟨-, -, replays⟩ := bodies_nest_and_replay _ _ _ _ _ again ⟨0, ⟨"item"⟩⟩
  obtain ⟨limiter, memo, stored, standard, found, replays⟩ :=
    replays ((ended _ _).symm ▸ List.mem_cons_self)
  obtain ⟨-, answered, -⟩ := replays hopelessItem [] _ rfl rfl
  exact ⟨_, _, again, ended _ _, limiter, memo, stored, standard, found, answered⟩

end Packrat
