import Packrat.Proofs.Settling

/-!
# Settled calls on a standard engine

On a standard engine a call of a key that settles is answered with what the key settles on.
The memo table need not be empty, only what it remembers of keys that settle has to be what
they settle on, and no such key may be active.  Both hold again after the call, so that they
hold after any sequence of calls.

A call of the key descends into itself until the limit refuses it, and each level on the way
back is one round of growing.  While the key grows, the table holds a seed of it that is not
final.  This does no harm below the height at which the key settles, because whatever
settles there settles without the key.
-/

namespace Packrat

variable {ι α : Type}

namespace Memoizer

variable {names : Tag → Parser ι α} {given more : Key → Outcome (Symbol α) → Prop}
  {first middle last : Memoizer α} {key : Key}

def Gains (names : Tag → Parser ι α) (given : Key → Outcome (Symbol α) → Prop)
    (before after : Memoizer α) : Prop :=
  ∀ key, after.find? key = before.find? key ∨
    ∃ outcome, given key outcome ∧
      after.find? key = some (outcome.sealedAs (names key.tag).kind)

/-- A memo table remembers of a key nothing but what is given for it. -/
def Follows (names : Tag → Parser ι α) (given : Key → Outcome (Symbol α) → Prop)
    (memo : Memoizer α) : Prop :=
  ∀ key outcome, given key outcome → memo.find? key = none ∨
    memo.find? key = some (outcome.sealedAs (names key.tag).kind)

theorem Gains.refl (memo : Memoizer α) : memo.Gains names given memo := fun _ => .inl rfl

theorem Gains.trans (gains : first.Gains names given middle)
    (gainsToo : middle.Gains names given last) : first.Gains names given last := by
  intro key
  rcases gainsToo key with same | gained
  · rw [same]
    exact gains key
  · exact .inr gained

theorem Gains.mono (gains : first.Gains names given last)
    (wider : ∀ key outcome, given key outcome → more key outcome) :
    first.Gains names more last := by
  intro key
  refine (gains key).imp_right fun gained => ?_
  obtain ⟨outcome, allowed, found⟩ := gained
  exact ⟨outcome, wider key outcome allowed, found⟩

theorem Gains.eq_none (gains : first.Gains names given last)
    (missing : last.find? key = none) : first.find? key = none := by
  rcases gains key with same | ⟨_, -, gained⟩
  · rw [← same, missing]
  · rw [missing] at gained
    cases gained

theorem Gains.find?_eq (gains : first.Gains names given last)
    (never : ∀ outcome, ¬ given key outcome) : last.find? key = first.find? key := by
  rcases gains key with same | ⟨outcome, allowed, -⟩
  · exact same
  · exact absurd allowed (never outcome)

theorem Follows.mono (follows : first.Follows names given)
    (narrower : ∀ key outcome, more key outcome → given key outcome) :
    first.Follows names more :=
  fun key outcome allowed => follows key outcome (narrower key outcome allowed)

theorem Follows.gains
    (functional : ∀ key one two, given key one → given key two → one = two)
    (follows : first.Follows names given) (gains : first.Gains names given last) :
    last.Follows names given := by
  intro key outcome allowed
  rcases gains key with same | ⟨other, allowedToo, gained⟩
  · rw [same]
    exact follows key outcome allowed
  · rw [functional key outcome other allowed allowedToo]
    exact .inr gained

theorem follows_empty : (empty : Memoizer α).Follows names given :=
  fun _ _ _ => .inl (find?_empty _)

end Memoizer

variable [Input ι]

/--
Under a standard chain with a memo table a control ends in some way at a position, and the
table has gained what is given for the keys.
-/
def Setting.Performs (setting : Setting ι α) (names : Tag → Parser ι α)
    (given : Key → Outcome (Symbol α) → Prop) (control : Control ι α) (state : State α)
    (memo : Memoizer α) (halt : Halt α) (stop : Nat) (memoToo : Memoizer α) : Prop :=
  ∃ final limiterToo, Ends setting control state halt final ∧ final.cursor = stop ∧
    final.policy.IsStandard limiterToo memoToo ∧ memo.Gains names given memoToo

section Performs

variable {setting : Setting ι α} {names : Tag → Parser ι α}
  {given : Key → Outcome (Symbol α) → Prop} {parser : Parser ι α} {state middle : State α}
  {limiter limiterToo : DepthLimiter} {memo memoToo : Memoizer α} {position : Nat}

/-- A call whose body has replied is answered with what the policies return. -/
theorem Ends.of_body {result : Result α} {value : Outcome (Symbol α)}
    (unanswered : (setting.entry parser state).answer = none)
    (ran : Ends setting (.body parser) (setting.entered parser state) (.replied result) middle)
    (forward : ∀ symbol, result = .ok symbol → state.cursor ≤ middle.cursor)
    (returns : (middle.policy.leave (callAt setting.input state.cursor parser)
      ((Outcome.ofResult state.cursor middle.cursor result).sealedAs parser.kind)).outcome =
        value.sealedAs parser.kind) :
    ∃ final, Ends setting (.call parser) state (.answered value) final ∧
      final.cursor = value.landing state.cursor ∧
      final.policy = (middle.policy.leave (callAt setting.input state.cursor parser)
        ((Outcome.ofResult state.cursor middle.cursor result).sealedAs parser.kind)).policy := by
  have sealed : sealResult (callAt setting.input state.cursor parser) parser.kind middle.cursor
      result = .ok ((Outcome.ofResult state.cursor middle.cursor result).sealedAs parser.kind) :=
    sealResult_ofResult forward
  have ended := Ends.executed unanswered ran sealed
  have returned := settle_sealedAs (callAt setting.input state.cursor parser) parser.kind value
  rw [conclude, returns, returned] at ended
  exact ⟨_, ended, rfl, rfl⟩

theorem performs_untagged (untagged : parser.tag = none) (here : state.cursor = position)
    (standard : state.policy.IsStandard limiter memo) {result : Result α} {stop : Nat}
    (forward : ∀ symbol, result = .ok symbol → position ≤ stop)
    (body : (setting.entered parser state).policy.IsStandard limiter memo →
      setting.Performs names given (.body parser) (setting.entered parser state) memo
        (.replied result) stop memoToo) :
    setting.Performs names given (.call parser) state memo
      (.answered (.ofResult position stop result))
      ((Outcome.ofResult position stop result).landing position) memoToo := by
  subst here
  have missing : (callAt setting.input state.cursor parser).key? = none := by
    rw [Call.key?, callAt, untagged]
    rfl
  obtain ⟨unanswered, entered⟩ := standard.enter_untagged missing
  obtain ⟨middle, limiterToo, ran, rfl, standardToo, gains⟩ := body entered
  obtain ⟨returns, left⟩ := standardToo.leave_untagged missing
    ((Outcome.ofResult state.cursor middle.cursor result).sealedAs parser.kind)
  obtain ⟨final, ends, stops, same⟩ := Ends.of_body unanswered ran forward returns
  exact ⟨final, limiterToo, ends, stops, by rw [same]; exact left, gains⟩

/--
An evaluation is performed if the allowed calls are.  If nothing is remembered of a key in the
end, only such calls were made as leave nothing to remember of it.
-/
theorem Yields.performs {allowed : Answering ι α} (avoiding : Answering ι α)
    {ready : DepthLimiter → Memoizer α → Prop} (key : Key)
    (keeps : ∀ {limiter limiterToo memo memoToo}, ready limiter memo →
      (∀ key, limiterToo.depth key = limiter.depth key) → memo.Gains names given memoToo →
      ready limiterToo memoToo)
    (calls : ∀ {parser place outcome state limiter memo}, allowed parser place outcome →
      state.cursor = place → state.policy.IsStandard limiter memo → ready limiter memo →
      ∃ memoToo, setting.Performs names given (.call parser) state memo (.answered outcome)
        (outcome.landing place) memoToo ∧
        (memoToo.find? key = none → avoiding parser place outcome))
    {control : Control ι α} {halt : Halt α} {stop : Nat}
    (yields : Yields setting allowed control position halt stop)
    (here : state.cursor = position) (standard : state.policy.IsStandard limiter memo)
    (prepared : ready limiter memo) :
    ∃ memoToo, setting.Performs names given control state memo halt stop memoToo ∧
      (memoToo.find? key = none → Yields setting avoiding control position halt stop) := by
  induction yields generalizing state limiter memo with
  | reply result =>
      exact ⟨memo, ⟨state, limiter, .reply result state, here, standard, .refl memo⟩,
        fun _ => .reply result⟩
  | read symbol stop =>
      exact ⟨memo, ⟨state.moveTo stop, limiter, .read symbol stop state, rfl, standard,
        .refl memo⟩, fun _ => .read symbol stop⟩
  | @become _ _ events _ _ _ ih =>
      have hereToo : (state.record events).cursor = _ := here
      obtain ⟨memoToo, ⟨final, limiterToo, ends, rest⟩, avoids⟩ := ih hereToo standard prepared
      exact ⟨memoToo, ⟨final, limiterToo, .become ends, rest⟩, fun missing =>
        .become (avoids missing)⟩
  | body starts _ ih =>
      obtain ⟨memoToo, ⟨final, limiterToo, ends, rest⟩, avoids⟩ := ih here standard prepared
      have started := starts state.policy state.journal
      rw [← here] at started
      rw [← started] at ends
      exact ⟨memoToo, ⟨final, limiterToo, .body ends, rest⟩, fun missing =>
        .body starts (avoids missing)⟩
  | resumed _ _ callIh moveIh =>
      obtain ⟨memoMid, ⟨middle, limiterMid, called, stops, standardMid, gains⟩, avoids⟩ :=
        callIh here standard prepared
      have preparedMid := keeps prepared (standard.depth_eq standardMid called.balances) gains
      obtain ⟨memoToo, ⟨final, limiterToo, moved, stopsToo, standardToo, gainsToo⟩, avoidsToo⟩ :=
        moveIh stops standardMid preparedMid
      refine ⟨memoToo, ⟨final, limiterToo, .resumed called moved, stopsToo, standardToo,
        gains.trans gainsToo⟩, fun missing => ?_⟩
      exact .resumed (avoids (gainsToo.eq_none missing)) (avoidsToo missing)
  | answered tagged allows =>
      obtain ⟨memoToo, performs, avoids⟩ := calls allows here standard prepared
      exact ⟨memoToo, performs, fun missing => .answered tagged (avoids missing)⟩
  | @executed position _ parser _ untagged _ forward ih =>
      have missing : (callAt setting.input state.cursor parser).key? = none := by
        rw [Call.key?, callAt, untagged]
        rfl
      have hereToo : (setting.entered parser state).cursor = position := here
      obtain ⟨memoToo, performs, avoids⟩ :=
        ih hereToo (standard.enter_untagged missing).2 prepared
      exact ⟨memoToo, performs_untagged untagged here standard forward fun _ => performs,
        fun missing => .executed untagged (avoids missing) forward⟩

end Performs

/-! ## One call of a key -/

section Keys

variable {setting : Setting ι α} {names : Tag → Parser ι α}
  {others : Key → Outcome (Symbol α) → Prop} {parser : Parser ι α} {key : Key}
  {state : State α} {limiter : DepthLimiter} {memo : Memoizer α}

theorem Key.key?_call (input : ι) (key : Key) : (key.call input).key? = some key := rfl

theorem Key.callAt_eq (input : ι) (tagged : parser.tag = some key.tag)
    (here : state.cursor = key.position) :
    callAt input state.cursor parser = key.call input := by
  rw [callAt, tagged, here, Key.call]

omit [Input ι] in
theorem Parser.kind_eq_of_core (named : parser.core = names key.tag) :
    parser.kind = (names key.tag).kind := by
  rw [← named, kind_core]

theorem performs_remembered {given : Key → Outcome (Symbol α) → Prop}
    (tagged : parser.tag = some key.tag)
    (named : parser.core = names key.tag) (here : state.cursor = key.position)
    (standard : state.policy.IsStandard limiter memo)
    (granted : limiter.depth key ≤ Input.remaining setting.input key.position)
    {outcome : Outcome (Symbol α)}
    (remembered : memo.find? key = some (outcome.sealedAs (names key.tag).kind)) :
    setting.Performs names given (.call parser) state memo (.answered outcome)
      (outcome.landing key.position) memo := by
  have unrefused : limiter.refuses key (key.call setting.input).remaining = false :=
    decide_eq_false (Nat.not_lt.mpr granted)
  rw [← Parser.kind_eq_of_core named] at remembered
  obtain ⟨answer, limiterToo, standardToo⟩ :=
    standard.enter_remembered (Key.key?_call setting.input key) unrefused remembered
  rw [← Key.callAt_eq setting.input tagged here] at answer standardToo
  have ended : Ends setting (.call parser) state _ _ := .answered answer
  rw [settle_sealedAs] at ended
  refine ⟨_, limiterToo, ended, ?_, standardToo, .refl memo⟩
  exact congrArg outcome.landing here

/-- A call of a key beyond the limit is refused. -/
theorem performs_refused {given : Key → Outcome (Symbol α) → Prop} (key : Key)
    (tagged : parser.tag = some key.tag) (here : state.cursor = key.position)
    (standard : state.policy.IsStandard limiter memo)
    (beyond : Input.remaining setting.input key.position < limiter.depth key) :
    setting.Performs names given (.call parser) state memo
      (.answered (.error (DepthLimiter.refusal (key.call setting.input)))) key.position memo := by
  obtain ⟨answer, standardToo⟩ :=
    standard.enter_refused (Key.key?_call setting.input key) (decide_eq_true beyond)
  have same := Key.callAt_eq setting.input tagged here
  rw [← same] at answer standardToo
  rw [← same]
  exact ⟨_, limiter, .answered answer, here, standardToo, .refl memo⟩

/-- A call of a key of which nothing is remembered is executed, and the key is active once more. -/
theorem entered_open (setting : Setting ι α) (parser : Parser ι α) (key : Key)
    (tagged : parser.tag = some key.tag) (here : state.cursor = key.position)
    (standard : state.policy.IsStandard limiter memo)
    (granted : limiter.depth key ≤ Input.remaining setting.input key.position)
    (missing : memo.find? key = none) :
    (setting.entry parser state).answer = none ∧
      (setting.entered parser state).policy.IsStandard (limiter.opened key) memo := by
  have unrefused : limiter.refuses key (key.call setting.input).remaining = false :=
    decide_eq_false (Nat.not_lt.mpr granted)
  have opened := standard.enter_open (Key.key?_call setting.input key) unrefused missing
  rwa [← Key.callAt_eq setting.input tagged here] at opened

/--
If the body of an executed call remembers nothing of the key, then what it makes is stored, and
otherwise what is remembered grows.
-/
theorem Ends.of_executed (key : Key) (current : Outcome (Symbol α))
    (tagged : parser.tag = some key.tag)
    (named : parser.core = names key.tag) (here : state.cursor = key.position)
    (unanswered : (setting.entry parser state).answer = none) {result : Result α}
    {middle : State α} {limiterMid : DepthLimiter} {memoMid : Memoizer α}
    (ran : Ends setting (.body parser) (setting.entered parser state) (.replied result) middle)
    (forward : ∀ symbol, result = .ok symbol → key.position ≤ middle.cursor)
    (standard : middle.policy.IsStandard limiterMid memoMid) {value : Outcome (Symbol α)}
    (remembered : (memoMid.find? key = none ∧
        value = .ofResult key.position middle.cursor result) ∨
      (memoMid.find? key = some (current.sealedAs (names key.tag).kind) ∧
        value = current.grow (.ofResult key.position middle.cursor result))) :
    ∃ final limiterToo memoToo, Ends setting (.call parser) state (.answered value) final ∧
      final.cursor = value.landing key.position ∧ final.policy.IsStandard limiterToo memoToo ∧
      memoToo.find? key = some (value.sealedAs (names key.tag).kind) ∧
      ∀ other, other ≠ key → memoToo.find? other = memoMid.find? other := by
  rw [← Parser.kind_eq_of_core named] at remembered ⊢
  rw [← here] at remembered forward ⊢
  have keyed : (callAt setting.input state.cursor parser).key? = some key := by
    rw [Key.callAt_eq setting.input tagged here, Key.key?_call]
  obtain ⟨returns, limiterToo, memoToo, left, stored⟩ :=
    leave_grows parser.kind standard keyed remembered
  obtain ⟨final, ends, stops, policy_eq⟩ := Ends.of_body unanswered ran forward returns
  rw [← policy_eq] at left
  exact ⟨final, limiterToo, memoToo, ends, stops, left, stored⟩

theorem performs_executed (given : Key → Outcome (Symbol α) → Prop)
    (current : Outcome (Symbol α)) (tagged : parser.tag = some key.tag)
    (named : parser.core = names key.tag) (here : state.cursor = key.position)
    (standard : state.policy.IsStandard limiter memo)
    (granted : limiter.depth key ≤ Input.remaining setting.input key.position)
    (missing : memo.find? key = none) {result : Result α} {stop : Nat}
    (forward : ∀ symbol, result = .ok symbol → key.position ≤ stop)
    {value : Outcome (Symbol α)}
    (body : (setting.entered parser state).policy.IsStandard (limiter.opened key) memo →
      ∃ memoMid, setting.Performs names given (.body parser) (setting.entered parser state) memo
          (.replied result) stop memoMid ∧
        ((memoMid.find? key = none ∧ value = .ofResult key.position stop result) ∨
          (memoMid.find? key = some (current.sealedAs (names key.tag).kind) ∧
            value = current.grow (.ofResult key.position stop result))))
    (elsewhere : ∀ other outcome, other ≠ key → given other outcome → others other outcome) :
    ∃ memoToo, setting.Performs names (answeredWith key value others) (.call parser) state memo
        (.answered value) (value.landing key.position) memoToo ∧
      memoToo.find? key = some (value.sealedAs (names key.tag).kind) := by
  obtain ⟨unanswered, entered⟩ :=
    entered_open setting parser key tagged here standard granted missing
  obtain ⟨memoMid, ⟨middle, limiterMid, ran, rfl, standardMid, gains⟩, remembered⟩ := body entered
  obtain ⟨final, limiterToo, memoToo, ends, stops, standardToo, stored, kept⟩ :=
    ran.of_executed key current tagged named here unanswered forward standardMid remembered
  refine ⟨memoToo, ⟨final, limiterToo, ends, stops, standardToo, fun other => ?_⟩, stored⟩
  by_cases equal : other = key
  · subst equal
    exact .inr ⟨value, by rw [answeredWith, if_pos rfl], stored⟩
  · rw [kept other equal]
    refine (gains other).imp_right fun gained => ?_
    obtain ⟨outcome, allowed, found⟩ := gained
    refine ⟨outcome, ?_, found⟩
    rw [answeredWith, if_neg equal]
    exact elsewhere other outcome equal allowed

end Keys

/-! ## Growing on the engine -/

def DepthLimiter.Idle (given : Key → Outcome (Symbol α) → Prop) (limiter : DepthLimiter) : Prop :=
  ∀ key outcome, given key outcome → limiter.depth key = 0

omit [Input ι] in
theorem DepthLimiter.Idle.mono {given more : Key → Outcome (Symbol α) → Prop}
    {limiter : DepthLimiter} (idle : limiter.Idle given)
    (narrower : ∀ key outcome, more key outcome → given key outcome) : limiter.Idle more :=
  fun key outcome allowed => idle key outcome (narrower key outcome allowed)

/--
Under a standard chain that remembers of the keys nothing but what is given for them, and in
which none of them is active, their calls are answered with what is given.
-/
def Setting.Serves (setting : Setting ι α) (names : Tag → Parser ι α)
    (given : Key → Outcome (Symbol α) → Prop) : Prop :=
  ∀ {key outcome parser state limiter memo}, given key outcome → parser.tag = some key.tag →
    parser.core = names key.tag → state.cursor = key.position →
    state.policy.IsStandard limiter memo → limiter.Idle given → memo.Follows names given →
    ∃ memoToo, setting.Performs names given (.call parser) state memo (.answered outcome)
      (outcome.landing key.position) memoToo

section Growing

variable {setting : Setting ι α} {names : Tag → Parser ι α}
  {others : Key → Outcome (Symbol α) → Prop} {key : Key} {parser : Parser ι α} {state : State α}
  {limiter : DepthLimiter} {memo : Memoizer α}

theorem Yields.body_core {allowed : Answering ι α} {position stop : Nat} {halt : Halt α} :
    Yields setting allowed (.body parser.core) position halt stop ↔
      Yields setting allowed (.body parser) position halt stop := by
  induction parser using Parser.core.induct with
  | case1 tag inner => exact (body_iff_of_becomes fun _ => rfl).symm
  | case2 events inner ih => exact ih.trans (body_iff_of_becomes fun _ => rfl).symm
  | case3 parser retag recording =>
      rw [Parser.core]
      · exact retag
      · exact recording

omit [Input ι] in
theorem DepthLimiter.Idle.opened (idle : limiter.Idle others)
    (never : ∀ outcome, ¬ others key outcome) : (limiter.opened key).Idle others := by
  intro other outcome allowed
  have different : key ≠ other := by
    rintro rfl
    exact never outcome allowed
  rw [depth_opened, if_neg different, idle other outcome allowed]

/-- While a key grows: how often it is active in a standard chain, and what is remembered. -/
structure Ready (names : Tag → Parser ι α) (others given : Key → Outcome (Symbol α) → Prop)
    (key : Key) (depth : Nat) (limiter : DepthLimiter) (memo : Memoizer α) : Prop where
  idle : limiter.Idle others
  active : limiter.depth key = depth
  follows : memo.Follows names given

omit [Input ι] in
theorem Ready.gains {given : Key → Outcome (Symbol α) → Prop} {depth : Nat}
    {limiterToo : DepthLimiter} {memoToo : Memoizer α}
    (functional : ∀ other one two, given other one → given other two → one = two)
    (ready : Ready names others given key depth limiter memo)
    (same : ∀ key, limiterToo.depth key = limiter.depth key)
    (gains : memo.Gains names given memoToo) :
    Ready names others given key depth limiterToo memoToo where
  idle other outcome allowed := by rw [same, ready.idle other outcome allowed]
  active := by rw [same, ready.active]
  follows := ready.follows.gains functional gains

/--
The body of a growing key is performed if the calls of the key itself are.  All other calls are
performed because they settle without the key.
-/
theorem performs_body (serves : setting.Serves names others)
    {given : Key → Outcome (Symbol α) → Prop}
    (functional : ∀ other one two, given other one → given other two → one = two)
    (wider : ∀ other outcome, others other outcome → given other outcome)
    {answer : Outcome (Symbol α)} (avoiding : Answering ι α)
    (spared : ∀ parser place outcome,
      Answering.named names (unansweredAt key others) parser place outcome →
      avoiding parser place outcome) {depth : Nat}
    (own : ∀ {parser state limiter memo}, parser.tag = some key.tag →
      parser.core = names key.tag → state.cursor = key.position →
      state.policy.IsStandard limiter memo → Ready names others given key depth limiter memo →
      ∃ memoToo, setting.Performs names given (.call parser) state memo (.answered answer)
        (answer.landing key.position) memoToo ∧
        (memoToo.find? key = none → avoiding parser key.position answer))
    {result : Result α} {stop : Nat}
    (replies : setting.Replies (.named names (answeredWith key answer others)) (names key.tag)
      key.position result stop)
    (named : parser.core = names key.tag) (here : state.cursor = key.position)
    (standard : state.policy.IsStandard limiter memo)
    (ready : Ready names others given key depth limiter memo) :
    ∃ memoMid, setting.Performs names given (.body parser) state memo (.replied result) stop
        memoMid ∧
      (memoMid.find? key = none →
        Yields setting avoiding (.body parser) key.position (.replied result) stop) := by
  rw [← named] at replies
  refine (Yields.body_core.mp replies).performs avoiding key (Ready.gains functional) ?_ here
    standard ready
  rintro other place outcome start limiter memo ⟨tag, tagged, core_eq, allowed⟩ starts chain ready
  unfold answeredWith at allowed
  split at allowed
  · next same =>
      cases same
      rw [allowed]
      exact own tagged core_eq starts chain ready
  · next different =>
      obtain ⟨memoToo, final, limiterToo, ends, stops, standardToo, gains⟩ :=
        serves allowed tagged core_eq starts chain ready.idle (ready.follows.mono wider)
      refine ⟨memoToo, ⟨final, limiterToo, ends, stops, standardToo, gains.mono wider⟩, fun _ => ?_⟩
      exact spared other place outcome ⟨tag, tagged, core_eq, different, allowed⟩

/--
The first round of growing: the key is active once more than elements are left, so that the
calls of the key that its body makes are refused.
-/
theorem performs_first (serves : setting.Serves names others)
    (functional : ∀ other one two, others other one → others other two → one = two)
    (never : ∀ outcome, ¬ others key outcome) {made : Outcome (Symbol α)}
    (round : setting.Round names
      (answeredWith key (.error (DepthLimiter.refusal (key.call setting.input))) others) key made)
    (tagged : parser.tag = some key.tag) (named : parser.core = names key.tag)
    (here : state.cursor = key.position) (standard : state.policy.IsStandard limiter memo)
    (idle : limiter.Idle others) (follows : memo.Follows names others)
    (deep : limiter.depth key = Input.remaining setting.input key.position)
    (missing : memo.find? key = none) :
    ∃ memoToo, setting.Performs names (answeredWith key made others) (.call parser) state memo
        (.answered made) (made.landing key.position) memoToo ∧
      memoToo.find? key = some (made.sealedAs (names key.tag).kind) := by
  obtain ⟨result, stop, replies, forward, rfl⟩ := round
  let made : Outcome (Symbol α) := .ofResult key.position stop result
  refine performs_executed others made tagged named here standard (Nat.le_of_eq deep) missing
    forward (fun entered => ?_) fun _ _ _ allowed => allowed
  have ready : Ready names others others key
      (Input.remaining setting.input key.position + 1) (limiter.opened key) memo :=
    ⟨idle.opened never, by rw [DepthLimiter.depth_opened, if_pos rfl, deep], follows⟩
  let anything : Answering ι α := fun _ _ _ => True
  have hereToo : (setting.entered parser state).cursor = key.position := here
  obtain ⟨memoMid, performs, -⟩ := performs_body serves functional (fun _ _ => id) anything
    (fun _ _ _ _ => trivial)
    (fun tagged _ here standard ready => ⟨_, performs_refused key tagged here standard (by
      rw [ready.active]
      exact Nat.lt_succ_self _), fun _ => trivial⟩) replies named hereToo entered ready
  obtain ⟨final, limiterToo, ends, stops, standardToo, gains⟩ := performs
  refine ⟨memoMid, ⟨final, limiterToo, ends, stops, standardToo, gains⟩, .inl ⟨?_, rfl⟩⟩
  rw [gains.find?_eq never, missing]

/--
At every depth of its descent a call of a growing key is answered with the seed after as many
rounds as the limit leaves room for.
-/
theorem Setting.Grows.performs (serves : setting.Serves names others)
    (functional : ∀ other one two, others other one → others other two → one = two)
    (never : ∀ outcome, ¬ others key outcome) {rounds : Nat} {seed : Outcome (Symbol α)}
    (grows : setting.Grows names others key rounds seed)
    (tagged : parser.tag = some key.tag) (named : parser.core = names key.tag)
    (here : state.cursor = key.position) (standard : state.policy.IsStandard limiter memo)
    (idle : limiter.Idle others) (follows : memo.Follows names others)
    (deep : limiter.depth key + rounds = Input.remaining setting.input key.position)
    (missing : memo.find? key = none) :
    ∃ memoToo, setting.Performs names (answeredWith key seed others) (.call parser) state memo
        (.answered seed) (seed.landing key.position) memoToo ∧
      memoToo.find? key = some (seed.sealedAs (names key.tag).kind) := by
  induction grows generalizing parser state limiter memo with
  | first round =>
      exact performs_first serves functional never round tagged named here standard idle follows
        deep missing
  | @next rounds current made grows round ih =>
      have whole := Grows.next grows round
      have wider (other : Key) (outcome : Outcome (Symbol α)) (allowed : others other outcome) :
          answeredWith key current others other outcome := by
        have different : other ≠ key := by
          rintro rfl
          exact never outcome allowed
        rw [answeredWith, if_neg different]
        exact allowed
      have asked : answeredWith key current others key current := by rw [answeredWith, if_pos rfl]
      obtain ⟨result, stop, replies, forward, rfl⟩ := round
      have granted : limiter.depth key ≤ Input.remaining setting.input key.position := by omega
      refine performs_executed (answeredWith key current others) current tagged named here standard
        granted missing forward (fun entered => ?_) fun other outcome different allowed => ?_
      · have ready : Ready names others (answeredWith key current others) key
            (limiter.depth key + 1) (limiter.opened key) memo := by
          refine ⟨idle.opened never, by rw [DepthLimiter.depth_opened, if_pos rfl], ?_⟩
          intro other outcome allowed
          unfold answeredWith at allowed
          split at allowed
          · next same => exact .inl (by rw [same, missing])
          · exact follows other outcome allowed
        have own {other : Parser ι α} {start : State α} {limiterIn : DepthLimiter}
            {memoIn : Memoizer α} (tagged : other.tag = some key.tag)
            (named : other.core = names key.tag) (here : start.cursor = key.position)
            (standard : start.policy.IsStandard limiterIn memoIn)
            (ready : Ready names others (answeredWith key current others) key
              (limiter.depth key + 1) limiterIn memoIn) :
            ∃ memoToo, setting.Performs names (answeredWith key current others) (.call other) start
                memoIn (.answered current) (current.landing key.position) memoToo ∧
              (memoToo.find? key = none →
                Answering.named names (unansweredAt key others) other key.position current) := by
          rcases ready.follows key current asked with missing | found
          · have deeper : limiterIn.depth key + rounds =
                Input.remaining setting.input key.position := by
              rw [ready.active]
              omega
            obtain ⟨memoToo, performs, stored⟩ := ih tagged named here standard ready.idle
              (ready.follows.mono wider) deeper missing
            exact ⟨memoToo, performs, fun lost => by rw [lost] at stored; cases stored⟩
          · have granted : limiterIn.depth key ≤ Input.remaining setting.input key.position := by
              rw [ready.active]
              omega
            exact ⟨memoIn, performs_remembered tagged named here standard granted found,
              fun lost => by rw [lost] at found; cases found⟩
        have hereToo : (setting.entered parser state).cursor = key.position := here
        obtain ⟨memoMid, performs, avoids⟩ := performs_body serves
          (answeredWith_unique functional current) wider _ (fun _ _ _ => id) own replies named
          hereToo entered ready
        refine ⟨memoMid, performs, ?_⟩
        obtain ⟨final, limiterMid, -, -, -, gains⟩ := performs
        have follows := ready.follows.gains (answeredWith_unique functional current) gains
        rcases follows key current asked with lost | found
        · -- The body never asked for the key, and so growing has ended at once.
          refine .inl ⟨lost, whole.eq_of_unasked functional ⟨result, stop, ?_, forward, rfl⟩⟩
          have replied := avoids lost
          rw [← Yields.body_core, named] at replied
          exact replied
        · exact .inr ⟨found, rfl⟩
      · rwa [answeredWith, if_neg different] at allowed

/-- Whatever settles within a height is served. -/
theorem Setting.settlesWithin_serves (setting : Setting ι α) (names : Tag → Parser ι α)
    (height : Nat) : setting.Serves names (setting.SettlesWithin names height) := by
  induction height with
  | zero => exact fun settles => settles.elim
  | succ height ih =>
      intro key outcome parser state limiter memo settles tagged named here standard idle follows
      have narrower (other : Key) (made : Outcome (Symbol α))
          (given : setting.SettlesWithin names height other made) :
          setting.SettlesWithin names (height + 1) other made :=
        given.mono (Nat.le_succ height)
      by_cases lower : ∃ other, setting.SettlesWithin names height key other
      · obtain ⟨other, lower⟩ := lower
        cases SettlesWithin.unique _ _ _ settles (narrower _ _ lower)
        obtain ⟨memoToo, final, limiterToo, ends, stops, standardToo, gains⟩ :=
          ih lower tagged named here standard (idle.mono narrower) (follows.mono narrower)
        exact ⟨memoToo, final, limiterToo, ends, stops, standardToo, gains.mono narrower⟩
      · -- The key is needed by nothing below the height, where the table may hold its seeds.
        have never (outcome : Outcome (Symbol α))
            (given : setting.SettlesWithin names height key outcome) : False :=
          lower ⟨outcome, given⟩
        have inactive := idle key outcome settles
        rcases follows key outcome settles with missing | found
        · obtain ⟨memoToo, ⟨final, limiterToo, ends, stops, standardToo, gains⟩, -⟩ :=
            Grows.performs ih SettlesWithin.unique never settles tagged named here standard
              (idle.mono narrower) (follows.mono narrower) (by rw [inactive, Nat.zero_add]) missing
          refine ⟨memoToo, final, limiterToo, ends, stops, standardToo, gains.mono ?_⟩
          intro other made given
          unfold answeredWith at given
          split at given
          · next same =>
              rw [same, given]
              exact settles
          · exact narrower other made given
        · exact ⟨memo, performs_remembered tagged named here standard
            (by rw [inactive]; exact Nat.zero_le _) found⟩

/-- Whatever settles is served. -/
theorem Setting.settles_serves (setting : Setting ι α) (names : Tag → Parser ι α) :
    setting.Serves names (setting.Settles names) := by
  intro key outcome parser state limiter memo settles tagged named here standard idle follows
  obtain ⟨height, settles⟩ := settles
  have narrower (other : Key) (outcome : Outcome (Symbol α))
      (given : setting.SettlesWithin names height other outcome) :
      setting.Settles names other outcome := ⟨height, given⟩
  obtain ⟨memoToo, final, limiterToo, ends, stops, standardToo, gains⟩ :=
    setting.settlesWithin_serves names height settles tagged named here standard
      (idle.mono narrower) (follows.mono narrower)
  exact ⟨memoToo, final, limiterToo, ends, stops, standardToo, gains.mono narrower⟩

end Growing

end Packrat
