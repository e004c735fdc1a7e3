import Packrat.Proofs.ActiveCalls

/-!
# Accounting for active calls

A re-entrancy limit keeps a map of counts for every position with active calls.  The start of a
call adds to a count and its end writes the count down again, so at every moment the maps hold
exactly the active calls: no count is zero and no map is empty.  Maps of this form are determined
by the depths of all keys, and a call, which has the same calls around it at its start and at its
end, leaves the maps as it found them.
-/

namespace Packrat

variable {ι α : Type}

namespace DepthLimiter

/-- Every map that is kept for a position counts something, and nothing is counted zero times. -/
def Pruned (limiter : DepthLimiter) : Prop :=
  ∀ (position : Nat) (tags : Std.HashMap Tag Nat), limiter.depths[position]? = some tags →
    tags.isEmpty = false ∧ ∀ (tag : Tag) (depth : Nat), tags[tag]? = some depth → 0 < depth

/-- The same tags are counted equally often at the same positions. -/
def Agrees (one other : DepthLimiter) : Prop :=
  ∀ position : Nat, Option.Rel Std.HashMap.Equiv one.depths[position]? other.depths[position]?

variable {limiter other : DepthLimiter} {key : Key} {position : Nat}

theorem empty_pruned : empty.Pruned := fun position tags held => by
  rw [empty, Std.HashMap.getElem?_empty] at held
  cases held

/-- Writing a depth leaves no superfluous entries. -/
theorem Pruned.withDepth (pruned : limiter.Pruned) (key : Key) (depth : Nat) :
    (limiter.withDepth key depth).Pruned := by
  intro position tags held
  by_cases here : key.position = position
  · subst here
    rw [depths_withDepth_here] at held
    split at held
    · next active =>
        cases held
        refine ⟨Std.HashMap.isEmpty_insert, fun tag found there => ?_⟩
        rw [Std.HashMap.getElem?_insert, Std.HashMap.getD_eq_getD_getElem?] at there
        split at there
        · cases there
          exact active
        · cases before : limiter.depths[key.position]? with
          | none => simp [before] at there
          | some tagsBefore =>
              rw [before] at there
              exact (pruned _ _ before).2 tag found there
    · obtain ⟨erased, inhabited⟩ := Option.filter_eq_some_iff.mp held
      obtain ⟨tagsBefore, before, rfl⟩ := Option.map_eq_some_iff.mp erased
      refine ⟨Bool.not_inj (inhabited.trans Bool.not_false.symm), fun tag found there => ?_⟩
      rw [Std.HashMap.getElem?_erase] at there
      split at there
      · cases there
      · exact (pruned _ _ before).2 tag found there
  · rw [depths_withDepth_elsewhere here] at held
    exact pruned position tags held

theorem Pruned.exists_depth (pruned : limiter.Pruned) {tags : Std.HashMap Tag Nat}
    (held : limiter.depths[position]? = some tags) : ∃ tag, 0 < limiter.depth ⟨position, tag⟩ := by
  obtain ⟨inhabited, positive⟩ := pruned position tags held
  obtain ⟨tag, member⟩ := Std.HashMap.isEmpty_eq_false_iff_exists_mem.mp inhabited
  refine ⟨tag, ?_⟩
  have there := Std.HashMap.getElem?_eq_some_getElem member
  rw [depth, held, Option.bind_some, there]
  exact positive tag _ there

theorem depth_of_none {tag : Tag} (missing : limiter.depths[position]? = none) :
    limiter.depth ⟨position, tag⟩ = 0 := by
  rw [depth, missing]
  rfl

/-- Limits without superfluous entries that count the same agree. -/
theorem Pruned.agrees (pruned : limiter.Pruned) (prunedToo : other.Pruned)
    (same : ∀ key, limiter.depth key = other.depth key) : limiter.Agrees other := by
  intro position
  cases held : limiter.depths[position]? with
  | none =>
      cases heldToo : other.depths[position]? with
      | none => exact .none
      | some tags =>
          obtain ⟨tag, positive⟩ := prunedToo.exists_depth heldToo
          rw [← same, depth_of_none held] at positive
          exact absurd positive (Nat.lt_irrefl 0)
  | some tags =>
      cases heldToo : other.depths[position]? with
      | none =>
          obtain ⟨tag, positive⟩ := pruned.exists_depth held
          rw [same, depth_of_none heldToo] at positive
          exact absurd positive (Nat.lt_irrefl 0)
      | some tagsToo =>
          refine .some (.of_forall_getElem?_eq fun tag => ?_)
          have counted := same ⟨position, tag⟩
          rw [depth, depth, held, heldToo] at counted
          simp only [Option.bind_some] at counted
          have positive := (pruned position tags held).2 tag
          have positiveToo := (prunedToo position tagsToo heldToo).2 tag
          cases first : tags[tag]? <;> cases second : tagsToo[tag]? <;> simp_all

theorem Pruned.isEmpty (pruned : limiter.Pruned) (idle : ∀ key, limiter.depth key = 0) :
    limiter.depths.isEmpty = true := by
  rw [Std.HashMap.isEmpty_iff_forall_not_mem]
  intro position member
  obtain ⟨tag, positive⟩ :=
    pruned.exists_depth (Std.HashMap.getElem?_eq_some_getElem member)
  exact absurd (idle ⟨position, tag⟩) (Nat.ne_of_gt positive)

end DepthLimiter

namespace Policy

/-- Policies of one shape whose limits are related one by one. -/
def Paired (relates : DepthLimiter → DepthLimiter → Prop) : Policy α → Policy α → Prop
  | .identity, .identity => True
  | .tracer _, .tracer _ => True
  | .depthLimiter limiter, .depthLimiter other => relates limiter other
  | .memoizer _, .memoizer _ => True
  | .recorder _, .recorder _ => True
  | .chain outer inner, .chain outerToo innerToo =>
      Paired relates outer outerToo ∧ Paired relates inner innerToo
  | _, _ => False

theorem Deepened.paired {extra : Key → Nat} {holds holdsToo : DepthLimiter → Prop}
    {relates : DepthLimiter → DepthLimiter → Prop} {policy other : Policy α}
    (deepened : policy.Deepened extra other) (limits : policy.Limits holds)
    (limitsToo : other.Limits holdsToo)
    (implies : ∀ limiter deeper, holds limiter → holdsToo deeper →
      (∀ key, deeper.depth key = limiter.depth key + extra key) → relates limiter deeper) :
    policy.Paired relates other := by
  induction policy generalizing other with
  | depthLimiter limiter =>
      cases other with
      | depthLimiter deeper => exact implies limiter deeper limits limitsToo deepened
      | _ => exact deepened.elim
  | chain outer inner outerIh innerIh =>
      cases other with
      | chain outerToo innerToo =>
          exact ⟨outerIh deepened.1 limits.1 limitsToo.1, innerIh deepened.2 limits.2 limitsToo.2⟩
      | _ => exact deepened.elim
  | _ => cases other <;> first | exact deepened.elim | trivial

end Policy

theorem DepthLimiter.Brackets.pruned (call : Call) :
    Brackets call DepthLimiter.Pruned DepthLimiter.Pruned where
  untagged _ _ := Iff.rfl
  opened _ key _ _ pruned := pruned.withDepth key _
  closed _ key _ pruned := pruned.withDepth key _

section Runs

variable [Input ι] {setting : Setting ι α}

/-- However a run ends, no limit is left with superfluous entries. -/
theorem Ends.pruned {control : Control ι α} {state final : State α} {halt : Halt α}
    (ends : Ends setting control state halt final)
    (pruned : state.policy.Limits DepthLimiter.Pruned) :
    final.policy.Limits DepthLimiter.Pruned := by
  have enters (call : Call) {policy : Policy α} (pruned : policy.Limits DepthLimiter.Pruned) :
      (policy.enter call).policy.Limits DepthLimiter.Pruned := by
    obtain ⟨opens, answers⟩ := Policy.enter_limits (.pruned call) pruned
    cases answer : (policy.enter call).answer with
    | none => exact opens answer
    | some outcome => exact answers outcome answer
  induction ends with
  | reply result state => exact pruned
  | read symbol stop state => exact pruned
  | abort fault state => exact pruned
  | become _ ih => exact ih pruned
  | body _ ih => exact ih pruned
  | resumed _ _ callIh moveIh => exact moveIh (callIh pruned)
  | lost _ ih => exact ih pruned
  | answered _ =>
      rw [settle_policy]
      exact enters _ pruned
  | executed _ _ _ ih =>
      rw [conclude_policy]
      exact Policy.leave_limits (.pruned _) (ih (enters _ pruned)) _
  | unsealed _ _ _ ih => exact ih (enters _ pruned)
  | broken _ _ ih => exact ih (enters _ pruned)

/-- A call leaves the maps of every limit as it found them. -/
theorem Ends.agrees {called : Parser ι α} {state final : State α} {outcome : Outcome (Symbol α)}
    (ends : Ends setting (.call called) state (.answered outcome) final)
    (pruned : state.policy.Limits DepthLimiter.Pruned) :
    state.policy.Paired DepthLimiter.Agrees final.policy := by
  have balanced : state.policy.Balanced final.policy := ends.balances
  exact balanced.paired pruned (ends.pruned pruned) fun _ _ pruned prunedToo same =>
    pruned.agrees prunedToo fun key => (same key).symm

/-- To take a call back is to write down again the depth that was found when the call started. -/
theorem Ends.restores {called : Parser ι α} {state middle : State α} {result : Result α}
    (unanswered : (setting.entry called state).answer = none)
    (ends : Ends setting (.body called) (setting.entered called state) (.replied result) middle)
    {key : Key} (tagged : (callAt setting.input state.cursor called).key? = some key) :
    state.policy.Paired
      (fun found left => left.closed key = left.withDepth key (found.depth key)) middle.policy := by
  have opened := (Policy.enter_deepened state.policy _).1 unanswered
  have balanced : (setting.entered called state).policy.Balanced middle.policy := ends.balances
  refine (opened.trans_balanced balanced).paired (Policy.limits_of_all (fun _ => trivial) _)
    (Policy.limits_of_all (fun _ => trivial) _) fun found left _ _ counted => ?_
  rw [DepthLimiter.closed, counted, Call.opens, if_pos tagged, Nat.add_sub_cancel]

end Runs

/-! ## At every moment -/

section Moments

variable [Input ι] {input : ι}

/-- A limit counts the active calls, within the bound of the remaining input, and nothing else. -/
structure DepthLimiter.Accounts (input : ι) (calls : List Call) (limiter : DepthLimiter) :
    Prop where
  counts : limiter.Counts calls
  bounded : ∀ key : Key, limiter.depth key ≤ Input.remaining input key.position + 1
  pruned : limiter.Pruned

theorem DepthLimiter.Accounts.empty (input : ι) : DepthLimiter.empty.Accounts input [] where
  counts := .empty
  bounded key := by
    rw [depth_empty]
    exact Nat.zero_le _
  pruned := empty_pruned

theorem DepthLimiter.Brackets.accounts {call : Call}
    (measured : call.remaining = Input.remaining input call.position) (calls : List Call) :
    Brackets call (DepthLimiter.Accounts input calls)
      (DepthLimiter.Accounts input (call :: calls)) where
  untagged missing limiter :=
    ⟨fun accounts => ⟨(Counts.untagged missing).mpr accounts.counts, accounts.bounded,
        accounts.pruned⟩,
      fun accounts => ⟨(Counts.untagged missing).mp accounts.counts, accounts.bounded,
        accounts.pruned⟩⟩
  opened limiter key tagged allowed accounts := by
    refine ⟨accounts.counts.opened tagged, fun other => ?_, accounts.pruned.withDepth key _⟩
    have within := accounts.bounded other
    rw [depth_opened]
    split
    · next same =>
        subst same
        have free : ¬ call.remaining < limiter.depth key := of_decide_eq_false allowed
        rw [measured, ← Call.position_of_key? tagged] at free
        omega
    · exact within
  closed limiter key tagged accounts := by
    refine ⟨accounts.counts.closed tagged, fun other => ?_, accounts.pruned.withDepth key _⟩
    rw [depth_closed]
    exact Nat.le_trans (Nat.sub_le _ _) (accounts.bounded other)

/-- Every step keeps the account, and every active call knows how much of the input was left. -/
theorem Turn.accounts {policy policyToo : Policy α} {calls callsToo : List Call}
    {deed? : Option (Deed α)} (turn : Turn input policy calls deed? policyToo callsToo)
    (accounts : policy.Limits (DepthLimiter.Accounts input calls) ∧
      ∀ call ∈ calls, call.remaining = Input.remaining input call.position) :
    policyToo.Limits (DepthLimiter.Accounts input callsToo) ∧
      ∀ call ∈ callsToo, call.remaining = Input.remaining input call.position := by
  obtain ⟨limits, all⟩ := accounts
  cases turn with
  | quiet => exact ⟨limits, all⟩
  | answered measured answer =>
      exact ⟨(Policy.enter_limits (.accounts measured _) limits).2 _ answer, all⟩
  | started measured missing =>
      refine ⟨(Policy.enter_limits (.accounts measured _) limits).1 missing, fun call member => ?_⟩
      rcases List.mem_cons.mp member with rfl | member
      · exact measured
      · exact all call member
  | ended _ =>
      exact ⟨Policy.leave_limits (.accounts (all _ List.mem_cons_self) _) limits _,
        fun call member => all call (List.mem_cons_of_mem _ member)⟩

variable {policy : Policy α} {arena : Arena ι α} {parser : Parser ι α} {history : List (Deed α)}
  {moment : Moment ι α}

/-- At every moment every limit accounts for the active calls. -/
theorem Lives.accounts (fresh : policy.Fresh)
    (lives : Lives input (.birth policy arena parser) history moment) :
    moment.policy.Limits (DepthLimiter.Accounts input moment.config.calls) :=
  (lives.keeps (fun _ policy calls => policy.Limits (DepthLimiter.Accounts input calls) ∧
      ∀ call ∈ calls, call.remaining = Input.remaining input call.position)
    ⟨Policy.limits_of_fresh (.empty input) fresh, nofun⟩ fun accounts turn =>
      turn.accounts accounts).1

/-- A limit refuses a call exactly if the calls of its key have used up the bound. -/
theorem DepthLimiter.Accounts.answer_eq {limiter : DepthLimiter} {calls : List Call}
    (accounts : limiter.Accounts input calls) {call : Call} {key : Key}
    (tagged : call.key? = some key)
    (measured : call.remaining = Input.remaining input key.position) :
    ((Policy.depthLimiter limiter : Policy α).enter call).answer =
      if callsOf key calls = Input.remaining input key.position + 1 then
        some (.error (refusal call))
      else none := by
  have within := accounts.bounded key
  rw [accounts.counts key] at within
  simp only [Policy.enter, tagged, refuses, accounts.counts key, measured, decide_eq_true_eq]
  split
  · next more => rw [if_pos (by omega)]
  · next few => rw [if_neg (by omega)]

/--
At every moment of every sequence of runs, a limit counts the calls that have started and not
ended, never more of a key than elements are left and one more; it refuses a call exactly if so
many are active, it has no superfluous entries, and between runs it has none at all.  Whatever is
called leaves the maps of all limits as it found them, and taking a call back writes down the
depth that was found at its start.
-/
theorem depths_account_for_calls (fresh : policy.Fresh)
    (lives : Lives input (.birth policy arena parser) history moment) :
    (moment.policy.Limits fun limiter =>
      (∀ key, limiter.depth key = callsOf key (openCalls history) ∧
        limiter.depth key ≤ Input.remaining input key.position + 1) ∧
      (∀ call key, call.key? = some key →
        call.remaining = Input.remaining input key.position →
        ((Policy.depthLimiter limiter : Policy α).enter call).answer =
          if callsOf key (openCalls history) = Input.remaining input key.position + 1 then
            some (.error (DepthLimiter.refusal call))
          else none) ∧
      limiter.Pruned ∧ (moment.config.stack = [] → limiter.depths.isEmpty = true)) ∧
    ∀ called,
      (∀ outcome final,
        Ends ⟨input, moment.arena⟩ (.call called) moment.config.state (.answered outcome) final →
          moment.policy.Paired DepthLimiter.Agrees final.policy) ∧
      ∀ result middle key,
        (Setting.entry ⟨input, moment.arena⟩ called moment.config.state).answer = none →
        Ends ⟨input, moment.arena⟩ (.body called)
          (Setting.entered ⟨input, moment.arena⟩ called moment.config.state)
          (.replied result) middle →
        (callAt input moment.config.state.cursor called).key? = some key →
          moment.policy.Paired
            (fun found left => left.closed key = left.withDepth key (found.depth key))
            middle.policy := by
  have accounts := lives.accounts fresh
  obtain ⟨same, -⟩ := lives.open_calls rfl
  rw [← same] at accounts
  refine ⟨accounts.imp fun limiter accounts => ?_, fun called => ⟨fun outcome final ends => ?_, ?_⟩⟩
  · refine ⟨fun key => ⟨accounts.counts key, accounts.bounded key⟩,
      fun call key tagged measured => accounts.answer_eq tagged measured, accounts.pruned,
      fun bare => accounts.pruned.isEmpty fun key => ?_⟩
    rw [accounts.counts key, same, Config.calls, bare]
    rfl
  · exact ends.agrees (accounts.imp fun _ accounts => accounts.pruned)
  · intro result middle key unanswered ends tagged
    exact ends.restores unanswered tagged

end Moments

/-- While a rule runs on a single character, the limit counts its call, and one more is allowed. -/
theorem depths_account_for_calls_hopeless :
    ∃ moment : Moment (Array Char) Unit,
      Lives #['a'] (.birth .standard .empty hopelessItem) [.started hopelessCall] moment ∧
      moment.policy.Limits fun limiter => limiter.depth ⟨0, ⟨"item"⟩⟩ = 1 ∧ limiter.Pruned ∧
        ((Policy.depthLimiter limiter : Policy Unit).enter hopelessCall).answer = none := by
  let setting : Setting (Array Char) Unit := ⟨#['a'], .empty⟩
  have unanswered : (setting.entry hopelessItem (.initial .standard)).answer = none := by
    have granted : DepthLimiter.empty.refuses ⟨0, ⟨"item"⟩⟩ 1 = false := by
      rw [DepthLimiter.refuses, DepthLimiter.depth_empty]
      rfl
    change ((Policy.standard : Policy Unit).enter hopelessCall).answer = none
    simp only [Policy.standard, Policy.enter, hopelessCall, Call.key?, Option.map_some, granted,
      Bool.false_eq_true, if_false, Memoizer.find?_empty]
  have begun : Lives #['a'] (.birth .standard .empty hopelessItem) [] _ := .here
  have deed : Config.deed? setting ⟨.call hopelessItem, [], .initial .standard⟩ =
      some (.started hopelessCall) := Config.deed?_of_no_answer unanswered
  have started : Lives #['a'] (.birth .standard .empty hopelessItem)
      ((Config.deed? setting ⟨.call hopelessItem, [], .initial .standard⟩).toList ++ []) _ :=
    begun.step (congrArg Progress.next
      (Config.beginCall_of_no_answer setting hopelessItem [] _ unanswered))
  rw [deed] at started
  obtain ⟨limits, -⟩ := depths_account_for_calls Policy.standard_fresh started
  refine ⟨_, started, limits.imp fun limiter kept => ?_⟩
  obtain ⟨counts, answers, pruned, -⟩ := kept
  refine ⟨(counts _).1, pruned, ?_⟩
  rw [answers hopelessCall ⟨0, ⟨"item"⟩⟩ rfl rfl]
  rfl

end Packrat
