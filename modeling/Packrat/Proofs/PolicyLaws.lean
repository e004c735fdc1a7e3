import Packrat.Proofs.NaturalSemantics

/-!
# Laws of the policies

What policies remember is spread over a chain.  `Remembers` says that every memo table
of the chain satisfies a predicate, `Limits` says the same of every re-entrancy limit, and
`Deepened` compares the active calls that two chains of one shape count.  The laws state
what the start and the end of a call do to each of them, and that a run which has ended
counts as many active calls as before.
-/

namespace Packrat

variable {α : Type}

namespace DepthLimiter

section Writing

variable {limiter : DepthLimiter} {key : Key} {depth position : Nat}

theorem depths_withDepth_elsewhere (apart : key.position ≠ position) :
    (limiter.withDepth key depth).depths[position]? = limiter.depths[position]? := by
  have different : (key.position == position) = false := beq_eq_false_iff_ne.mpr apart
  unfold withDepth
  split
  · simp only [Std.HashMap.getElem?_insert, different, Bool.false_eq_true, if_false]
  · split
    · rfl
    · simp only
      split
      · simp only [Std.HashMap.getElem?_erase, different, Bool.false_eq_true, if_false]
      · simp only [Std.HashMap.getElem?_insert, different, Bool.false_eq_true, if_false]

theorem depths_withDepth_here :
    (limiter.withDepth key depth).depths[key.position]? =
      if 0 < depth then some ((limiter.depths.getD key.position ∅).insert key.tag depth)
      else (limiter.depths[key.position]?.map (·.erase key.tag)).filter (!·.isEmpty) := by
  unfold withDepth
  split
  · exact Std.HashMap.getElem?_insert_self
  · cases held : limiter.depths[key.position]? with
    | none => exact held
    | some tags =>
        rw [Option.map_some, Option.filter_some]
        simp only
        split
        · next empty => simp only [Std.HashMap.getElem?_erase_self, empty, Bool.not_true,
            Bool.false_eq_true, if_false]
        · next inhabited => simp only [Std.HashMap.getElem?_insert_self, inhabited, Bool.not_false,
            if_true]

theorem getElem?_of_isEmpty {tags : Std.HashMap Tag Nat} (empty : tags.isEmpty = true)
    (tag : Tag) : tags[tag]? = none :=
  Std.HashMap.getElem?_eq_none_of_contains_eq_false
    (Std.HashMap.isEmpty_iff_forall_contains.mp empty tag)

theorem bind_filter_inhabited (held : Option (Std.HashMap Tag Nat)) (tag : Tag) :
    (held.filter (!·.isEmpty)).bind (fun tags => tags[tag]?) =
      held.bind fun tags => tags[tag]? := by
  cases held with
  | none => rfl
  | some tags =>
      rw [Option.filter_some]
      split
      · rfl
      · next empty =>
          rw [Option.bind_some, getElem?_of_isEmpty (by simpa using empty)]
          rfl

end Writing

theorem depth_withDepth (limiter : DepthLimiter) (key other : Key) (depth : Nat) :
    (limiter.withDepth key depth).depth other =
      if key = other then depth else limiter.depth other := by
  unfold DepthLimiter.depth
  by_cases here : key.position = other.position
  · have same : key = other ↔ key.tag = other.tag := by
      obtain ⟨place, name⟩ := key
      obtain ⟨position, tag⟩ := other
      simp only at here
      simp only [Key.mk.injEq, here, true_and]
    rw [← here, depths_withDepth_here]
    by_cases active : 0 < depth
    · rw [if_pos active, Option.bind_some, Std.HashMap.getElem?_insert,
        Std.HashMap.getD_eq_getD_getElem?]
      cases limiter.depths[key.position]? <;> by_cases tags : key.tag = other.tag <;>
        simp [same, tags]
    · obtain rfl : depth = 0 := Nat.eq_zero_of_not_pos active
      rw [if_neg active, bind_filter_inhabited]
      cases limiter.depths[key.position]? with
      | none => simp
      | some tags =>
          simp only [Option.map_some, Option.bind_some, Std.HashMap.getElem?_erase, same,
            beq_iff_eq]
          split <;> rfl
  · rw [depths_withDepth_elsewhere here, if_neg fun same => here (congrArg Key.position same)]

theorem depth_opened (limiter : DepthLimiter) (key other : Key) :
    (limiter.opened key).depth other =
      limiter.depth other + if key = other then 1 else 0 := by
  rw [opened, depth_withDepth]
  split
  · next same => rw [same]
  · rfl

theorem depth_closed (limiter : DepthLimiter) (key other : Key) :
    (limiter.closed key).depth other =
      limiter.depth other - if key = other then 1 else 0 := by
  rw [closed, depth_withDepth]
  split
  · next same => rw [same]
  · rfl

@[simp]
theorem depth_empty (key : Key) : empty.depth key = 0 := by
  simp [empty, depth]

end DepthLimiter

namespace Memoizer

theorem find?_insert (memo : Memoizer α) (key other : Key) (outcome : Outcome (Sealed α)) :
    (memo.insert key outcome).find? other =
      if key = other then some outcome else memo.find? other := by
  unfold insert find?
  rw [Std.HashMap.getElem?_insert]
  by_cases same : key = other <;> simp [same]

@[simp]
theorem find?_empty (key : Key) : (empty : Memoizer α).find? key = none := by
  simp [empty, find?]

end Memoizer

def Event.isRefusal : Event → Bool
  | .recursionRefused _ _ => true
  | _ => false

theorem Call.position_of_key? {call : Call} {key : Key} (tagged : call.key? = some key) :
    key.position = call.position := by
  obtain ⟨tag, -, rfl⟩ := Option.map_eq_some_iff.mp tagged
  rfl

/-- The number of active calls that a call adds to those of a key. -/
def Call.opens (call : Call) (key : Key) : Nat := if call.key? = some key then 1 else 0

namespace Policy

/-! ## Memo tables -/

def Remembers (holds : Memoizer α → Prop) : Policy α → Prop
  | .memoizer memo => holds memo
  | .chain outer inner => outer.Remembers holds ∧ inner.Remembers holds
  | _ => True

def Limits (holds : DepthLimiter → Prop) : Policy α → Prop
  | .depthLimiter limiter => holds limiter
  | .chain outer inner => outer.Limits holds ∧ inner.Limits holds
  | _ => True

theorem Limits.imp {holds other : DepthLimiter → Prop}
    (implies : ∀ limiter, holds limiter → other limiter) {policy : Policy α}
    (limits : policy.Limits holds) : policy.Limits other := by
  induction policy with
  | depthLimiter state => exact implies state limits
  | chain outer inner outerIh innerIh => exact ⟨outerIh limits.1, innerIh limits.2⟩
  | _ => trivial

theorem limits_of_all {holds : DepthLimiter → Prop} (all : ∀ limiter, holds limiter)
    (policy : Policy α) : policy.Limits holds := by
  induction policy with
  | depthLimiter state => exact all state
  | chain outer inner outerIh innerIh => exact ⟨outerIh, innerIh⟩
  | _ => trivial

/-- Nothing is remembered yet and no call is active. -/
def Fresh : Policy α → Prop
  | .tracer state => state = .empty
  | .depthLimiter state => state = .empty
  | .memoizer state => state = .empty
  | .chain outer inner => outer.Fresh ∧ inner.Fresh
  | _ => True

theorem standard_fresh : (standard : Policy α).Fresh := ⟨rfl, rfl, rfl⟩

theorem remembers_of_fresh {holds : Memoizer α → Prop} (holds_empty : holds .empty)
    {policy : Policy α} (fresh : policy.Fresh) : policy.Remembers holds := by
  induction policy with
  | memoizer state =>
      cases fresh
      exact holds_empty
  | chain outer inner outerIh innerIh => exact ⟨outerIh fresh.1, innerIh fresh.2⟩
  | _ => trivial

theorem limits_of_fresh {holds : DepthLimiter → Prop} (holds_empty : holds .empty)
    {policy : Policy α} (fresh : policy.Fresh) : policy.Limits holds := by
  induction policy with
  | depthLimiter state =>
      cases fresh
      exact holds_empty
  | chain outer inner outerIh innerIh => exact ⟨outerIh fresh.1, innerIh fresh.2⟩
  | _ => trivial

section Remembers

variable {holds : Memoizer α → Prop} (fits : Outcome (Sealed α) → Prop) {call : Call}

/-- The end of a call stores and passes on outcomes that fit. -/
theorem leave_remembers
    (found : ∀ {memo key outcome}, holds memo → call.key? = some key →
      memo.find? key = some outcome → fits outcome)
    (stored : ∀ {memo key outcome}, holds memo → call.key? = some key → fits outcome →
      holds (memo.insert key outcome))
    {policy : Policy α} (remembers : policy.Remembers holds) {outcome : Outcome (Sealed α)}
    (fitting : fits outcome) :
    (policy.leave call outcome).policy.Remembers holds ∧
      fits (policy.leave call outcome).outcome := by
  induction policy generalizing outcome with
  | identity => exact ⟨trivial, fitting⟩
  | recorder name => exact ⟨trivial, fitting⟩
  | tracer state => cases outcome <;> exact ⟨trivial, fitting⟩
  | depthLimiter state =>
      rw [leave]
      split <;> exact ⟨trivial, fitting⟩
  | memoizer state =>
      rw [leave]
      split
      · exact ⟨remembers, fitting⟩
      · next key tagged =>
          simp only
          split
          · exact ⟨stored remembers tagged fitting, fitting⟩
          · refine ⟨remembers, ?_⟩
            unfold Memoizer.better
            split
            · exact fitting
            · next cached given =>
                split
                · exact fitting
                · exact found remembers tagged given
  | chain outer inner outerIh innerIh =>
      obtain ⟨innerRemembers, innerFits⟩ := innerIh remembers.2 fitting
      obtain ⟨outerRemembers, outerFits⟩ := outerIh remembers.1 innerFits
      exact ⟨⟨outerRemembers, innerRemembers⟩, outerFits⟩

/-- The start of a call is answered with outcomes that fit, if refusals do. -/
theorem enter_remembers
    (found : ∀ {memo key outcome}, holds memo → call.key? = some key →
      memo.find? key = some outcome → fits outcome)
    (stored : ∀ {memo key outcome}, holds memo → call.key? = some key → fits outcome →
      holds (memo.insert key outcome))
    {policy : Policy α} (remembers : policy.Remembers holds)
    (refused : policy.Limits fun limiter => ∀ key, call.key? = some key →
      limiter.refuses key call.remaining = true → fits (.error (DepthLimiter.refusal call))) :
    (policy.enter call).policy.Remembers holds ∧
      ∀ outcome, (policy.enter call).answer = some outcome → fits outcome := by
  induction policy with
  | identity => exact ⟨trivial, fun _ given => nomatch given⟩
  | recorder name => exact ⟨trivial, fun _ given => nomatch given⟩
  | tracer state => exact ⟨trivial, fun _ given => nomatch given⟩
  | depthLimiter state =>
      rw [enter]
      split
      · exact ⟨trivial, fun _ given => nomatch given⟩
      · next key tagged =>
          split
          · next refuses =>
              refine ⟨trivial, fun _ given => ?_⟩
              cases given
              exact refused key tagged refuses
          · exact ⟨trivial, fun _ given => nomatch given⟩
  | memoizer state =>
      rw [enter]
      split
      · exact ⟨remembers, fun _ given => nomatch given⟩
      · next key tagged =>
          split
          · next cached given =>
              refine ⟨remembers, fun _ answered => ?_⟩
              cases answered
              exact found remembers tagged given
          · exact ⟨remembers, fun _ given => nomatch given⟩
  | chain outer inner outerIh innerIh =>
      obtain ⟨outerRemembers, outerFits⟩ := outerIh remembers.1 refused.1
      obtain ⟨innerRemembers, innerFits⟩ := innerIh remembers.2 refused.2
      simp only [enter]
      split
      · next outcome given =>
          refine ⟨⟨outerRemembers, remembers.2⟩, fun _ answered => ?_⟩
          cases answered
          exact outerFits outcome given
      · split
        · exact ⟨⟨outerRemembers, innerRemembers⟩, fun _ answered => nomatch answered⟩
        · next outcome given =>
            obtain ⟨lastRemembers, lastFits⟩ :=
              leave_remembers fits found stored outerRemembers (innerFits outcome given)
            refine ⟨⟨lastRemembers, innerRemembers⟩, fun _ answered => ?_⟩
            cases answered
            exact lastFits

end Remembers

/-! ## Active calls -/

/-- Policies of one shape, of which the second counts additional active calls. -/
def Deepened (extra : Key → Nat) : Policy α → Policy α → Prop
  | .identity, .identity => True
  | .tracer _, .tracer _ => True
  | .depthLimiter limiter, .depthLimiter deeper =>
      ∀ key, deeper.depth key = limiter.depth key + extra key
  | .memoizer _, .memoizer _ => True
  | .recorder _, .recorder _ => True
  | .chain outer inner, .chain outerToo innerToo =>
      Deepened extra outer outerToo ∧ Deepened extra inner innerToo
  | _, _ => False

/-- Policies of one shape that count the same active calls. -/
def Balanced : Policy α → Policy α → Prop := Deepened fun _ => 0

theorem Balanced.refl (policy : Policy α) : policy.Balanced policy := by
  induction policy with
  | depthLimiter state => exact fun key => rfl
  | chain outer inner outerIh innerIh => exact ⟨outerIh, innerIh⟩
  | _ => trivial

theorem Deepened.trans_balanced {extra : Key → Nat} {first middle last : Policy α}
    (deepened : first.Deepened extra middle) (balanced : middle.Balanced last) :
    first.Deepened extra last := by
  induction first generalizing middle last with
  | depthLimiter state =>
      cases middle with
      | depthLimiter deeper =>
          cases last with
          | depthLimiter deepest =>
              intro key
              rw [balanced key, deepened key, Nat.add_zero]
          | _ => exact balanced.elim
      | _ => exact deepened.elim
  | chain outer inner outerIh innerIh =>
      cases middle with
      | chain outerToo innerToo =>
          cases last with
          | chain outerLast innerLast =>
              exact ⟨outerIh deepened.1 balanced.1, innerIh deepened.2 balanced.2⟩
          | _ => exact balanced.elim
      | _ => exact deepened.elim
  | _ =>
      cases middle with
      | _ => first | exact deepened.elim | (cases last <;> first | exact balanced.elim | trivial)

/-- The end of a call takes back what its start has counted. -/
theorem leave_balanced {call : Call} {base policy : Policy α}
    (deepened : base.Deepened call.opens policy) (outcome : Outcome (Sealed α)) :
    base.Balanced (policy.leave call outcome).policy := by
  induction policy generalizing base outcome with
  | identity => cases base <;> first | exact deepened.elim | trivial
  | recorder name => cases base <;> first | exact deepened.elim | trivial
  | tracer state => cases base <;> cases outcome <;> first | exact deepened.elim | trivial
  | memoizer state =>
      cases base with
      | memoizer memo =>
          rw [leave]
          split
          · trivial
          · simp only
            split <;> trivial
      | _ => exact deepened.elim
  | depthLimiter state =>
      cases base with
      | depthLimiter limiter =>
          rw [leave]
          split
          · next untagged =>
              intro key
              rw [deepened key, Call.opens, untagged]
              rfl
          · next opened tagged =>
              intro key
              have counted := deepened key
              simp only [Call.opens, tagged, Option.some.injEq] at counted
              rw [DepthLimiter.depth_closed, counted, Nat.add_sub_cancel]
              rfl
      | _ => exact deepened.elim
  | chain outer inner outerIh innerIh =>
      cases base with
      | chain outerToo innerToo => exact ⟨outerIh deepened.1 _, innerIh deepened.2 _⟩
      | _ => exact deepened.elim

/-- The start of a call counts it exactly if it is not answered. -/
theorem enter_deepened (policy : Policy α) (call : Call) :
    ((policy.enter call).answer = none →
      policy.Deepened call.opens (policy.enter call).policy) ∧
    ((policy.enter call).answer ≠ none → policy.Balanced (policy.enter call).policy) := by
  induction policy with
  | identity => exact ⟨fun _ => trivial, fun _ => trivial⟩
  | recorder name => exact ⟨fun _ => trivial, fun _ => trivial⟩
  | tracer state => exact ⟨fun _ => trivial, fun _ => trivial⟩
  | memoizer state =>
      rw [enter]
      split
      · exact ⟨fun _ => trivial, fun _ => trivial⟩
      · split <;> exact ⟨fun _ => trivial, fun _ => trivial⟩
  | depthLimiter state =>
      rw [enter]
      split
      · next untagged =>
          refine ⟨fun _ key => ?_, fun _ key => rfl⟩
          rw [Call.opens, untagged]
          rfl
      · next opened tagged =>
          split
          · exact ⟨fun given => (nomatch given), fun _ key => rfl⟩
          · refine ⟨fun _ key => ?_, fun given => absurd rfl given⟩
            rw [DepthLimiter.depth_opened, Call.opens, tagged]
            simp only [Option.some.injEq]
  | chain outer inner outerIh innerIh =>
      simp only [enter]
      split
      · next outcome given =>
          refine ⟨fun answered => (nomatch answered), fun _ => ?_⟩
          exact ⟨outerIh.2 (by simp [given]), Balanced.refl inner⟩
      · next unanswered =>
          split
          · next unansweredToo =>
              refine ⟨fun _ => ⟨outerIh.1 unanswered, innerIh.1 unansweredToo⟩, ?_⟩
              exact fun answered => absurd rfl answered
          · next outcome given =>
              refine ⟨fun answered => (nomatch answered), fun _ => ?_⟩
              exact ⟨leave_balanced (outerIh.1 unanswered) outcome, innerIh.2 (by simp [given])⟩

theorem Limits.deepened {holds deeper : DepthLimiter → Prop} {extra : Key → Nat}
    (passes : ∀ limiter other : DepthLimiter,
      (∀ key, other.depth key = limiter.depth key + extra key) → holds limiter → deeper other)
    {policy other : Policy α} (limits : policy.Limits holds)
    (deepened : policy.Deepened extra other) : other.Limits deeper := by
  induction policy generalizing other with
  | depthLimiter state =>
      cases other with
      | depthLimiter stateToo => exact passes state stateToo deepened limits
      | _ => exact deepened.elim
  | chain outer inner outerIh innerIh =>
      cases other with
      | chain outerToo innerToo =>
          exact ⟨outerIh limits.1 deepened.1, innerIh limits.2 deepened.2⟩
      | _ => exact deepened.elim
  | _ => cases other <;> first | exact deepened.elim | trivial

theorem leave_unrefused (policy : Policy α) (call : Call) (outcome : Outcome (Sealed α)) :
    ∀ event ∈ (policy.leave call outcome).events, event.isRefusal = false := by
  induction policy generalizing outcome with
  | identity => exact nofun
  | tracer state =>
      cases outcome with
      | ok matched => exact nofun
      | error mismatch =>
          rw [leave]
          simp only
          split
          · intro event member
            rw [List.mem_singleton.mp member]
            rfl
          · exact nofun
  | depthLimiter state =>
      rw [leave]
      split <;> exact nofun
  | memoizer state =>
      rw [leave]
      split
      · exact nofun
      · simp only
        split
        · intro event member
          rw [List.mem_singleton.mp member]
          rfl
        · exact nofun
  | recorder name =>
      intro event member
      rw [List.mem_singleton.mp member]
      rfl
  | chain outer inner outerIh innerIh =>
      intro event member
      rcases List.mem_append.mp member with first | second
      · exact innerIh outcome event first
      · exact outerIh _ event second

/-- The start of a call that no limit refuses puts no refusal on record. -/
theorem enter_unrefused {policy : Policy α} {call : Call}
    (granted : policy.Limits fun limiter => ∀ key, call.key? = some key →
      limiter.refuses key call.remaining = false) :
    ∀ event ∈ (policy.enter call).events, event.isRefusal = false := by
  induction policy with
  | identity => exact nofun
  | tracer state => exact nofun
  | depthLimiter state =>
      rw [enter]
      split
      · exact nofun
      · next key tagged =>
          rw [granted key tagged]
          exact nofun
  | memoizer state =>
      rw [enter]
      split
      · exact nofun
      · split
        · intro event member
          rw [List.mem_singleton.mp member]
          rfl
        · exact nofun
  | recorder name =>
      intro event member
      rw [List.mem_singleton.mp member]
      rfl
  | chain outer inner outerIh innerIh =>
      simp only [enter]
      split
      · exact outerIh granted.1
      · split
        · intro event member
          rcases List.mem_append.mp member with first | second
          · exact outerIh granted.1 event first
          · exact innerIh granted.2 event second
        · intro event member
          rcases List.mem_append.mp member with before | last
          · rcases List.mem_append.mp before with first | second
            · exact outerIh granted.1 event first
            · exact innerIh granted.2 event second
          · exact leave_unrefused _ call _ event last

def limiter? : Policy α → Option DepthLimiter
  | .depthLimiter limiter => some limiter
  | .chain outer inner => outer.limiter?.or inner.limiter?
  | _ => none

theorem Deepened.limiter?_eq_none {extra : Key → Nat} {policy other : Policy α}
    (deepened : policy.Deepened extra other) (missing : policy.limiter? = none) :
    other.limiter? = none := by
  induction policy generalizing other with
  | depthLimiter state => cases missing
  | chain outer inner outerIh innerIh =>
      cases other with
      | chain outerToo innerToo =>
          obtain ⟨outerMissing, innerMissing⟩ := Option.or_eq_none_iff.mp missing
          exact Option.or_eq_none_iff.mpr
            ⟨outerIh deepened.1 outerMissing, innerIh deepened.2 innerMissing⟩
      | _ => exact deepened.elim
  | _ => cases other <;> first | exact deepened.elim | rfl

theorem Deepened.limiter? {extra : Key → Nat} {policy other : Policy α}
    (deepened : policy.Deepened extra other) {limiter : DepthLimiter}
    (outermost : policy.limiter? = some limiter) :
    ∃ deeper, other.limiter? = some deeper ∧
      ∀ key, deeper.depth key = limiter.depth key + extra key := by
  induction policy generalizing other with
  | depthLimiter state =>
      cases outermost
      cases other with
      | depthLimiter stateToo => exact ⟨stateToo, rfl, deepened⟩
      | _ => exact deepened.elim
  | chain outer inner outerIh innerIh =>
      cases other with
      | chain outerToo innerToo =>
          rcases Option.or_eq_some_iff.mp outermost with first | ⟨missing, second⟩
          · obtain ⟨deeper, found, counted⟩ := outerIh deepened.1 first
            exact ⟨deeper, by rw [Policy.limiter?, found, Option.some_or], counted⟩
          · obtain ⟨deeper, found, counted⟩ := innerIh deepened.2 second
            refine ⟨deeper, ?_, counted⟩
            rw [Policy.limiter?, deepened.1.limiter?_eq_none missing, found, Option.none_or]
      | _ => exact deepened.elim
  | _ => cases outermost

/-- A call that is not answered was not refused by the outermost limit. -/
theorem not_refused_of_unanswered {policy : Policy α} {call : Call} {key : Key}
    {limiter : DepthLimiter} (tagged : call.key? = some key)
    (outermost : policy.limiter? = some limiter) (unanswered : (policy.enter call).answer = none) :
    limiter.refuses key call.remaining = false := by
  induction policy with
  | depthLimiter state =>
      cases outermost
      simp only [enter, tagged] at unanswered
      split at unanswered
      · cases unanswered
      · next allowed => exact Bool.eq_false_iff.mpr allowed
  | chain outer inner outerIh innerIh =>
      simp only [enter] at unanswered
      split at unanswered
      · cases unanswered
      · next outerUnanswered =>
          split at unanswered
          · next innerUnanswered =>
              rcases Option.or_eq_some_iff.mp outermost with first | ⟨-, second⟩
              · exact outerIh first outerUnanswered
              · exact innerIh second innerUnanswered
          · cases unanswered
  | _ => cases outermost

end Policy

/-- How an ending counts active calls: no differently from before unless it is a fault. -/
def Halt.Balances (halt : Halt α) (before after : State α) : Prop :=
  match halt with
  | .faulted _ => True
  | _ => before.policy.Balanced after.policy

/-- Whatever has ended has taken back the active calls that it counted. -/
theorem Ends.balances {ι : Type} [Input ι] {setting : Setting ι α} {control : Control ι α}
    {state final : State α} {halt : Halt α} (ends : Ends setting control state halt final) :
    halt.Balances state final := by
  induction ends with
  | reply result state => exact .refl state.policy
  | read symbol stop state => exact .refl state.policy
  | become _ ih => exact ih
  | body _ ih => exact ih
  | @resumed _ _ _ _ _ _ halt _ _ callIh moveIh =>
      cases halt with
      | faulted fault => trivial
      | answered outcome => exact Policy.Deepened.trans_balanced callIh moveIh
      | replied result => exact Policy.Deepened.trans_balanced callIh moveIh
  | @answered parser state outcome answer =>
      simp only [Halt.Balances, settle_policy]
      exact (Policy.enter_deepened state.policy _).2 (by rw [← Setting.entry, answer]; simp)
  | @executed parser state middle result outcome answer _ _ ih =>
      simp only [Halt.Balances, conclude_policy]
      have opened := (Policy.enter_deepened state.policy _).1 answer
      exact Policy.leave_balanced (opened.trans_balanced ih) outcome
  | _ => trivial

end Packrat
