import Mathlib.Data.List.Forall2
import Packrat.Proofs.Life
import Packrat.Proofs.PolicyLaws

/-!
# Memo tables grow

A chain of policies may hold several memo tables.  Whatever happens to calls, each of them only
grows: a remembered outcome stays, or gives way to a match that ends further.  What a table
returns for a call is, when it returns it, what it remembers under the key of the call, and it
remembers matches under the position where they start.
-/

namespace Packrat

variable {ι α : Type}

/-- The later outcome is the same, or a match that ends further than any that was there. -/
def Outcome.GrowsTo {σ : Type} (earlier later : Outcome σ) : Prop :=
  later = earlier ∨ ∃ longer, later = .ok longer ∧
    ∀ matched, earlier = .ok matched → matched.span.stop < longer.span.stop

namespace Outcome.GrowsTo

variable {σ : Type} {earlier middle later : Outcome σ}

theorem refl (outcome : Outcome σ) : outcome.GrowsTo outcome := .inl rfl

theorem trans (grows : earlier.GrowsTo middle) (further : middle.GrowsTo later) :
    earlier.GrowsTo later := by
  rcases further with rfl | ⟨longest, rfl, after⟩
  · exact grows
  · rcases grows with rfl | ⟨longer, rfl, before⟩
    · exact .inr ⟨longest, rfl, after⟩
    · refine .inr ⟨longest, rfl, fun matched same => ?_⟩
      exact Nat.lt_trans (before matched same) (after longer rfl)

theorem of_improves (improves : Memoizer.improves earlier later = true) :
    earlier.GrowsTo later := by
  cases later with
  | error mismatch => cases earlier <;> cases improves
  | ok longer =>
      refine .inr ⟨longer, rfl, ?_⟩
      rintro matched rfl
      exact of_decide_eq_true improves

end Outcome.GrowsTo

def Memoizer.Grows (memo later : Memoizer α) : Prop :=
  ∀ key outcome, memo.find? key = some outcome →
    ∃ grown, later.find? key = some grown ∧ outcome.GrowsTo grown

namespace Memoizer.Grows

variable {memo middle later : Memoizer α}

theorem refl (memo : Memoizer α) : memo.Grows memo :=
  fun _ outcome found => ⟨outcome, found, .refl outcome⟩

theorem trans (grows : memo.Grows middle) (further : middle.Grows later) :
    memo.Grows later := by
  intro key outcome found
  obtain ⟨grown, foundToo, first⟩ := grows key outcome found
  obtain ⟨last, foundLast, second⟩ := further key grown foundToo
  exact ⟨last, foundLast, first.trans second⟩

theorem insert {key : Key} {candidate : Outcome (Sealed α)}
    (stores : stores (memo.find? key) candidate = true) :
    memo.Grows (memo.insert key candidate) := by
  intro other outcome found
  rw [find?_insert]
  split
  · next same =>
      refine ⟨candidate, rfl, .of_improves ?_⟩
      rw [same, found] at stores
      exact stores
  · exact ⟨outcome, found, .refl outcome⟩

end Memoizer.Grows

namespace Policy

/-- The memo tables of the policies, innermost first. -/
def memoTables : Policy α → List (Memoizer α)
  | .memoizer memo => [memo]
  | .chain outer inner => inner.memoTables ++ outer.memoTables
  | _ => []

theorem remembers_iff {holds : Memoizer α → Prop} {policy : Policy α} :
    policy.Remembers holds ↔ ∀ memo ∈ policy.memoTables, holds memo := by
  induction policy with
  | memoizer memo => simp [Remembers, memoTables]
  | chain outer inner outerIh innerIh =>
      simp only [Remembers, memoTables, List.forall_mem_append, outerIh, innerIh, and_comm]
  | _ => simp [Remembers, memoTables]

def Grows (policy later : Policy α) : Prop :=
  List.Forall₂ Memoizer.Grows policy.memoTables later.memoTables

namespace Grows

theorem refl (policy : Policy α) : policy.Grows policy :=
  List.forall₂_same.mpr fun memo _ => .refl memo

theorem trans {policy middle later : Policy α} (grows : policy.Grows middle)
    (further : middle.Grows later) : policy.Grows later := by
  unfold Grows at grows further ⊢
  generalize policy.memoTables = first, middle.memoTables = second,
    later.memoTables = third at grows further
  induction grows generalizing third with
  | nil =>
      cases further
      exact .nil
  | cons one _ ih =>
      cases further with
      | cons two rest => exact .cons (one.trans two) (ih _ rest)

theorem chain {outer outerToo inner innerToo : Policy α} (grows : outer.Grows outerToo)
    (growsToo : inner.Grows innerToo) :
    (Policy.chain outer inner).Grows (.chain outerToo innerToo) :=
  List.rel_append growsToo grows

end Grows

/-- The end of a call lets every table grow. -/
theorem leave_grows (policy : Policy α) (call : Call) (outcome : Outcome (Sealed α)) :
    policy.Grows (policy.leave call outcome).policy := by
  induction policy generalizing outcome with
  | identity => exact .refl _
  | recorder name => exact .refl _
  | tracer state => cases outcome <;> exact .nil
  | depthLimiter state =>
      rw [leave]
      split <;> exact .nil
  | memoizer memo =>
      rw [leave]
      split
      · exact .refl _
      · simp only
        split
        · next stores => exact .cons (.insert stores) .nil
        · exact .refl _
  | chain outer inner outerIh innerIh => exact .chain (outerIh _) (innerIh outcome)

theorem enter_grows (policy : Policy α) (call : Call) :
    policy.Grows (policy.enter call).policy := by
  induction policy with
  | identity => exact .refl _
  | recorder name => exact .refl _
  | tracer state => exact .nil
  | depthLimiter state =>
      rw [enter]
      split
      · exact .nil
      · split <;> exact .nil
  | memoizer memo =>
      rw [enter]
      split
      · exact .refl _
      · split <;> exact .refl _
  | chain outer inner outerIh innerIh =>
      simp only [enter]
      split
      · exact .chain outerIh (.refl inner)
      · split
        · exact .chain outerIh innerIh
        · next outcome _ => exact .chain (outerIh.trans (leave_grows _ call outcome)) innerIh

/-! ## What tables return -/

/--
What the memo tables return when a body has made an outcome, innermost first; each table is
given as it is then.
-/
def returnsAtEnd : Policy α → Call → Outcome (Sealed α) → List (Memoizer α × Outcome (Sealed α))
  | .chain outer inner, call, made =>
      inner.returnsAtEnd call made ++ outer.returnsAtEnd call (inner.leave call made).outcome
  | policy, call, made =>
      let exit := policy.leave call made
      exit.policy.memoTables.map (·, exit.outcome)

/-- What the memo tables return for a call that is answered without its body, innermost first. -/
def returnsAtStart : Policy α → Call → List (Memoizer α × Outcome (Sealed α))
  | .chain outer inner, call =>
      match (outer.enter call).answer, (inner.enter call).answer with
      | some _, _ => outer.returnsAtStart call
      | none, some outcome =>
          inner.returnsAtStart call ++ (outer.enter call).policy.returnsAtEnd call outcome
      | none, none => []
  | policy, call =>
      let entry := policy.enter call
      entry.answer.toList.flatMap fun outcome => entry.policy.memoTables.map (·, outcome)

/--
Pairs of tables and the outcomes that they return for a call: the tables are the outermost of
the policies, each of them remembers what it returns, and the outermost one has the last word.
-/
structure Returned (policy : Policy α) (call : Call) (outcome : Outcome (Sealed α))
    (returned : List (Memoizer α × Outcome (Sealed α))) : Prop where
  tables : returned.map Prod.fst <:+ policy.memoTables
  remembered : ∀ key, call.key? = some key → ∀ pair ∈ returned, pair.1.find? key = some pair.2
  last : ∀ pair, returned.getLast? = some pair → outcome = pair.2

variable {call : Call} {key : Key}

theorem map_returnsAtEnd (policy : Policy α) (made : Outcome (Sealed α)) :
    (policy.returnsAtEnd call made).map Prod.fst = (policy.leave call made).policy.memoTables := by
  induction policy generalizing made with
  | chain outer inner outerIh innerIh =>
      simp only [returnsAtEnd, List.map_append, outerIh, innerIh, leave, memoTables]
  | _ => simp [returnsAtEnd, Function.comp_def]

/-- The outermost table has the last word; without tables the outcome stays as the body made it. -/
theorem leave_outcome (policy : Policy α) (made : Outcome (Sealed α)) :
    (policy.leave call made).outcome =
      ((policy.returnsAtEnd call made).getLast?.map Prod.snd).getD made := by
  induction policy generalizing made with
  | identity => rfl
  | recorder name => rfl
  | tracer state => cases made <;> rfl
  | depthLimiter state =>
      simp only [returnsAtEnd, leave]
      split <;> rfl
  | memoizer memo =>
      simp only [returnsAtEnd, leave]
      split
      · rfl
      · split <;> rfl
  | chain outer inner outerIh innerIh =>
      simp only [returnsAtEnd, leave, outerIh, List.getLast?_append]
      cases (outer.returnsAtEnd call (inner.leave call made).outcome).getLast? with
      | some pair => rfl
      | none =>
          rw [Option.none_or, ← innerIh]
          rfl

theorem remembered_at_end (tagged : call.key? = some key) (policy : Policy α)
    (made : Outcome (Sealed α)) :
    ∀ pair ∈ policy.returnsAtEnd call made, pair.1.find? key = some pair.2 := by
  induction policy generalizing made with
  | chain outer inner outerIh innerIh =>
      intro pair member
      rcases List.mem_append.mp member with within | without
      · exact innerIh made pair within
      · exact outerIh _ pair without
  | memoizer memo =>
      intro pair member
      simp only [returnsAtEnd, leave, tagged] at member
      split at member
      · rw [List.mem_singleton.mp member]
        simp only [Memoizer.find?_insert, if_pos]
      · next kept =>
          rw [List.mem_singleton.mp member]
          cases found : memo.find? key with
          | none =>
              rw [found] at kept
              exact absurd rfl kept
          | some cached =>
              have stays : Memoizer.improves cached made = false := by
                rw [found] at kept
                exact Bool.eq_false_iff.mpr kept
              simp only [Memoizer.better, stays, Bool.false_eq_true, if_false]
  | tracer state =>
      intro pair member
      cases made <;> cases member
  | depthLimiter state =>
      intro pair member
      simp only [returnsAtEnd, leave, tagged] at member
      cases member
  | _ =>
      intro pair member
      cases member

theorem returned_at_end (policy : Policy α) (made : Outcome (Sealed α)) :
    (policy.leave call made).policy.Returned call (policy.leave call made).outcome
      (policy.returnsAtEnd call made) where
  tables := (map_returnsAtEnd policy made).symm ▸ List.suffix_rfl
  remembered _ tagged := remembered_at_end tagged policy made
  last pair last := by rw [leave_outcome, last]; rfl

theorem Returned.append {outer inner : Policy α} {outcome : Outcome (Sealed α)}
    {returned : List (Memoizer α × Outcome (Sealed α))}
    (within : inner.Returned call outcome returned) :
    (Policy.chain (outer.leave call outcome).policy inner).Returned call
      (outer.leave call outcome).outcome (returned ++ outer.returnsAtEnd call outcome) where
  tables := by
    obtain ⟨others, same⟩ := within.tables
    refine ⟨others, ?_⟩
    rw [List.map_append, map_returnsAtEnd, ← List.append_assoc, same]
    rfl
  remembered key tagged pair member := by
    rcases List.mem_append.mp member with first | second
    · exact within.remembered key tagged pair first
    · exact remembered_at_end tagged outer outcome pair second
  last pair last := by
    rw [List.getLast?_append] at last
    rw [leave_outcome]
    cases outermost : (outer.returnsAtEnd call outcome).getLast? with
    | some found =>
        rw [outermost] at last
        cases last
        rfl
    | none =>
        rw [outermost, Option.none_or] at last
        exact within.last pair last

theorem returned_at_start {policy : Policy α} {outcome : Outcome (Sealed α)}
    (answer : (policy.enter call).answer = some outcome) :
    (policy.enter call).policy.Returned call outcome (policy.returnsAtStart call) := by
  induction policy generalizing outcome with
  | identity => cases answer
  | recorder name => cases answer
  | tracer state => cases answer
  | depthLimiter state =>
      have single : (Policy.depthLimiter state : Policy α).returnsAtStart call = [] := by
        simp only [returnsAtStart, enter]
        split
        · rfl
        · split <;> rfl
      rw [single]
      refine ⟨List.nil_suffix, fun _ _ pair member => ?_, fun pair last => ?_⟩
      · cases member
      · cases last
  | memoizer memo =>
      cases tagged : call.key? with
      | none => simp [enter, tagged] at answer
      | some key =>
          cases found : memo.find? key with
          | none => simp [enter, tagged, found] at answer
          | some cached =>
              simp only [enter, tagged, found, Option.some.injEq] at answer
              subst answer
              have single : (Policy.memoizer memo).returnsAtStart call = [(memo, cached)] := by
                simp [returnsAtStart, enter, tagged, found, memoTables]
              rw [single]
              refine ⟨?_, ?_, ?_⟩
              · simp only [enter, tagged, found]
                exact List.suffix_rfl
              · intro other same pair member
                cases tagged.symm.trans same
                rw [List.mem_singleton.mp member]
                exact found
              · intro pair last
                cases last
                rfl
  | chain outer inner outerIh innerIh =>
      simp only [enter] at answer ⊢
      cases first : (outer.enter call).answer with
      | some given =>
          simp only [first] at answer ⊢
          cases answer
          simp only [returnsAtStart, first]
          obtain ⟨tables, remembered, last⟩ := outerIh first
          exact ⟨tables.trans (List.suffix_append _ _), remembered, last⟩
      | none =>
          simp only [first] at answer ⊢
          cases second : (inner.enter call).answer with
          | none => simp [second] at answer
          | some given =>
              simp only [second] at answer ⊢
              cases answer
              simp only [returnsAtStart, first, second]
              exact (innerIh second).append

end Policy

def Deed.memoReturns (policy : Policy α) : Deed α → List (Memoizer α × Outcome (Sealed α))
  | .answered call _ _ => policy.returnsAtStart call
  | .started _ => []
  | .ended call _ made _ => policy.returnsAtEnd call made

/-- Every match is remembered under the position where it starts. -/
def Memoizer.Placed (memo : Memoizer α) : Prop :=
  ∀ key outcome, memo.find? key = some outcome → outcome.StartsAt key.position

theorem Memoizer.Placed.found {memo : Memoizer α} (placed : memo.Placed) {call : Call} {key : Key}
    {outcome : Outcome (Sealed α)} (tagged : call.key? = some key)
    (found : memo.find? key = some outcome) : outcome.StartsAt call.position := by
  rw [← Call.position_of_key? tagged]
  exact placed key outcome found

theorem Memoizer.Placed.stored {memo : Memoizer α} (placed : memo.Placed) {call : Call} {key : Key}
    {outcome : Outcome (Sealed α)} (tagged : call.key? = some key)
    (starts : outcome.StartsAt call.position) : (memo.insert key outcome).Placed := by
  intro other remembered found
  rw [Memoizer.find?_insert] at found
  split at found
  · next same =>
      cases found
      rw [← same, Call.position_of_key? tagged]
      exact starts
  · exact placed other remembered found

section Turns

variable [Input ι] {input : ι} {policy policyToo : Policy α} {calls callsToo : List Call}

theorem Turn.grows {deed? : Option (Deed α)}
    (turn : Turn input policy calls deed? policyToo callsToo) : policy.Grows policyToo := by
  cases turn with
  | quiet => exact .refl policy
  | answered _ _ => exact policy.enter_grows _
  | started _ _ => exact policy.enter_grows _
  | ended _ => exact policy.leave_grows _ _

theorem Turn.placed {deed? : Option (Deed α)}
    (turn : Turn input policy calls deed? policyToo callsToo)
    (placed : policy.Remembers Memoizer.Placed) : policyToo.Remembers Memoizer.Placed := by
  have entered (call : Call) : (policy.enter call).policy.Remembers Memoizer.Placed :=
    (Policy.enter_remembers (Outcome.StartsAt call.position)
      (fun placed tagged => placed.found tagged) (fun placed tagged => placed.stored tagged)
      placed (Policy.limits_of_all (fun _ _ _ _ => nofun) policy)).1
  cases turn with
  | quiet => exact placed
  | answered _ _ => exact entered _
  | started _ _ => exact entered _
  | ended starts =>
      exact (Policy.leave_remembers (Outcome.StartsAt _)
        (fun placed tagged => placed.found tagged) (fun placed tagged => placed.stored tagged)
        placed starts).1

theorem Turn.returned {deed : Deed α} {outcome : Outcome (Sealed α)}
    (turn : Turn input policy calls (some deed) policyToo callsToo)
    (returns : deed.outcome? = some outcome) :
    policyToo.Returned deed.call outcome (deed.memoReturns policy) := by
  cases turn with
  | answered _ answer =>
      cases returns
      exact Policy.returned_at_start answer
  | started _ _ => cases returns
  | ended _ =>
      cases returns
      exact Policy.returned_at_end policy _

end Turns

variable [Input ι]

/--
From one moment of an engine to a later one every memo table only grows, and matches are
remembered under the position where they start.  Whenever a call comes back in the next step, what
each memo table returns for it is what the table then remembers under the key of the call.
-/
theorem memo_tables_grow (input : ι) (policy : Policy α) (fresh : policy.Fresh)
    (arena : Arena ι α) (parser : Parser ι α) (history since : List (Deed α))
    (earlier later : Moment ι α)
    (lives : Lives input (.birth policy arena parser) history earlier)
    (on : Lives input earlier since later) :
    List.Forall₂ Memoizer.Grows earlier.policy.memoTables later.policy.memoTables ∧
    (∀ memo ∈ later.policy.memoTables, ∀ key matched, memo.find? key = some (.ok matched) →
      matched.span.start = key.position) ∧
    ∀ next deed outcome, later.config.step ⟨input, later.arena⟩ = .next next →
      later.config.deed? ⟨input, later.arena⟩ = some deed → deed.outcome? = some outcome →
      next.state.policy.Returned deed.call outcome (deed.memoReturns later.policy) := by
  refine ⟨?_, ?_, ?_⟩
  · exact on.keeps (fun _ policy _ => earlier.policy.Grows policy) (.refl _)
      fun grows turn => grows.trans turn.grows
  · have start : (Moment.birth policy arena parser).policy.Remembers Memoizer.Placed :=
      Policy.remembers_of_fresh (fun key outcome found => by
        rw [Memoizer.find?_empty] at found
        cases found) fresh
    have placed := (lives.trans on).keeps (fun _ policy _ => policy.Remembers Memoizer.Placed)
      start fun placed turn => turn.placed placed
    intro memo member key matched found
    exact Policy.remembers_iff.mp placed memo member key _ found matched rfl
  · intro next deed outcome edge happens returns
    have turn := Config.turn edge
    rw [happens] at turn
    exact turn.returned returns

/-- Called again, a rule that has failed is answered with what the table has. -/
theorem memo_tables_grow_hopeless :
    ∃ history earlier later next,
      Lives #['a'] (.birth (.memoizer .empty) .empty hopelessItem) history earlier ∧
      Lives #['a'] earlier [] later ∧
      List.Forall₂ Memoizer.Grows earlier.policy.memoTables later.policy.memoTables ∧
      later.config.step ⟨#['a'], later.arena⟩ = .next next ∧
      next.state.policy.Returned hopelessCall (.error (.bare (some ⟨"item"⟩)))
        [(Memoizer.empty.insert ⟨0, ⟨"item"⟩⟩ (.error (.bare (some ⟨"item"⟩))),
          .error (.bare (some ⟨"item"⟩)))] := by
  let key : Key := ⟨0, ⟨"item"⟩⟩
  let failed : Outcome (Sealed Unit) := .error (.bare (some ⟨"item"⟩))
  have tagged : hopelessCall.key? = some key := rfl
  have entered : (Policy.memoizer Memoizer.empty : Policy Unit).enter hopelessCall =
      ⟨.memoizer .empty, [], none⟩ := by
    simp only [Policy.enter, tagged, Memoizer.find?_empty]
  have left : (Policy.memoizer Memoizer.empty : Policy Unit).leave hopelessCall failed =
      ⟨.memoizer (Memoizer.empty.insert key failed), [.memoStore key false], failed⟩ := by
    simp only [Policy.leave, tagged, Memoizer.find?_empty]
    rfl
  have answered : (Policy.memoizer (Memoizer.empty.insert key failed)).enter hopelessCall =
      ⟨.memoizer (Memoizer.empty.insert key failed), [.memoHit key], some failed⟩ := by
    simp only [Policy.enter, tagged, Memoizer.find?_insert, if_pos]
  have begun : Lives #['a'] (.birth (.memoizer .empty) .empty hopelessItem) [] _ := .here
  obtain ⟨outcome, ⟨cursor, policy, journal⟩, remembers, lives⟩ :=
    begun.fails ⟨#['a'], .empty⟩ (congrArg Entry.answer entered) rfl
  obtain rfl : policy = .memoizer (Memoizer.empty.insert key failed) := by
    refine remembers.trans ?_
    exact (congrArg (fun entry => (entry.policy.leave hopelessCall failed).policy) entered).trans
      (congrArg Exit.policy left)
  have fresh : (Policy.memoizer Memoizer.empty : Policy Unit).Fresh := rfl
  let earlier : Moment (Array Char) Unit := ⟨.empty, ⟨.answer outcome, [],
    ⟨cursor, .memoizer (Memoizer.empty.insert key failed), journal⟩⟩⟩
  have on : Lives #['a'] earlier [] _ := Lives.here.again .empty hopelessItem 0
  obtain ⟨grows, -, returns⟩ := memo_tables_grow _ _ fresh _ _ _ _ _ _ lives on
  have returned := returns _ _ _ rfl (Config.deed?_of_answer (congrArg Entry.answer answered)) rfl
  have tables : (Policy.memoizer (Memoizer.empty.insert key failed)).returnsAtStart hopelessCall =
      [(Memoizer.empty.insert key failed, failed)] := by
    simp only [Policy.returnsAtStart, answered, Option.toList_some, List.flatMap_singleton,
      Policy.memoTables, List.map_singleton]
  exact ⟨_, earlier, _, _, lives, on, grows, rfl, tables ▸ returned⟩

end Packrat
