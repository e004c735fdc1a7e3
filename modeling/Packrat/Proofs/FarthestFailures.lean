import Mathlib.Data.List.Destutter
import Mathlib.Data.List.SplitBy
import Packrat.Proofs.Life

/-!
# What a tracer reports

A tracer that sees every call first keeps two things up to date: the active calls, in frames
that adjacent calls with one position and tag share, and the failures at the farthest position
so far.  Both are determined by the history alone.  The frames are the run lengths of the
active calls, and the failures are what remains of all rejections when the nearer ones are
dropped and repeated mismatches are collapsed.
-/

namespace Packrat

variable {ι α : Type}

def Call.alike (call other : Call) : Bool :=
  call.position = other.position ∧ call.tag = other.tag

def TraceFrame.ofCalls? : List Call → Option TraceFrame
  | [] => none
  | call :: calls => some ⟨call.position, call.tag, calls.length + 1⟩

/-- The run lengths of calls, which are given innermost first. -/
def Trace.ofCalls (calls : List Call) : Trace :=
  (calls.splitBy Call.alike).filterMap TraceFrame.ofCalls?

section Runs

variable {σ : Type} {alike : σ → σ → Bool} {a b : σ} {group list : List σ}
  {groups : List (List σ)}

theorem splitBy_cons_of_not_alike (different : alike a b = false) :
    (a :: b :: list).splitBy alike = [a] :: (b :: list).splitBy alike := by
  refine (List.splitBy_append_cons (l := [a]) list fun last isLast => ?_).trans rfl
  cases isLast
  exact different

theorem splitBy_cons_of_alike (same : alike a b = true)
    (split : (b :: list).splitBy alike = (b :: group) :: groups) :
    (a :: b :: list).splitBy alike = (a :: b :: group) :: groups := by
  obtain ⟨joined, nonempty, chains, borders⟩ := List.splitBy_eq_iff.mp split
  refine List.splitBy_eq_iff.mpr ⟨congrArg (List.cons a) joined, ?_, ?_, ?_⟩
  · intro member
    cases member with
    | tail _ member => exact nonempty (List.mem_cons_of_mem _ member)
  · intro run member
    rcases List.mem_cons.mp member with rfl | member
    · exact List.isChain_cons_cons.mpr ⟨same, chains _ List.mem_cons_self⟩
    · exact chains run (List.mem_cons_of_mem _ member)
  · cases groups with
    | nil => exact List.isChain_singleton _
    | cons next others =>
        obtain ⟨⟨_, inhabited, border⟩, others⟩ := List.isChain_cons_cons.mp borders
        exact List.isChain_cons_cons.mpr
          ⟨⟨List.cons_ne_nil _ _, inhabited, border⟩, others⟩

theorem exists_splitBy_cons (alike : σ → σ → Bool) (b : σ) (list : List σ) :
    ∃ group groups, (b :: list).splitBy alike = (b :: group) :: groups := by
  obtain ⟨joined, nonempty, -, -⟩ :=
    List.splitBy_eq_iff.mp (rfl : (b :: list).splitBy alike = (b :: list).splitBy alike)
  cases split : (b :: list).splitBy alike with
  | nil =>
      rw [split] at joined
      cases joined
  | cons run groups =>
      rw [split] at joined nonempty
      cases run with
      | nil => exact (nonempty List.mem_cons_self).elim
      | cons first group =>
          cases joined
          exact ⟨group, groups, rfl⟩

end Runs

namespace Trace

theorem ofCalls_cons (call : Call) (calls : List Call) :
    ofCalls (call :: calls) = (ofCalls calls).push call.position call.tag := by
  cases calls with
  | nil => rfl
  | cons next calls =>
      obtain ⟨group, groups, split⟩ := exists_splitBy_cons Call.alike next calls
      have frames : ofCalls (next :: calls) =
          ⟨next.position, next.tag, group.length + 1⟩ ::
            groups.filterMap TraceFrame.ofCalls? := by
        rw [ofCalls, split]
        rfl
      rw [frames, push]
      -- The call joins the first run, or it is a run of its own.
      by_cases same : call.position = next.position ∧ call.tag = next.tag
      · have alike : call.alike next = true := decide_eq_true same
        rw [if_pos ⟨same.1.symm, same.2.symm⟩, ofCalls, splitBy_cons_of_alike alike split,
          ← same.1, ← same.2]
        rfl
      · have alike : call.alike next = false := decide_eq_false same
        rw [if_neg fun other => same ⟨other.1.symm, other.2.symm⟩, ofCalls,
          splitBy_cons_of_not_alike alike, ← frames]
        rfl

theorem pop_push {trace : Trace} (deep : ∀ frame ∈ trace, 0 < frame.depth) (position : Nat)
    (tag : Option Tag) : (trace.push position tag).pop = trace := by
  cases trace with
  | nil => rfl
  | cons frame rest =>
      have atLeastOne : 0 < frame.depth := deep frame List.mem_cons_self
      rw [push]
      split
      · rw [pop, if_pos (Nat.lt_add_of_pos_left atLeastOne)]
        rfl
      · rfl

theorem depth_pos_of_mem_ofCalls {calls : List Call} {frame : TraceFrame}
    (member : frame ∈ ofCalls calls) : 0 < frame.depth := by
  obtain ⟨group, -, made⟩ := List.mem_filterMap.mp member
  cases group with
  | nil => cases made
  | cons call group =>
      cases made
      exact Nat.succ_pos _

theorem pop_ofCalls_cons (call : Call) (calls : List Call) :
    (ofCalls (call :: calls)).pop = ofCalls calls := by
  rw [ofCalls_cons]
  exact pop_push (fun _ => depth_pos_of_mem_ofCalls) _ _

end Trace

/-! ## Rejections -/

/-- A call that returned a mismatch: where it started, and the failure with the active calls. -/
structure Rejection where
  position : Nat
  failure : Failure
  deriving DecidableEq, Repr

def Rejection.of? {σ : Type} (call : Call) (around : List Call) :
    Outcome σ → Option Rejection
  | .ok _ => none
  | .error mismatch => some ⟨call.position, ⟨Trace.ofCalls (call :: around), mismatch⟩⟩

/-- The rejections of a history in the order in which the calls returned. -/
def rejections : List (Deed α) → List Rejection
  | [] => []
  | .answered call _ outcome :: earlier =>
      rejections earlier ++ (Rejection.of? call (openCalls earlier) outcome).toList
  | .started _ :: earlier => rejections earlier
  | .ended call _ _ outcome :: earlier =>
      rejections earlier ++ (Rejection.of? call (openCalls earlier).tail outcome).toList

/-- Failures without those that repeat the mismatch of the one before. -/
def Failure.collapse (failures : List Failure) : List Failure :=
  failures.destutter fun failure next => failure.mismatch ≠ next.mismatch

/-- The farthest failure of rejections: the largest position, and what was rejected there. -/
def FarthestFailure.ofRejections (rejections : List Rejection) : Option FarthestFailure :=
  (rejections.map Rejection.position).max?.map fun position =>
    ⟨position, (Failure.collapse
      ((rejections.filter (·.position = position)).map Rejection.failure)).reverse⟩

theorem Rejection.positions_of? {σ : Type} {call : Call} {around : List Call}
    {outcome : Outcome σ} {position : Nat} :
    position ∈ (Rejection.of? call around outcome).toList.map Rejection.position ↔
      call.position = position ∧ ∃ mismatch, some outcome = some (.error mismatch) := by
  cases outcome with
  | ok matched => exact ⟨nofun, fun given => (nomatch given.2.choose_spec)⟩
  | error mismatch =>
      refine ⟨fun member => ⟨(List.mem_singleton.mp member).symm, mismatch, rfl⟩, ?_⟩
      exact fun given => List.mem_singleton.mpr given.1.symm

/-- Rejections start where the calls start that return a mismatch. -/
theorem mem_positions_rejections {history : List (Deed α)} {position : Nat} :
    position ∈ (rejections history).map Rejection.position ↔
      ∃ deed ∈ history, deed.call.position = position ∧
        ∃ mismatch, deed.outcome? = some (.error mismatch) := by
  induction history with
  | nil => exact ⟨nofun, fun given => (nomatch given.choose_spec.1)⟩
  | cons deed earlier ih =>
      rw [List.exists_mem_cons_iff]
      cases deed with
      | answered call kind outcome =>
          rw [rejections, List.map_append, List.mem_append, Rejection.positions_of?, or_comm]
          exact or_congr_right ih
      | started call =>
          exact ih.trans (or_iff_right fun given => (nomatch given.2.choose_spec)).symm
      | ended call kind made outcome =>
          rw [rejections, List.map_append, List.mem_append, Rejection.positions_of?, or_comm]
          exact or_congr_right ih

theorem rejections_eq_nil_iff {history : List (Deed α)} :
    rejections history = [] ↔
      ∀ deed ∈ history, ∀ mismatch, deed.outcome? ≠ some (.error mismatch) := by
  rw [← List.map_eq_nil_iff, List.eq_nil_iff_forall_not_mem]
  constructor
  · intro none deed member mismatch same
    exact none _ (mem_positions_rejections.mpr ⟨deed, member, rfl, mismatch, same⟩)
  · intro none position member
    obtain ⟨deed, member, -, mismatch, same⟩ := mem_positions_rejections.mp member
    exact none deed member mismatch same

section Collapse

variable {σ : Type} (related : σ → σ → Prop) [DecidableRel related]

/-- A further element is kept exactly if the last kept one is related to it. -/
theorem destutter'_concat (first : σ) (list : List σ) (further : σ) :
    ∃ kept last, list.destutter' related first = kept ++ [last] ∧
      (list ++ [further]).destutter' related first =
        if related last further then kept ++ [last, further] else kept ++ [last] := by
  -- The scan goes on with the last element that it has kept, so any of them may come first.
  induction list generalizing first with
  | nil => exact ⟨[], first, rfl, List.destutter'_singleton related⟩
  | cons next list ih =>
      rw [List.cons_append]
      by_cases apart : related first next
      · obtain ⟨kept, last, same, sameToo⟩ := ih next
        refine ⟨first :: kept, last, ?_, ?_⟩
        · rw [List.destutter'_cons_pos _ apart, same]
          rfl
        · rw [List.destutter'_cons_pos _ apart, sameToo]
          split <;> rfl
      · rw [List.destutter'_cons_neg _ apart, List.destutter'_cons_neg _ apart]
        exact ih first

theorem Failure.collapse_concat {failures : List Failure} (inhabited : failures ≠ [])
    (further : Failure) :
    ∃ kept last, collapse failures = kept ++ [last] ∧
      collapse (failures ++ [further]) =
        if last.mismatch = further.mismatch then kept ++ [last] else kept ++ [last, further] := by
  cases failures with
  | nil => exact (inhabited rfl).elim
  | cons first failures =>
      obtain ⟨kept, last, same, sameToo⟩ := destutter'_concat
        (fun failure next : Failure => failure.mismatch ≠ next.mismatch) first failures further
      exact ⟨kept, last, same, sameToo.trans (ite_not _ _ _)⟩

end Collapse

namespace FarthestFailure

variable {earlier : List Rejection} {last : Rejection}

theorem ofRejections_eq_none_iff : ofRejections earlier = none ↔ earlier = [] := by
  rw [ofRejections, Option.map_eq_none_iff, List.max?_eq_none_iff, List.map_eq_nil_iff]

theorem ofRejections_eq_some {position : Nat}
    (largest : (earlier.map Rejection.position).max? = some position) :
    ofRejections earlier = some ⟨position, (Failure.collapse
      ((earlier.filter (·.position = position)).map Rejection.failure)).reverse⟩ := by
  rw [ofRejections, largest]
  rfl

theorem filter_at_ne_nil {position : Nat}
    (member : position ∈ earlier.map Rejection.position) :
    (earlier.filter (·.position = position)).map Rejection.failure ≠ [] := by
  obtain ⟨rejection, among, same⟩ := List.mem_map.mp member
  exact List.ne_nil_of_mem (List.mem_map_of_mem
    (List.mem_filter.mpr ⟨among, decide_eq_true same⟩))

theorem of_ofRejections {farthest : FarthestFailure}
    (report : ofRejections earlier = some farthest) :
    farthest.failures ≠ [] ∧ farthest.position ∈ earlier.map Rejection.position ∧
      ∀ position ∈ earlier.map Rejection.position, position ≤ farthest.position := by
  cases largest : (earlier.map Rejection.position).max? with
  | none =>
      rw [ofRejections, largest] at report
      cases report
  | some position =>
      obtain ⟨member, bound⟩ := List.max?_eq_some_iff.mp largest
      cases (ofRejections_eq_some largest).symm.trans report
      refine ⟨?_, member, bound⟩
      rw [failures, List.reverse_reverse, Failure.collapse, Ne, List.destutter_eq_nil]
      exact filter_at_ne_nil member

theorem max?_concat_of_le {position : Nat}
    (largest : (earlier.map Rejection.position).max? = some position)
    (nearer : last.position ≤ position) :
    ((earlier ++ [last]).map Rejection.position).max? = some position := by
  obtain ⟨member, bound⟩ := List.max?_eq_some_iff.mp largest
  rw [List.map_append, List.max?_eq_some_iff]
  refine ⟨List.mem_append_left _ member, fun other among => ?_⟩
  rcases List.mem_append.mp among with among | among
  · exact bound other among
  · cases List.mem_singleton.mp among
    exact nearer

/-- A rejection that is not as far leaves the report as it was. -/
theorem ofRejections_concat_of_lt {position : Nat}
    (largest : (earlier.map Rejection.position).max? = some position)
    (nearer : last.position < position) :
    ofRejections (earlier ++ [last]) = ofRejections earlier := by
  -- The largest position stays, and the new rejection is not among those at it.
  have still := max?_concat_of_le largest (Nat.le_of_lt nearer)
  rw [ofRejections_eq_some largest, ofRejections_eq_some still, List.filter_append,
    List.filter_singleton, decide_eq_false (Nat.ne_of_lt nearer), Bool.cond_false,
    List.append_nil]

/-- A rejection that is farther makes a new report. -/
theorem ofRejections_concat_of_gt
    (farther : ∀ rejection ∈ earlier, rejection.position < last.position) :
    ofRejections (earlier ++ [last]) = some ⟨last.position, [last.failure]⟩ := by
  have largest : ((earlier ++ [last]).map Rejection.position).max? = some last.position := by
    rw [List.max?_eq_some_iff]
    refine ⟨List.mem_map_of_mem (List.mem_append_right _ (List.mem_singleton_self _)), ?_⟩
    intro position among
    obtain ⟨rejection, member, rfl⟩ := List.mem_map.mp among
    rcases List.mem_append.mp member with member | member
    · exact Nat.le_of_lt (farther rejection member)
    · rw [List.mem_singleton.mp member]
  have others : earlier.filter (·.position = last.position) = [] := by
    refine List.filter_eq_nil_iff.mpr fun rejection among => ?_
    rw [decide_eq_true_eq]
    exact Nat.ne_of_lt (farther rejection among)
  rw [ofRejections_eq_some largest, List.filter_append, others, List.nil_append,
    List.filter_singleton, decide_eq_true rfl, Bool.cond_true]
  rfl

/-- A rejection that is as far joins the report unless it repeats the latest mismatch. -/
theorem ofRejections_concat_of_eq (last : Rejection)
    (largest : (earlier.map Rejection.position).max? = some last.position) :
    ∃ latest older, ofRejections earlier = some ⟨last.position, latest :: older⟩ ∧
      ofRejections (earlier ++ [last]) =
        some ⟨last.position, if latest.mismatch = last.failure.mismatch then latest :: older
          else last.failure :: latest :: older⟩ := by
  obtain ⟨member, -⟩ := List.max?_eq_some_iff.mp largest
  have still := max?_concat_of_le largest (Nat.le_refl last.position)
  obtain ⟨kept, latest, before, after⟩ :=
    Failure.collapse_concat (filter_at_ne_nil member) last.failure
  refine ⟨latest, kept.reverse, ?_, ?_⟩
  · rw [ofRejections_eq_some largest, before, List.reverse_append]
    rfl
  · rw [ofRejections_eq_some still, List.filter_append, List.filter_singleton,
      decide_eq_true rfl, Bool.cond_true, List.map_append, List.map_singleton, after]
    split
    · rw [List.reverse_append]
      rfl
    · rw [List.reverse_append]
      rfl

end FarthestFailure

/-! ## Tracers -/

namespace Tracer

theorem register_stack (tracer : Tracer) (position : Nat) (mismatch : Mismatch) :
    (tracer.register position mismatch).stack = tracer.stack := by
  rw [register]
  split
  · rfl
  · split
    · rfl
    · split
      · rfl
      · split <;> rfl

/-- A tracer with the report of some rejections gets that of one more when it records it. -/
theorem register_farthest {tracer : Tracer} {earlier : List Rejection}
    (same : tracer.farthest = FarthestFailure.ofRejections earlier) (position : Nat)
    (mismatch : Mismatch) :
    (tracer.register position mismatch).farthest =
      FarthestFailure.ofRejections (earlier ++ [⟨position, ⟨tracer.stack, mismatch⟩⟩]) := by
  cases largest : (earlier.map Rejection.position).max? with
  | none =>
      have first : earlier = [] := List.map_eq_nil_iff.mp (List.max?_eq_none_iff.mp largest)
      subst first
      rw [FarthestFailure.ofRejections_concat_of_gt (List.forall_mem_nil _), register, same,
        FarthestFailure.ofRejections_eq_none_iff.mpr rfl]
  | some farthest =>
      obtain ⟨-, bound⟩ := List.max?_eq_some_iff.mp largest
      have known := FarthestFailure.ofRejections_eq_some largest
      rcases Nat.lt_trichotomy position farthest with nearer | equal | farther
      · rw [FarthestFailure.ofRejections_concat_of_lt largest nearer, ← same, register, same,
          known]
        simp only [if_pos nearer, same, known]
      · subst equal
        obtain ⟨latest, older, before, after⟩ :=
          FarthestFailure.ofRejections_concat_of_eq ⟨position, ⟨tracer.stack, mismatch⟩⟩ largest
        rw [after, register, same, before]
        simp only [Nat.lt_irrefl, if_false, List.head?_cons, Option.map_some, Option.some.injEq]
        split
        · rw [same, before]
        · rfl
      · have beyond : ∀ rejection ∈ earlier, rejection.position < position :=
          fun _ member => Nat.lt_of_le_of_lt (bound _ (List.mem_map_of_mem member)) farther
        rw [FarthestFailure.ofRejections_concat_of_gt beyond, register, same, known]
        simp only [Nat.lt_asymm farther, if_false, if_pos farther]

def returned (tracer : Tracer) (call : Call) : Outcome (Sealed α) → Tracer
  | .ok _ => tracer.closed
  | .error mismatch => (tracer.register call.position mismatch).closed

/-- The tracer has the frames of the active calls and the report of the rejections so far. -/
structure Reports (tracer : Tracer) (calls : List Call) (earlier : List Rejection) : Prop where
  stack : tracer.stack = Trace.ofCalls calls
  farthest : tracer.farthest = FarthestFailure.ofRejections earlier

namespace Reports

variable {tracer : Tracer} {call : Call} {calls : List Call} {earlier : List Rejection}

theorem opened (reports : tracer.Reports calls earlier) (call : Call) :
    (tracer.opened call).Reports (call :: calls) earlier where
  stack := by
    rw [Trace.ofCalls_cons, ← reports.stack]
    rfl
  farthest := reports.farthest

theorem returned (reports : tracer.Reports (call :: calls) earlier)
    (outcome : Outcome (Sealed α)) :
    (tracer.returned call outcome).Reports calls
      (earlier ++ (Rejection.of? call calls outcome).toList) := by
  have popped : tracer.stack.pop = Trace.ofCalls calls := by
    rw [reports.stack, Trace.pop_ofCalls_cons]
  cases outcome with
  | ok matched =>
      refine ⟨popped, ?_⟩
      rw [show (Rejection.of? call calls (.ok matched)).toList = [] from rfl, List.append_nil]
      exact reports.farthest
  | error mismatch =>
      have registered := register_farthest reports.farthest call.position mismatch
      rw [reports.stack] at registered
      refine ⟨?_, registered⟩
      rw [← popped, ← tracer.register_stack call.position mismatch]
      rfl

end Reports

end Tracer

namespace Policy

/-- The policy that sees calls first and outcomes last. -/
def outermost : Policy α → Policy α
  | .chain outer _ => outer.outermost
  | other => other

def tracers : Policy α → List Tracer
  | .tracer state => [state]
  | .chain outer inner => outer.tracers ++ inner.tracers
  | _ => []

theorem farthestFailure_eq (policy : Policy α) :
    policy.farthestFailure = policy.tracers.findSome? Tracer.farthest := by
  induction policy with
  | identity => rfl
  | recorder name => rfl
  | tracer state =>
      rw [tracers, List.findSome?_singleton]
      rfl
  | depthLimiter state => rfl
  | memoizer state => rfl
  | chain outer inner outerIh innerIh =>
      rw [farthestFailure, tracers, List.findSome?_append, outerIh, innerIh]

theorem tracers_of_outermost {policy : Policy α} {tracer : Tracer}
    (first : policy.outermost = .tracer tracer) :
    ∃ others, policy.tracers = tracer :: others := by
  induction policy with
  | identity => cases first
  | recorder name => cases first
  | tracer state =>
      cases first
      exact ⟨[], rfl⟩
  | depthLimiter state => cases first
  | memoizer state => cases first
  | chain outer inner outerIh _ =>
      obtain ⟨others, same⟩ := outerIh first
      exact ⟨others ++ inner.tracers, congrArg (· ++ inner.tracers) same⟩

theorem leave_outermost {policy : Policy α} {tracer : Tracer}
    (first : policy.outermost = .tracer tracer) (call : Call) (made : Outcome (Sealed α)) :
    (policy.leave call made).policy.outermost =
      .tracer (tracer.returned call (policy.leave call made).outcome) := by
  induction policy generalizing made with
  | identity => cases first
  | recorder name => cases first
  | tracer state =>
      cases first
      cases made <;> rfl
  | depthLimiter state => cases first
  | memoizer state => cases first
  | chain outer inner outerIh _ => exact outerIh first _

theorem enter_outermost {policy : Policy α} {tracer : Tracer}
    (first : policy.outermost = .tracer tracer) (call : Call) :
    ((policy.enter call).answer = none →
      (policy.enter call).policy.outermost = .tracer (tracer.opened call)) ∧
    ∀ outcome, (policy.enter call).answer = some outcome →
      (policy.enter call).policy.outermost =
        .tracer ((tracer.opened call).returned call outcome) := by
  induction policy with
  | identity => cases first
  | recorder name => cases first
  | tracer state =>
      cases first
      exact ⟨fun _ => rfl, fun _ answered => (nomatch answered)⟩
  | depthLimiter state => cases first
  | memoizer state => cases first
  | chain outer inner outerIh _ =>
      obtain ⟨opens, answers⟩ := outerIh first
      simp only [enter]
      split
      · next given outerAnswer =>
          refine ⟨fun unanswered => (nomatch unanswered), fun outcome answered => ?_⟩
          cases answered
          exact answers given outerAnswer
      · next outerAnswer =>
          have inside := opens outerAnswer
          split
          · exact ⟨fun _ => inside, fun _ answered => (nomatch answered)⟩
          · next given innerAnswer =>
              refine ⟨fun unanswered => (nomatch unanswered), fun outcome answered => ?_⟩
              cases answered
              exact leave_outermost inside call given

end Policy

section Lives

variable [Input ι] {input : ι} {history : List (Deed α)} {policy policyToo : Policy α}
  {calls callsToo : List Call} {deed? : Option (Deed α)}

/-- The outermost policy is a tracer that reports what the history tells. -/
def Traced (history : List (Deed α)) (policy : Policy α) (calls : List Call) : Prop :=
  openCalls history = calls ∧
    ∃ tracer, policy.outermost = .tracer tracer ∧ tracer.Reports calls (rejections history)

theorem Turn.traced (turn : Turn input policy calls deed? policyToo callsToo)
    (traced : Traced history policy calls) :
    Traced (deed?.toList ++ history) policyToo callsToo := by
  obtain ⟨running, tracer, first, reports⟩ := traced
  cases turn with
  | quiet => exact ⟨running, tracer, first, reports⟩
  | @answered _ call kind outcome _ answer =>
      subst running
      exact ⟨rfl, _, (Policy.enter_outermost first call).2 outcome answer,
        (reports.opened call).returned outcome⟩
  | @started _ call _ missing =>
      subst running
      exact ⟨rfl, _, (Policy.enter_outermost first call).1 missing, reports.opened call⟩
  | @ended _ call kind made _ =>
      have around : (openCalls history).tail = callsToo := congrArg List.tail running
      subst around
      exact ⟨rfl, _, Policy.leave_outermost first call made, reports.returned _⟩

theorem Lives.traced (outermost : policy.outermost = .tracer .empty) {arena : Arena ι α}
    {parser : Parser ι α} {moment : Moment ι α}
    (lives : Lives input (.birth policy arena parser) history moment) :
    Traced history moment.policy moment.config.calls :=
  lives.keeps Traced ⟨rfl, .empty, outermost, rfl, rfl⟩
    fun traced turn => turn.traced traced

end Lives

/--
At every moment of an engine whose outermost policy is a tracer, the frames of the tracer are
the run lengths of the active calls, of which there are none between runs.  The tracer has
nothing to report exactly if no call has returned a mismatch.  Otherwise it reports the largest
position of a call that has, with the mismatches returned there in their order, each with the
calls that were active and without those that repeat the one before.
-/
theorem report_tells_farthest_rejections [Input ι] (input : ι) (policy : Policy α)
    (outermost : policy.outermost = .tracer .empty) (arena : Arena ι α) (parser : Parser ι α)
    (history : List (Deed α)) (moment : Moment ι α)
    (lives : Lives input (.birth policy arena parser) history moment) :
    openCalls history = moment.config.calls ∧
    ∃ tracer others, moment.policy.tracers = tracer :: others ∧
      moment.policy.outermost = .tracer tracer ∧
      tracer.stack = Trace.ofCalls moment.config.calls ∧
      (moment.config.stack = [] → tracer.stack = []) ∧
      tracer.farthest = FarthestFailure.ofRejections (rejections history) ∧
      (tracer.farthest = none ↔
        ∀ deed ∈ history, ∀ mismatch, deed.outcome? ≠ some (.error mismatch)) ∧
      moment.policy.farthestFailure =
        (FarthestFailure.ofRejections (rejections history)).or
          (others.findSome? Tracer.farthest) := by
  obtain ⟨running, tracer, first, reports⟩ := lives.traced outermost
  obtain ⟨others, listed⟩ := Policy.tracers_of_outermost first
  refine ⟨running, tracer, others, listed, first, reports.stack, ?_, reports.farthest, ?_, ?_⟩
  · intro idle
    rw [reports.stack, Config.calls, idle]
    rfl
  · rw [reports.farthest, FarthestFailure.ofRejections_eq_none_iff, rejections_eq_nil_iff]
  · rw [Policy.farthestFailure_eq, listed, List.findSome?_cons, reports.farthest]
    cases FarthestFailure.ofRejections (rejections history) <;> rfl

/-- A rule under which the same item fails inside itself. -/
def nestedItems : Parser (Array Char) Unit :=
  .rule ⟨"list"⟩ (.rule ⟨"item"⟩ (.oneOfTagged ⟨"item"⟩ []))

theorem report_tells_farthest_rejections_nested :
    ∃ history final, Lives #['a'] (.birth (.chain (.tracer .empty) (.recorder "calls")) .empty
        nestedItems) history ⟨.empty, ⟨.answer (.error (.bare (some ⟨"item"⟩))), [], final⟩⟩ ∧
      (rejections history).length = 3 ∧
      final.policy.farthestFailure =
        some ⟨0, [⟨[⟨0, some ⟨"item"⟩, 2⟩, ⟨0, some ⟨"list"⟩, 1⟩], .bare (some ⟨"item"⟩)⟩]⟩ := by
  obtain ⟨final, done⟩ : ∃ final, (Setting.mk #['a'] .empty).runMatch 20 nestedItems
      (.initial (.chain (.tracer .empty) (.recorder "calls"))) =
        .done (.error (.bare (some ⟨"item"⟩))) final := ⟨_, rfl⟩
  have lives := Lives.here.run_done done
  obtain ⟨-, tracer, others, -, -, -, -, -, -, report⟩ :=
    report_tells_farthest_rejections _ _ rfl _ _ _ _ lives
  exact ⟨_, final, lives, rfl, report.trans rfl⟩

end Packrat
