import Packrat.Proofs.Life
import Packrat.Proofs.PolicyLaws

/-!
# Counting active calls

Every re-entrancy limit of a chain counts the active calls of every key.  The start of a call
that is left to its body adds the call, the end of the body takes it back, and a call that is
answered leaves the counts as they were, so the counts are right at every moment.
-/

namespace Packrat

variable {ι α : Type}

def callsOf (key : Key) (calls : List Call) : Nat := calls.countP fun call => call.key? = some key

theorem callsOf_cons (key : Key) (call : Call) (calls : List Call) :
    callsOf key (call :: calls) = callsOf key calls + call.opens key := by
  simp only [callsOf, List.countP_cons, Call.opens, decide_eq_true_eq]

/-- The limit counts the given calls as active. -/
def DepthLimiter.Counts (calls : List Call) (limiter : DepthLimiter) : Prop :=
  ∀ key, limiter.depth key = callsOf key calls

namespace DepthLimiter.Counts

variable {limiter : DepthLimiter} {call : Call} {calls : List Call}

theorem empty : DepthLimiter.empty.Counts [] := fun key => depth_empty key

theorem untagged (missing : call.key? = none) :
    limiter.Counts (call :: calls) ↔ limiter.Counts calls := by
  refine forall_congr' fun key => ?_
  rw [callsOf_cons, Call.opens, missing]
  rfl

theorem opened {key : Key} (tagged : call.key? = some key) (counts : limiter.Counts calls) :
    (limiter.opened key).Counts (call :: calls) := by
  intro other
  rw [depth_opened, counts other, callsOf_cons, Call.opens, tagged]
  simp only [Option.some.injEq]

theorem closed {key : Key} (tagged : call.key? = some key)
    (counts : limiter.Counts (call :: calls)) : (limiter.closed key).Counts calls := by
  intro other
  rw [depth_closed, counts other, callsOf_cons, Call.opens, tagged]
  simp only [Option.some.injEq, Nat.add_sub_cancel]

end DepthLimiter.Counts

/-- The start of a call leads from one property of a limit to another one, and its end back. -/
structure DepthLimiter.Brackets (call : Call) (idle active : DepthLimiter → Prop) : Prop where
  untagged : call.key? = none → ∀ limiter, idle limiter ↔ active limiter
  opened : ∀ limiter key, call.key? = some key → limiter.refuses key call.remaining = false →
    idle limiter → active (limiter.opened key)
  closed : ∀ limiter key, call.key? = some key → active limiter → idle (limiter.closed key)

theorem DepthLimiter.Brackets.counts (call : Call) (calls : List Call) :
    Brackets call (DepthLimiter.Counts calls) (DepthLimiter.Counts (call :: calls)) where
  untagged missing _ := (Counts.untagged missing).symm
  opened _ _ tagged _ := Counts.opened tagged
  closed _ _ tagged := Counts.closed tagged

namespace Policy

variable {call : Call} {idle active : DepthLimiter → Prop} {policy : Policy α}

theorem leave_limits (brackets : DepthLimiter.Brackets call idle active)
    (limits : policy.Limits active) (made : Outcome (Sealed α)) :
    (policy.leave call made).policy.Limits idle := by
  induction policy generalizing made with
  | identity => trivial
  | recorder name => trivial
  | tracer state => cases made <;> trivial
  | depthLimiter limiter =>
      rw [leave]
      split
      · next missing => exact (brackets.untagged missing limiter).mpr limits
      · next key tagged => exact brackets.closed limiter key tagged limits
  | memoizer memo =>
      rw [leave]
      split
      · trivial
      · simp only
        split <;> trivial
  | chain outer inner outerIh innerIh => exact ⟨outerIh limits.1 _, innerIh limits.2 made⟩

/-- When a call starts, every limit adds it exactly if it is not answered. -/
theorem enter_limits (brackets : DepthLimiter.Brackets call idle active)
    (limits : policy.Limits idle) :
    ((policy.enter call).answer = none → (policy.enter call).policy.Limits active) ∧
    ∀ outcome, (policy.enter call).answer = some outcome →
      (policy.enter call).policy.Limits idle := by
  induction policy with
  | identity => exact ⟨fun _ => trivial, fun _ _ => trivial⟩
  | recorder name => exact ⟨fun _ => trivial, fun _ _ => trivial⟩
  | tracer state => exact ⟨fun _ => trivial, fun _ _ => trivial⟩
  | depthLimiter limiter =>
      rw [enter]
      split
      · next missing =>
          exact ⟨fun _ => (brackets.untagged missing limiter).mp limits, fun _ _ => limits⟩
      · next key tagged =>
          split
          · refine ⟨fun unanswered => ?_, fun _ _ => limits⟩
            cases unanswered
          · next allowed =>
              refine ⟨fun _ => ?_, fun _ answered => ?_⟩
              · exact brackets.opened limiter key tagged (Bool.eq_false_iff.mpr allowed) limits
              · cases answered
  | memoizer memo =>
      rw [enter]
      split
      · exact ⟨fun _ => trivial, fun _ _ => trivial⟩
      · split <;> exact ⟨fun _ => trivial, fun _ _ => trivial⟩
  | chain outer inner outerIh innerIh =>
      obtain ⟨outerOpens, outerAnswers⟩ := outerIh limits.1
      obtain ⟨innerOpens, innerAnswers⟩ := innerIh limits.2
      simp only [enter]
      split
      · next given first =>
          refine ⟨fun unanswered => ?_, fun _ _ => ⟨outerAnswers given first, limits.2⟩⟩
          cases unanswered
      · next first =>
          split
          · next second =>
              refine ⟨fun _ => ⟨outerOpens first, innerOpens second⟩, fun _ answered => ?_⟩
              cases answered
          · next given second =>
              constructor
              · intro unanswered
                cases unanswered
              · intro _ _
                exact ⟨leave_limits brackets (outerOpens first) given, innerAnswers given second⟩

end Policy

theorem Turn.counts [Input ι] {input : ι} {policy policyToo : Policy α}
    {calls callsToo : List Call} {deed? : Option (Deed α)}
    (turn : Turn input policy calls deed? policyToo callsToo)
    (counts : policy.Limits (DepthLimiter.Counts calls)) :
    policyToo.Limits (DepthLimiter.Counts callsToo) := by
  cases turn with
  | quiet => exact counts
  | answered _ answer => exact (Policy.enter_limits (.counts _ _) counts).2 _ answer
  | started _ missing => exact (Policy.enter_limits (.counts _ _) counts).1 missing
  | ended _ => exact Policy.leave_limits (.counts _ _) counts _

end Packrat
