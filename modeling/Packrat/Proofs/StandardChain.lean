import Packrat.Proofs.PolicyLaws

/-!
# The standard chain around a call

The standard chain is a tracer, a re-entrancy limit and a memo table.  The tracer never
changes an outcome, so a call is described by what it does to the limit and to the table:
it is refused, answered from the table, or left to its body, whose outcome is then stored
if it improves on the table.
-/

namespace Packrat

variable {α : Type}

namespace Policy

def standardWith (tracer : Tracer) (limiter : DepthLimiter) (memo : Memoizer α) : Policy α :=
  .chain (.tracer tracer) (.chain (.depthLimiter limiter) (.memoizer memo))

/-- The policies are a standard chain with this re-entrancy limit and this memo table. -/
def IsStandard (policy : Policy α) (limiter : DepthLimiter) (memo : Memoizer α) : Prop :=
  ∃ tracer, policy = standardWith tracer limiter memo

namespace IsStandard

variable {policy other : Policy α} {limiter further : DepthLimiter} {memo table : Memoizer α}
  {call : Call} {key : Key} {outcome : Outcome (Sealed α)}

theorem depth_eq (standard : policy.IsStandard limiter memo)
    (standardToo : other.IsStandard further table) (balanced : policy.Balanced other)
    (key : Key) : further.depth key = limiter.depth key := by
  obtain ⟨_, rfl⟩ := standard
  obtain ⟨_, rfl⟩ := standardToo
  exact balanced.2.1 key

theorem enter_untagged (standard : policy.IsStandard limiter memo) (untagged : call.key? = none) :
    (policy.enter call).answer = none ∧
      (policy.enter call).policy.IsStandard limiter memo := by
  obtain ⟨tracer, rfl⟩ := standard
  simp only [standardWith, enter, untagged]
  exact ⟨trivial, _, rfl⟩

theorem enter_refused (standard : policy.IsStandard limiter memo) (tagged : call.key? = some key)
    (refused : limiter.refuses key call.remaining = true) :
    (policy.enter call).answer = some (.error (DepthLimiter.refusal call)) ∧
      (policy.enter call).policy.IsStandard limiter memo := by
  obtain ⟨tracer, rfl⟩ := standard
  simp only [standardWith, enter, leave, tagged, refused, if_true]
  exact ⟨trivial, _, rfl⟩

theorem enter_remembered (standard : policy.IsStandard limiter memo)
    (tagged : call.key? = some key) (granted : limiter.refuses key call.remaining = false)
    (remembered : memo.find? key = some outcome) :
    (policy.enter call).answer = some outcome ∧
      ∃ further, (policy.enter call).policy.IsStandard further memo := by
  obtain ⟨tracer, rfl⟩ := standard
  cases outcome <;>
    · simp only [standardWith, enter, leave, tagged, granted, remembered, Bool.false_eq_true,
        if_false]
      exact ⟨trivial, _, _, rfl⟩

theorem enter_open (standard : policy.IsStandard limiter memo) (tagged : call.key? = some key)
    (granted : limiter.refuses key call.remaining = false) (missing : memo.find? key = none) :
    (policy.enter call).answer = none ∧
      (policy.enter call).policy.IsStandard (limiter.opened key) memo := by
  obtain ⟨tracer, rfl⟩ := standard
  simp only [standardWith, enter, tagged, granted, missing, Bool.false_eq_true, if_false]
  exact ⟨trivial, _, rfl⟩

theorem enter (standard : policy.IsStandard limiter memo) (call : Call) :
    ∃ further, (policy.enter call).policy.IsStandard further memo := by
  cases tagged : call.key? with
  | none => exact ⟨limiter, (standard.enter_untagged tagged).2⟩
  | some key =>
      cases refuses : limiter.refuses key call.remaining with
      | true => exact ⟨limiter, (standard.enter_refused tagged refuses).2⟩
      | false =>
          cases found : memo.find? key with
          | none => exact ⟨limiter.opened key, (standard.enter_open tagged refuses found).2⟩
          | some outcome => exact (standard.enter_remembered tagged refuses found).2

theorem leave_untagged (standard : policy.IsStandard limiter memo) (untagged : call.key? = none)
    (outcome : Outcome (Sealed α)) :
    (policy.leave call outcome).outcome = outcome ∧
      (policy.leave call outcome).policy.IsStandard limiter memo := by
  obtain ⟨tracer, rfl⟩ := standard
  cases outcome <;>
    · simp only [standardWith, leave, untagged]
      exact ⟨trivial, _, rfl⟩

theorem leave_stored (standard : policy.IsStandard limiter memo) (tagged : call.key? = some key)
    (stores : Memoizer.stores (memo.find? key) outcome = true) :
    (policy.leave call outcome).outcome = outcome ∧
      ∃ further, (policy.leave call outcome).policy.IsStandard further
        (memo.insert key outcome) := by
  obtain ⟨tracer, rfl⟩ := standard
  cases outcome <;>
    · simp only [standardWith, leave, tagged, stores, if_true]
      exact ⟨trivial, _, _, rfl⟩

theorem leave_kept (standard : policy.IsStandard limiter memo) (tagged : call.key? = some key)
    (stores : Memoizer.stores (memo.find? key) outcome = false) :
    (policy.leave call outcome).outcome = Memoizer.better (memo.find? key) outcome ∧
      ∃ further, (policy.leave call outcome).policy.IsStandard further memo := by
  obtain ⟨tracer, rfl⟩ := standard
  simp only [standardWith, leave, tagged, stores, Bool.false_eq_true, if_false]
  cases Memoizer.better (memo.find? key) outcome <;> exact ⟨rfl, _, _, rfl⟩

theorem leave (standard : policy.IsStandard limiter memo) (call : Call)
    (outcome : Outcome (Sealed α)) :
    ∃ further table, (policy.leave call outcome).policy.IsStandard further table := by
  cases tagged : call.key? with
  | none => exact ⟨limiter, memo, (standard.leave_untagged tagged outcome).2⟩
  | some key =>
      cases stores : Memoizer.stores (memo.find? key) outcome with
      | true =>
          obtain ⟨-, further, left⟩ := standard.leave_stored tagged stores
          exact ⟨further, _, left⟩
      | false =>
          obtain ⟨-, further, left⟩ := standard.leave_kept tagged stores
          exact ⟨further, memo, left⟩

end IsStandard

end Policy

end Packrat
