import Packrat.Policy.DepthLimiter
import Packrat.Policy.Memoizer
import Packrat.Policy.Tracer

/-!
# Policies

A policy is wrapped around every call.  When a call starts, the policy either lets
the parser run or answers in its place; when the parser has run, the policy passes
its outcome on or replaces it.  Policies nest: the outer one of a chain sees the calls
first and the outcomes last.
-/

namespace Packrat

inductive Policy (α : Type) where
  | identity
  | tracer (state : Tracer)
  | depthLimiter (state : DepthLimiter)
  | memoizer (state : Memoizer α)
  | recorder (name : String)
  | chain (outer inner : Policy α)

/-- What a policy does when a call starts; without an answer the parser runs. -/
structure Entry (α : Type) where
  policy : Policy α
  events : List Event
  answer : Option (Outcome (Sealed α))

structure Exit (α : Type) where
  policy : Policy α
  events : List Event
  outcome : Outcome (Sealed α)

namespace Policy

variable {α : Type}

/-- Failures outermost, then the re-entrancy limit, then the memo table. -/
def standard : Policy α :=
  .chain (.tracer .empty) (.chain (.depthLimiter .empty) (.memoizer .empty))

def leave (policy : Policy α) (call : Call) (outcome : Outcome (Sealed α)) : Exit α :=
  match policy with
  | .identity => ⟨.identity, [], outcome⟩
  | .tracer state =>
      match outcome with
      | .ok _ => ⟨.tracer state.closed, [], outcome⟩
      | .error mismatch =>
          let events :=
            if state.isNewFarthest call.position then
              [Event.newFarthest call.position mismatch]
            else
              []
          ⟨.tracer (state.register call.position mismatch).closed, events, outcome⟩
  | .depthLimiter state =>
      match call.key? with
      | none => ⟨.depthLimiter state, [], outcome⟩
      | some key => ⟨.depthLimiter (state.closed key), [], outcome⟩
  | .memoizer state =>
      match call.key? with
      | none => ⟨.memoizer state, [], outcome⟩
      | some key =>
          let stored := state.find? key
          if Memoizer.stores stored outcome then
            ⟨.memoizer (state.insert key outcome), [.memoStore key outcome.isMatch], outcome⟩
          else
            ⟨.memoizer state, [], Memoizer.better stored outcome⟩
  | .recorder name => ⟨.recorder name, [.left name call outcome.extent], outcome⟩
  | .chain outer inner =>
      let first := inner.leave call outcome
      let second := outer.leave call first.outcome
      ⟨.chain second.policy first.policy, first.events ++ second.events, second.outcome⟩

def enter (policy : Policy α) (call : Call) : Entry α :=
  match policy with
  | .identity => ⟨.identity, [], none⟩
  | .tracer state => ⟨.tracer (state.opened call), [], none⟩
  | .depthLimiter state =>
      match call.key? with
      | none => ⟨.depthLimiter state, [], none⟩
      | some key =>
          if state.refuses key call.remaining then
            ⟨.depthLimiter state, [.recursionRefused key (state.depth key)],
              some (.error (DepthLimiter.refusal call))⟩
          else
            ⟨.depthLimiter (state.opened key), [], none⟩
  | .memoizer state =>
      match call.key? with
      | none => ⟨.memoizer state, [], none⟩
      | some key =>
          match state.find? key with
          | some outcome => ⟨.memoizer state, [.memoHit key], some outcome⟩
          | none => ⟨.memoizer state, [], none⟩
  | .recorder name => ⟨.recorder name, [.entered name call], none⟩
  | .chain outer inner =>
      let first := outer.enter call
      match first.answer with
      | some outcome => ⟨.chain first.policy inner, first.events, some outcome⟩
      | none =>
          let second := inner.enter call
          match second.answer with
          | none => ⟨.chain first.policy second.policy, first.events ++ second.events, none⟩
          | some outcome =>
              let last := first.policy.leave call outcome
              ⟨.chain last.policy second.policy,
                first.events ++ second.events ++ last.events, some last.outcome⟩

def farthestFailure : Policy α → Option FarthestFailure
  | .tracer state => state.farthest
  | .chain outer inner => outer.farthestFailure.or inner.farthestFailure
  | _ => none

/-- The reports of all policies that have one, outermost first, with a blank line between them. -/
def report : Policy α → Option String
  | .tracer state => state.farthest.map FarthestFailure.text
  | .chain outer inner =>
      match outer.report, inner.report with
      | some first, some second => some (first ++ "\n\n" ++ second)
      | first, second => first.or second
  | _ => none

end Policy

end Packrat
