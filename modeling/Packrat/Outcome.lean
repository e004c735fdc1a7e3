import Packrat.Mismatch
import Packrat.Span
import Packrat.Symbol

/-!
# Outcomes

A parser body ends with a symbol or a mismatch, its result.  A finished call also
knows the part of the input that it consumed, and its outcome is a match or a
mismatch.
-/

namespace Packrat

/-- How a parser body ends. -/
abbrev Result (α : Type) := Except Mismatch (Symbol α)

structure Match (σ : Type) where
  symbol : σ
  span : Span

namespace Match

def map {σ τ : Type} (matched : Match σ) (f : σ → τ) : Match τ := ⟨f matched.symbol, matched.span⟩

end Match

/-- How a call ends. -/
abbrev Outcome (σ : Type) := Except Mismatch (Match σ)

namespace Outcome

def isMatch {σ : Type} (outcome : Outcome σ) : Bool := outcome.isOk

def extent {σ : Type} (outcome : Outcome σ) : Except Mismatch Span := outcome.map Match.span

end Outcome

end Packrat
