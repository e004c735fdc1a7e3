import Packrat.Workbench.Change
import Packrat.Workbench.Leaf
import Packrat.Workbench.Shape

/-!
# Grammars given as data

A node describes a parser of the workbench.  Building it resolves the names of handles
and of enclosing recursive rules.  Inside a recursive rule a name stands for the handle
that was declared under it last, even after the node was built.
-/

namespace Packrat.Workbench

inductive Keep where
  | both
  | first
  | second
  deriving DecidableEq, Repr

inductive Node where
  | leaf (leaf : Leaf)
  | endOfInput
  | empty
  | skip (inner : Node)
  | deferred (inner : Node)
  | maybe (inner : Node)
  | repetition (item : Node) (limit : CountLimit) (tag : Option Tag)
  | separated (item separator : Node) (tag : Option Tag)
  | sequence (keep : Keep) (first second : Node)
  | choice (alternatives : List Node) (tag : Option Tag)
  | change (inner : Node) (change : Change)
  | check (inner : Node) (check : Check)
  | thenSame (first : Node)
  | thenExactly (first item : Node)
  | thenSwitch (first : Node) (texts : List String) (cases : List Node) (otherwise : Node)
  | blame (inner : Node) (blame : Blame)
  | label (inner : Node) (tag : Tag)
  | boxed (inner : Node)
  | withTag (inner : Node) (tag : Tag)
  | rule (tag : Tag) (inner : Node)
  | recursive (tag : Tag) (body : Node)
  | this (tag : Option Tag)
  | ref (name : String)
  | typed (kind : Kind) (inner : Node) (tag : Tag)
  | fail (mismatch : Mismatch)
  | position
  | counted (counter : String) (inner : Node)
  | depthOf (tag : Tag)
  | snapshot

/-- Declared handles by name, the latest first: slot and tag. -/
abbrev Handles := List (String × Nat × Tag)

/-- The names that a node may use; recursive rules use the latest handles. -/
structure Scope where
  shape : Shape
  handles : Handles
  latest : Handles
  enclosing : List Tag

/-- Building a parser keeps track of the counters met so far. -/
abbrev Building (β : Type) := ExceptT BuildError (StateM (List String)) β

def toKind (kind : Kind) : Value → Value :=
  match kind with
  | .general => id
  | .count => Change.length.apply
  | .text => Change.text.apply
  | .unit => Change.unit.apply

/-- The parser of the case whose text is given, the last of several such cases. -/
def selectCase {ι : Type} (cases : List (String × Parser ι Datum)) (otherwise : Parser ι Datum)
    (text : String) : Parser ι Datum :=
  (cases.reverse.lookup text).getD otherwise

/-- The number of active calls of a tag at the cursor, as the first depth limiter counts them. -/
def depthSeen (shape : Shape) (tag : Tag) (policy : Policy Datum) (position : Nat) : Value :=
  match shape.depthLimiters policy with
  | limiter :: _ => integerSymbol (limiter.depth ⟨position, tag⟩)
  | [] => integerSymbol 0

/-- The active calls in words, as the first tracer keeps them. -/
def traceSeen (shape : Shape) (policy : Policy Datum) : Value :=
  match shape.tracers policy with
  | tracer :: _ => .text tracer.stack.text
  | [] => .text ""

namespace Node

variable {ι : Type} [Medium ι]

mutual

def build (scope : Scope) : Node → Building (Parser ι Datum)
  | leaf content => MonadExcept.ofExcept (Medium.leaf content)
  | endOfInput => return .endOfInput
  | empty => return .empty
  | skip inner => return (← inner.build scope).skip
  | deferred inner => return (← inner.build scope).deferred
  | maybe inner => return (← inner.build scope).maybe
  | repetition item limit tag => return .repetition tag (← item.build scope) limit
  | separated item separator tag =>
      return .separated tag (← item.build scope) (← separator.build scope)
  | sequence keep first second => do
      let one ← first.build scope
      let other ← second.build scope
      match keep with
      | .both => return one.followedBy other
      | .first => return one.thenIgnore other
      | .second => return one.ignoreThen other
  | choice alternatives tag => return .choice tag (← buildAll scope alternatives)
  | change inner function => return (← inner.build scope).map function.apply
  | check inner function => return (← inner.build scope).tryMap function.apply
  | thenSame first => return .andThen (← first.build scope) Medium.same
  | thenExactly first item => do
      let one ← first.build scope
      let other ← item.build scope
      return .andThen one fun symbol => other.repeated (.exactly (numberOf symbol).toNat)
  | thenSwitch first texts cases otherwise => do
      let one ← first.build scope
      let parsers ← buildAll scope cases
      let last ← otherwise.build scope
      return .andThen one fun symbol => selectCase (texts.zip parsers) last (textOf symbol)
  | blame inner function => return (← inner.build scope).mapError function.apply
  | label inner tag => return (← inner.build scope).labelled tag
  | boxed inner => return (← inner.build scope).boxed
  | withTag inner tag => return .retag tag (← inner.build scope)
  | rule tag inner => return .rule tag (← inner.build scope)
  | recursive tag body =>
      return .recursive tag (← body.build
        { scope with handles := scope.latest, enclosing := tag :: scope.enclosing })
  | this none => return .self 0
  | this (some tag) => return .self (scope.enclosing.idxOf tag)
  | ref name =>
      match scope.handles.lookup name with
      | some (slot, tag) => return .handle tag slot
      | none => if scope.enclosing.isEmpty then throw (.unknownName name) else return .fail .empty
  | typed kind inner tag =>
      return (((← inner.build scope).mapTo kind (toKind kind)).labelled tag).map id
  | fail mismatch => return .fail mismatch
  | position => return .answer fun cursor => .ok (integerSymbol cursor)
  | counted counter inner => do
      let parser ← inner.build scope
      modify (· ++ [counter])
      return parser.counted counter
  | depthOf tag => return .inspect (depthSeen scope.shape tag)
  | snapshot => return .inspect fun policy _ => traceSeen scope.shape policy

def buildAll (scope : Scope) : List Node → Building (List (Parser ι Datum))
  | [] => return []
  | node :: rest => return (← node.build scope) :: (← buildAll scope rest)

end

end Node

end Packrat.Workbench
