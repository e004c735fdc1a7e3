/-!
# Symbols

A symbol is what a parser yields.  Parsers of every shape run through one engine, so
their symbols share one type; `atom` carries the values that a particular grammar
computes.  The kind of a symbol names the type that its parser promises.
-/

namespace Packrat

structure Captures where
  text : String
  groups : List (Option String)
  deriving DecidableEq, Repr

namespace Captures

def group (captures : Captures) (index : Nat) : Option String :=
  match index with
  | 0 => none
  | index + 1 => (captures.groups[index]?).join

end Captures

inductive Symbol (α : Type) where
  | unit
  | character (c : Char)
  | text (text : String)
  | atom (value : α)
  | absent
  | present (content : Symbol α)
  | list (items : List (Symbol α))
  | pair (first second : Symbol α)
  | captures (captures : Captures)

namespace Symbol

variable {α : Type}

mutual

/-- The text of a symbol: that of its leaves in order, where atoms have the text they are given. -/
def plainText (atomText : α → String) : Symbol α → String
  | unit => ""
  | character c => c.toString
  | text content => content
  | atom value => atomText value
  | absent => ""
  | present content => plainText atomText content
  | list items => plainTexts atomText items
  | pair first second => plainText atomText first ++ plainText atomText second
  | captures found => found.text

def plainTexts (atomText : α → String) : List (Symbol α) → String
  | [] => ""
  | item :: rest => plainText atomText item ++ plainTexts atomText rest

end

end Symbol

/-- The type that a parser promises for its symbol. -/
inductive Kind where
  | general
  | count
  | text
  | unit
  deriving DecidableEq, Repr

/-- A symbol labelled with its kind, as it is kept outside the parser that made it. -/
structure Sealed (α : Type) where
  kind : Kind
  symbol : Symbol α

end Packrat
