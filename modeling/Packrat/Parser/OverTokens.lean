import Packrat.Parser.Basic

/-!
# Terminals over token sequences

Each terminal looks at the tokens from the cursor onward.  The symbols that stand for
tokens and the way in which tokens are shown in messages are the grammar's choice.
-/

namespace Packrat.Parser

variable {τ α : Type}

def oneToken (expectation : String) (select : τ → Option (Symbol α)) : Parser (Array τ) α :=
  terminal expectation fun tokens position =>
    .ok ((tokens[position]?.bind select).map fun symbol => (symbol, 1))

/-- One token that a function maps to a symbol, without a word on what is expected. -/
def select (choose : τ → Option (Symbol α)) : Parser (Array τ) α :=
  oneToken "a matching token" choose

def just [DecidableEq τ] (shown : τ → String) (symbol : τ → Symbol α) (wanted : τ) :
    Parser (Array τ) α :=
  oneToken (shown wanted) fun token => if token = wanted then some (symbol token) else none

def tokenRun [DecidableEq τ] (shown : τ → String) (symbol : τ → Symbol α) (wanted : List τ) :
    Parser (Array τ) α :=
  terminal ("[" ++ ", ".intercalate (wanted.map shown) ++ "]") fun tokens position =>
    .ok (if (tokens.extract position (position + wanted.length)).toList = wanted then
      some (.list (wanted.map symbol), wanted.length)
    else
      none)

end Packrat.Parser
