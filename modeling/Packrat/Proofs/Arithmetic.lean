import Packrat.Calculator.Token

/-!
# Arithmetic expressions

The trees of arithmetic expressions, with operators that associate to the left: sums of
products of terms.  A tree is spelled by tokens, and it has a value if every intermediate
result fits into a number of bits and every division has a quotient.
-/

namespace Packrat.Calculator

mutual

inductive SumTree where
  | product (only : ProductTree)
  | plus (left : SumTree) (right : ProductTree)
  | minus (left : SumTree) (right : ProductTree)

inductive ProductTree where
  | term (only : TermTree)
  | times (left : ProductTree) (right : TermTree)
  | dividedBy (left : ProductTree) (right : TermTree)

inductive TermTree where
  | number (n : Int)
  | parens (inner : SumTree)

end

mutual

def SumTree.tokens : SumTree → List Token
  | .product only => only.tokens
  | .plus left right => left.tokens ++ .plus :: right.tokens
  | .minus left right => left.tokens ++ .minus :: right.tokens

def ProductTree.tokens : ProductTree → List Token
  | .term only => only.tokens
  | .times left right => left.tokens ++ .times :: right.tokens
  | .dividedBy left right => left.tokens ++ .dividedBy :: right.tokens

def TermTree.tokens : TermTree → List Token
  | .number n => [.number n]
  | .parens inner => .opening :: inner.tokens ++ [.closing]

end

theorem TermTree.tokens_ne_nil (tree : TermTree) : tree.tokens ≠ [] := by
  cases tree <;> exact List.cons_ne_nil _ _

theorem ProductTree.tokens_ne_nil (tree : ProductTree) : tree.tokens ≠ [] := by
  cases tree with
  | term only => exact only.tokens_ne_nil
  | _ => exact List.append_ne_nil_of_right_ne_nil _ (List.cons_ne_nil _ _)

theorem SumTree.tokens_ne_nil (tree : SumTree) : tree.tokens ≠ [] := by
  cases tree with
  | product only => exact only.tokens_ne_nil
  | _ => exact List.append_ne_nil_of_right_ne_nil _ (List.cons_ne_nil _ _)

def fitting? (bits : Nat) (n : Int) : Option Int := if Signed.fits bits n then some n else none

theorem operation_eq_some_iff {one other : Option Int} {combine : Int → Int → Option Int}
    {value : Int} : (do combine (← one) (← other)) = some value ↔
      ∃ left, one = some left ∧ ∃ right, other = some right ∧ combine left right = some value := by
  simp only [Option.bind_eq_bind, Option.bind_eq_some_iff]

mutual

def SumTree.value? (bits : Nat) : SumTree → Option Int
  | .product only => only.value? bits
  | .plus left right => do fitting? bits ((← left.value? bits) + (← right.value? bits))
  | .minus left right => do fitting? bits ((← left.value? bits) - (← right.value? bits))

def ProductTree.value? (bits : Nat) : ProductTree → Option Int
  | .term only => only.value? bits
  | .times left right => do fitting? bits ((← left.value? bits) * (← right.value? bits))
  | .dividedBy left right => do Signed.divide? bits (← left.value? bits) (← right.value? bits)

def TermTree.value? (bits : Nat) : TermTree → Option Int
  | .number n => some n
  | .parens inner => inner.value? bits

end

mutual

/-- Nothing is added or subtracted in the sum. -/
def SumTree.Multiplicative : SumTree → Prop
  | .product only => only.Multiplicative
  | .plus _ _ => False
  | .minus _ _ => False

def ProductTree.Multiplicative : ProductTree → Prop
  | .term only => only.Multiplicative
  | .times left right => left.Multiplicative ∧ right.Multiplicative
  | .dividedBy left right => left.Multiplicative ∧ right.Multiplicative

def TermTree.Multiplicative : TermTree → Prop
  | .number _ => True
  | .parens inner => inner.Multiplicative

end

/-- Nothing is added or subtracted in the parentheses of the sum. -/
def SumTree.Flat : SumTree → Prop
  | .product only => only.Multiplicative
  | .plus left right => left.Flat ∧ right.Multiplicative
  | .minus left right => left.Flat ∧ right.Multiplicative

theorem SumTree.Multiplicative.flat {tree : SumTree} (multiplicative : tree.Multiplicative) :
    tree.Flat := by
  cases tree with
  | product only => exact multiplicative
  | plus left right => exact multiplicative.elim
  | minus left right => exact multiplicative.elim

def SumTree.first : SumTree → ProductTree
  | .product only => only
  | .plus left _ => left.first
  | .minus left _ => left.first

def SumTree.more : SumTree → List Token
  | .product _ => []
  | .plus left right => left.more ++ .plus :: right.tokens
  | .minus left right => left.more ++ .minus :: right.tokens

theorem SumTree.tokens_eq (tree : SumTree) : tree.tokens = tree.first.tokens ++ tree.more := by
  induction tree using SumTree.first.induct with
  | case1 only => rw [tokens, first, more, List.append_nil]
  | case2 left right ih => rw [tokens, first, more, ih, List.append_assoc]
  | case3 left right ih => rw [tokens, first, more, ih, List.append_assoc]

/-- What follows the first product of a sum starts with a sign of the sum. -/
theorem SumTree.more_head (tree : SumTree) : tree.more = [] ∨
    tree.more.head? = some .plus ∨ tree.more.head? = some .minus := by
  induction tree using SumTree.first.induct with
  | case1 only => exact .inl rfl
  | case2 left right ih =>
      rw [more]
      rcases ih with none | some
      · rw [none]
        exact .inr (.inl rfl)
      · rw [List.head?_append]
        rcases some with some | some <;> simp [some]
  | case3 left right ih =>
      rw [more]
      rcases ih with none | some
      · rw [none]
        exact .inr (.inr rfl)
      · rw [List.head?_append]
        rcases some with some | some <;> simp [some]

/-- A token that is no sign of a sum follows the first product only if it follows the sum. -/
theorem SumTree.more_head_ne (tree : SumTree) {token : Token} {rest : List Token}
    (noPlus : token ≠ .plus) (noMinus : token ≠ .minus) (other : rest.head? ≠ some token) :
    (tree.more ++ rest).head? ≠ some token := by
  rcases tree.more_head with nothing | sign | sign
  · rwa [nothing, List.nil_append]
  · rw [List.head?_append, sign]
    exact fun same => noPlus (Option.some.inj same).symm
  · rw [List.head?_append, sign]
    exact fun same => noMinus (Option.some.inj same).symm

/-- Before a sign of a sum, what follows the first product of a sum starts with such a sign. -/
theorem SumTree.exists_more (tree : SumTree) {sign : Token} (rest : List Token)
    (signs : sign = .plus ∨ sign = .minus) :
    ∃ token tokens, tree.more ++ sign :: rest = token :: tokens ∧
      (token = .plus ∨ token = .minus) := by
  cases more : tree.more with
  | nil => exact ⟨sign, rest, rfl, signs⟩
  | cons token tokens =>
      refine ⟨token, tokens ++ sign :: rest, rfl, ?_⟩
      simpa [more] using tree.more_head

/-- The first product of a flat sum with a value has a value itself. -/
theorem SumTree.Flat.first {bits : Nat} {tree : SumTree} (flat : tree.Flat) {value : Int}
    (valued : tree.value? bits = some value) :
    tree.first.Multiplicative ∧ ∃ one, tree.first.value? bits = some one := by
  induction tree using SumTree.first.induct generalizing value with
  | case1 only => exact ⟨flat, value, valued⟩
  | case2 left right ih =>
      obtain ⟨one, leftValued, -⟩ := operation_eq_some_iff.mp valued
      exact ih flat.1 leftValued
  | case3 left right ih =>
      obtain ⟨one, leftValued, -⟩ := operation_eq_some_iff.mp valued
      exact ih flat.1 leftValued

/-- The tokens spell a sum with the value. -/
def SumTree.Denotes (bits : Nat) (spelled : List Token) (value : Int) : Prop :=
  ∃ tree : SumTree, tree.tokens = spelled ∧ tree.value? bits = some value

def ProductTree.Denotes (bits : Nat) (spelled : List Token) (value : Int) : Prop :=
  ∃ tree : ProductTree, tree.tokens = spelled ∧ tree.value? bits = some value

def TermTree.Denotes (bits : Nat) (spelled : List Token) (value : Int) : Prop :=
  ∃ tree : TermTree, tree.tokens = spelled ∧ tree.value? bits = some value

section Denotes

variable {bits : Nat} {left right spelled : List Token} {one two value : Int}

theorem SumTree.Denotes.plus (first : SumTree.Denotes bits left one)
    (second : ProductTree.Denotes bits right two) (fits : fitting? bits (one + two) = some value) :
    SumTree.Denotes bits (left ++ .plus :: right) value := by
  obtain ⟨tree, rfl, valued⟩ := first
  obtain ⟨treeToo, rfl, valuedToo⟩ := second
  exact ⟨.plus tree treeToo, rfl, operation_eq_some_iff.mpr ⟨one, valued, two, valuedToo, fits⟩⟩

theorem SumTree.Denotes.minus (first : SumTree.Denotes bits left one)
    (second : ProductTree.Denotes bits right two) (fits : fitting? bits (one - two) = some value) :
    SumTree.Denotes bits (left ++ .minus :: right) value := by
  obtain ⟨tree, rfl, valued⟩ := first
  obtain ⟨treeToo, rfl, valuedToo⟩ := second
  exact ⟨.minus tree treeToo, rfl, operation_eq_some_iff.mpr ⟨one, valued, two, valuedToo, fits⟩⟩

theorem SumTree.Denotes.product (only : ProductTree.Denotes bits spelled value) :
    SumTree.Denotes bits spelled value := by
  obtain ⟨tree, rfl, valued⟩ := only
  exact ⟨.product tree, rfl, valued⟩

theorem ProductTree.Denotes.times (first : ProductTree.Denotes bits left one)
    (second : TermTree.Denotes bits right two) (fits : fitting? bits (one * two) = some value) :
    ProductTree.Denotes bits (left ++ .times :: right) value := by
  obtain ⟨tree, rfl, valued⟩ := first
  obtain ⟨treeToo, rfl, valuedToo⟩ := second
  exact ⟨.times tree treeToo, rfl, operation_eq_some_iff.mpr ⟨one, valued, two, valuedToo, fits⟩⟩

theorem ProductTree.Denotes.dividedBy (first : ProductTree.Denotes bits left one)
    (second : TermTree.Denotes bits right two)
    (divides : Signed.divide? bits one two = some value) :
    ProductTree.Denotes bits (left ++ .dividedBy :: right) value := by
  obtain ⟨tree, rfl, valued⟩ := first
  obtain ⟨treeToo, rfl, valuedToo⟩ := second
  exact ⟨.dividedBy tree treeToo, rfl,
    operation_eq_some_iff.mpr ⟨one, valued, two, valuedToo, divides⟩⟩

theorem ProductTree.Denotes.term (only : TermTree.Denotes bits spelled value) :
    ProductTree.Denotes bits spelled value := by
  obtain ⟨tree, rfl, valued⟩ := only
  exact ⟨.term tree, rfl, valued⟩

theorem TermTree.Denotes.parens (inner : SumTree.Denotes bits spelled value) :
    TermTree.Denotes bits (.opening :: spelled ++ [.closing]) value := by
  obtain ⟨tree, rfl, valued⟩ := inner
  exact ⟨.parens tree, rfl, valued⟩

theorem TermTree.Denotes.number (n : Int) : TermTree.Denotes bits [.number n] n :=
  ⟨.number n, rfl, rfl⟩

end Denotes

end Packrat.Calculator
