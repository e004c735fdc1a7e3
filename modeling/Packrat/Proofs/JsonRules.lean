import Packrat.Json.Document
import Packrat.Proofs.Derivation
import Packrat.Proofs.JsonSyntax

/-!
# The rules of the JSON grammar

The tagged parsers of the grammar are its rules, and each rule denotes what it matches.  Two
kinds of calls are considered: calls that are answered with what settled keys say, from which
follows what is accepted, and calls whose matches are explained by the syntax, from which
follows that nothing else is accepted.
-/

namespace Packrat.Json.Grammar

inductive Nonterminal where
  | whitespace
  | escape
  | property
  | object
  | array
  | number
  | string
  | boolean
  | null
  | value
  deriving DecidableEq

namespace Nonterminal

def tag : Nonterminal → Tag
  | whitespace => ⟨"whitespace"⟩
  | escape => ⟨"escape sequence"⟩
  | property => ⟨"property"⟩
  | object => ⟨"object"⟩
  | array => ⟨"array"⟩
  | number => ⟨"number"⟩
  | string => ⟨"string literal"⟩
  | boolean => ⟨"boolean literal"⟩
  | null => ⟨"null"⟩
  | value => ⟨"value"⟩

def parser : Nonterminal → Rule
  | whitespace => Grammar.whitespace
  | escape => Grammar.escape
  | property => Grammar.property
  | object => (members.map toObject).labelled ⟨"object"⟩
  | array => (items.map toArray).labelled ⟨"array"⟩
  | number => (Grammar.number.map toJson).labelled ⟨"number"⟩
  | string => ((token Grammar.string).map toJson).labelled ⟨"string literal"⟩
  | boolean => (Grammar.boolean.map toJson).labelled ⟨"boolean literal"⟩
  | null => ((token (.literal "null")).map fun _ => jsonSymbol .null).labelled ⟨"null"⟩
  | value => Grammar.value

def alternatives : List Nonterminal := [object, array, number, string, boolean, null]

/-- The rule with a tag; a tag without a rule counts as that of a value. -/
def ofTag (tag : Tag) : Nonterminal :=
  ((whitespace :: escape :: property :: alternatives).find? fun one => one.tag = tag).getD value

theorem ofTag_tag (one : Nonterminal) : ofTag one.tag = one := by
  cases one <;> decide

theorem tag_injective {one other : Nonterminal} (same : one.tag = other.tag) : one = other := by
  rw [← ofTag_tag one, same, ofTag_tag]

end Nonterminal

theorem valueRule_eq : valueRule =
    .oneOfTagged ⟨"value"⟩ (Nonterminal.alternatives.map Nonterminal.parser) := rfl

def rules (tag : Tag) : Rule := (Nonterminal.ofTag tag).parser

theorem rules_tag (one : Nonterminal) : rules one.tag = one.parser := by
  rw [rules, one.ofTag_tag]

theorem Nonterminal.tagged (one : Nonterminal) : one.parser.tag = some one.tag := by
  cases one <;> rfl

theorem Nonterminal.named (one : Nonterminal) : one.parser.core = rules one.tag := by
  rw [rules_tag]
  cases one <;> rfl

def reading (text : String) : Setting Text Part := ⟨.ofString text, arena⟩

/-- What calls are answered with in the body of a rule. -/
def inside (text : String) (outer : Nonterminal) (place : Nat) : Answering Text Part :=
  .named rules (unansweredAt ⟨place, outer.tag⟩ ((reading text).Settles rules))

variable {text : String} {outer one : Nonterminal} {place position stop : Nat} {symbol : Value}

theorem call_matches (one : Nonterminal) (different : one ≠ outer)
    (settles : (reading text).SettlesOk rules one.tag position symbol stop) :
    (reading text).Matches (inside text outer place) one.parser position symbol stop :=
  settles.matches_unasked _ one.tagged one.named fun same =>
    different (Nonterminal.tag_injective same)

theorem call_misses (one : Nonterminal) (different : one ≠ outer)
    (settles : (reading text).SettlesError rules one.tag position) :
    (reading text).Misses (inside text outer place) one.parser position :=
  settles.misses_unasked _ one.tagged one.named fun same =>
    different (Nonterminal.tag_injective same)

/-- A rule settles on what its body reads. -/
theorem settles_of_reads
    (reads : (reading text).Reads (inside text one position) one.parser position symbol stop) :
    (reading text).SettlesOk rules one.tag position symbol stop := by
  rw [← rules_tag] at reads
  exact .of_unasked reads

theorem settles_of_fails
    (fails : (reading text).Fails (inside text one position) one.parser position) :
    (reading text).SettlesError rules one.tag position := by
  rw [← rules_tag] at fails
  exact .of_unasked fails

def EscapeOf (chars : List Char) (symbol : Value) : Prop :=
  ∃ c, IsEscape chars c ∧ symbol = .text (String.ofList [c])

def ValueOf (chars : List Char) (symbol : Value) : Prop :=
  ∃ json, IsValue chars json ∧ symbol = jsonSymbol json

def MemberOf (chars : List Char) (symbol : Value) : Prop :=
  ∃ member : Member, IsValue member.chars member.value ∧ chars = member.spelled ∧
    symbol = .pair (.text member.key) (jsonSymbol member.value)

def Padded (denotes : List Char → Value → Prop) (chars : List Char) (symbol : Value) : Prop :=
  ∃ before rest, Blanks before ∧ denotes rest symbol ∧ chars = before ++ rest

/-- What the characters that a rule matches denote. -/
def Nonterminal.Denotes : Nonterminal → List Char → Value → Prop
  | whitespace => fun chars _ => Blanks chars
  | escape => EscapeOf
  | property => Padded MemberOf
  | _ => Padded ValueOf

/-- A match from a position covers characters that denote its symbol. -/
def Explains (text : String) (denotes : List Char → Value → Prop) (position : Nat)
    (matched : Match Value) : Prop :=
  ∃ chars, (Text.ofString text).Between position chars matched.span.stop ∧
    denotes chars matched.symbol

def explained (text : String) (key : Key) : Outcome Value → Prop
  | .error _ => True
  | .ok matched => ∀ {rest}, (Text.ofString text).Onward key.position rest →
      Explains text (Nonterminal.ofTag key.tag).Denotes key.position matched

def explaining (text : String) : Answering Text Part := .named rules (explained text)

variable {rest : List Char} {matched : Match Value}

theorem call_answers (one : Nonterminal)
    (here : (Text.ofString text).Onward position rest)
    (answers : (reading text).Answers (explaining text) one.parser position (.ok matched)) :
    Explains text one.Denotes position matched := by
  have tagged : one.parser.tag ≠ none := by
    rw [one.tagged]
    exact nofun
  obtain ⟨tag, found, -, given⟩ := (Setting.answers_tagged_iff tagged).mp answers
  cases one.tagged.symm.trans found
  have explains := given here
  rwa [one.ofTag_tag] at explains

def Solid (chars : List Char) : Prop := ∀ c, chars.head? = some c → c ∉ [' ', '\t', '\n', '\r']

theorem solid_cons {c : Char} (solid : c ∉ [' ', '\t', '\n', '\r']) : Solid (c :: rest) := by
  intro d first
  cases first
  exact solid

theorem blank_iff (c : Char) :
    (CharSet.ofString " \t\n\r").contains c = true ↔ c ∈ [' ', '\t', '\n', '\r'] := by
  rw [CharSet.contains_ofString]
  exact Iff.rfl

variable {blanks : List Char} {inner : Rule}

/-- Blanks are read up to the next token. -/
theorem whitespace_settles (blank : Blanks blanks) (solid : Solid rest)
    (here : (Text.ofString text).Onward position (blanks ++ rest)) :
    (reading text).SettlesOk rules Nonterminal.whitespace.tag position
      (.text (String.ofList blanks)) (position + byteLength blanks) := by
  refine settles_of_reads (.labelled (charsIn_matches here (fun c member =>
    (blank_iff c).mpr (blank c member)) (fun c first => ?_) (Nat.zero_le _)))
  rw [Bool.eq_false_iff]
  exact fun contains => solid c first ((blank_iff c).mp contains)

theorem token_matches (different : .whitespace ≠ outer) (blank : Blanks blanks)
    (solid : Solid rest) (here : (Text.ofString text).Onward position (blanks ++ rest))
    (reads : (reading text).Matches (inside text outer place) inner (position + byteLength blanks)
      symbol stop) :
    (reading text).Matches (inside text outer place) (token inner) position symbol stop :=
  .both (call_matches .whitespace different (whitespace_settles blank solid here)) reads

theorem token_misses (different : .whitespace ≠ outer) (blank : Blanks blanks)
    (solid : Solid rest) (here : (Text.ofString text).Onward position (blanks ++ rest))
    (misses :
      (reading text).Misses (inside text outer place) inner (position + byteLength blanks)) :
    (reading text).Misses (inside text outer place) (token inner) position :=
  .both_second (call_matches .whitespace different (whitespace_settles blank solid here)) misses

theorem token_answers (here : (Text.ofString text).Onward position rest)
    (answers : (reading text).Answers (explaining text) (token inner) position (.ok matched)) :
    ∃ blanks middle one more, Blanks blanks ∧
      (Text.ofString text).Between position blanks middle ∧
      (Text.ofString text).Onward middle more ∧
      (reading text).Answers (explaining text) inner middle (.ok one) ∧
      matched.symbol = one.symbol ∧ matched.span.stop = one.span.stop := by
  obtain ⟨front, one, first, second, same, stops⟩ := answers.of_both
  obtain ⟨blanks, between, blank⟩ := call_answers .whitespace here first
  obtain ⟨more, -, there⟩ := between.onward
  exact ⟨blanks, front.span.stop, one, more, blank, between, there, second, same, stops⟩

theorem sign_matches (wanted : String) (different : .whitespace ≠ outer) (blank : Blanks blanks)
    (solid : Solid (wanted.toList ++ rest))
    (here : (Text.ofString text).Onward position (blanks ++ (wanted.toList ++ rest))) :
    (reading text).Matches (inside text outer place) (token (.literal wanted)) position
      (.text wanted) (position + byteLength (blanks ++ wanted.toList)) := by
  rw [byteLength_append, ← Nat.add_assoc]
  exact token_matches different blank solid here (literal_matches wanted here.append)

theorem sign_misses (wanted : String) {c : Char} {more : List Char}
    (starts : wanted.toList = c :: more) (different : .whitespace ≠ outer)
    (blank : Blanks blanks) (solid : Solid rest) (other : rest.head? ≠ some c)
    (here : (Text.ofString text).Onward position (blanks ++ rest)) :
    (reading text).Misses (inside text outer place) (token (.literal wanted)) position := by
  refine token_misses different blank solid here (literal_misses here.append ?_)
  rw [starts]
  rintro ⟨after, rfl⟩
  exact other rfl

theorem sign_answers (wanted : String) (here : (Text.ofString text).Onward position rest)
    (answers : (reading text).Answers (explaining text) (token (.literal wanted)) position
      (.ok matched)) :
    ∃ blanks, Blanks blanks ∧
      (Text.ofString text).Between position (blanks ++ wanted.toList) matched.span.stop := by
  obtain ⟨blanks, middle, one, more, blank, between, there, answers, -, stops⟩ :=
    token_answers here answers
  obtain ⟨covers, -⟩ := literal_answers there answers
  rw [← stops] at covers
  exact ⟨blanks, blank, between.append covers⟩

end Packrat.Json.Grammar
