import Packrat.Json.Printer
import Packrat.Proofs.DoubleNotation
import Packrat.Proofs.JsonDocuments

/-!
# Written values parse back

Both forms in which a value is written are JSON texts that denote the value: an escaped text is
the content of a string, a finite double is written as its number literal, and the lines of the
pretty form are blanks in front of tokens.  As the grammar accepts exactly the JSON texts, parsing
takes back what writing did.  The members of an object are in order, and so are those of every
value that is parsed.
-/

namespace Packrat.Json

open Grammar

def controlDigits (point : Nat) : List Char :=
  List.replicate (4 - (Nat.toDigits 16 point).length) '0' ++ Nat.toDigits 16 point

theorem controlDigits_spec {point : Nat} (control : point < 0x20) :
    FourDigits (controlDigits point) ∧ codeUnit (controlDigits point) = point := by
  have digits : ∀ point < 0x20, (controlDigits point).length = 4 ∧
      (controlDigits point).all isHexDigit = true ∧ codeUnit (controlDigits point) = point := by
    decide
  obtain ⟨four, all, denotes⟩ := digits point control
  exact ⟨⟨four, List.all_eq_true.mp all⟩, denotes⟩

theorem escapeCharacter_content (c : Char) {content text : List Char}
    (isContent : IsContent content text) :
    IsContent (escapeCharacter c ++ content) (c :: text) := by
  unfold escapeCharacter
  split
  case h_8 quote backslash _ _ _ _ _ =>
    split
    · next control =>
        obtain ⟨four, denotes⟩ := controlDigits_spec control
        have escaped := IsEscape.point four (by rw [denotes]; exact c.valid)
        rw [denotes, Char.ofNat_toNat] at escaped
        exact .escape escaped isContent
    · next printed => exact .unescaped ⟨Nat.not_lt.mp printed, quote, backslash⟩ isContent
  all_goals exact .escape (.short (by decide)) isContent

theorem flatMap_escapeCharacter_content (text : List Char) :
    IsContent (text.flatMap escapeCharacter) text := by
  induction text with
  | nil => exact .nil
  | cons c text ih => exact escapeCharacter_content c ih

theorem stringLiteral_isString (text : String) : IsString (stringLiteral text).toList text := by
  have isString := IsString.quoted (flatMap_escapeCharacter_content text.toList)
  rw [String.ofList_toList] at isString
  simpa [stringLiteral, String.toList_append] using isString

theorem numberLiteral_isValue {number : Double} (finite : number.isFinite = true) :
    IsValue (numberLiteral number).toList (.number number) := by
  obtain ⟨isNumber, read⟩ := Double.text_reads_back finite
  have same := isNumber.ofLiteral?
  rw [String.ofList_toList, read] at same
  have isValue := IsValue.number isNumber
  rw [← Option.some.inj same] at isValue
  rwa [numberLiteral, if_pos finite]

theorem boolLiteral_isValue (truth : Bool) : IsValue (boolLiteral truth).toList (.bool truth) := by
  cases truth with
  | true => exact .yes
  | false => exact .no

/-! ## Ordered members -/

/-- The members of all objects in a value are ordered by their keys. -/
inductive Ordered : Json → Prop where
  | object {members : List (String × Json)} :
      (members.Pairwise fun one other => one.1 < other.1) →
      (∀ member ∈ members, Ordered member.2) → Ordered (.object members)
  | array {items : List Json} : (∀ item ∈ items, Ordered item) → Ordered (.array items)
  | number (value : Double) : Ordered (.number value)
  | string (text : String) : Ordered (.string text)
  | bool (value : Bool) : Ordered (.bool value)
  | null : Ordered .null

section Members

variable {β : Type} {held members : List (String × β)}

theorem putMember_last {key : String} {value : β} (below : ∀ one ∈ held, one.1 < key) :
    putMember key value held = held ++ [(key, value)] := by
  induction held with
  | nil => rfl
  | cons first held ih =>
      have less := below first List.mem_cons_self
      rw [putMember, if_neg fun more => String.lt_irrefl _ (String.lt_trans more less),
        if_neg fun same => String.lt_irrefl _ (same ▸ less),
        ih fun one member => below one (List.mem_cons_of_mem _ member), List.cons_append]

/-- Members in order stay as they are when they are put in order. -/
theorem orderMembers_of_ordered
    (ordered : members.Pairwise fun one other => one.1 < other.1) :
    orderMembers members = members := by
  have folds (held rest : List (String × β))
      (ordered : (held ++ rest).Pairwise fun one other => one.1 < other.1) :
      rest.foldl (fun ordered member => putMember member.1 member.2 ordered) held =
        held ++ rest := by
    induction rest generalizing held with
    | nil => exact (List.append_nil held).symm
    | cons member rest ih =>
        have below : ∀ one ∈ held, one.1 < member.1 := fun one inHeld =>
          (List.pairwise_append.mp ordered).2.2 one inHeld member List.mem_cons_self
        rw [List.foldl_cons, putMember_last below, ih, List.append_assoc, List.singleton_append]
        rwa [List.append_assoc]
  exact folds [] members ordered

theorem lastWins_of_ordered (ordered : members.Pairwise fun one other => one.1 < other.1) :
    LastWins members members :=
  lastWins_iff.mpr (orderMembers_of_ordered ordered).symm

theorem lookup_of_mem (ordered : members.Pairwise fun one other => one.1 < other.1)
    {member : String × β} (inside : member ∈ members) :
    members.lookup member.1 = some member.2 := by
  obtain ⟨front, back, rfl⟩ := List.append_of_mem inside
  refine List.lookup_eq_some_iff.mpr ⟨front, back, rfl, fun one inFront => ?_⟩
  have less := (List.pairwise_append.mp ordered).2.2 one inFront member List.mem_cons_self
  exact bne_iff_ne.mpr fun same => String.lt_irrefl _ (same ▸ less)

theorem LastWins.mem (wins : LastWins members held) {member : String × β}
    (inside : member ∈ held) : member ∈ members := by
  have finds := lookup_of_mem wins.ordered inside
  rw [wins.last] at finds
  obtain ⟨front, back, same, -⟩ := List.lookup_eq_some_iff.mp finds
  rw [← List.mem_reverse, same]
  exact List.mem_append_right _ List.mem_cons_self

end Members

/-- Whatever characters denote is in order. -/
theorem IsValue.ordered {chars : List Char} {json : Json} (isValue : IsValue chars json) :
    Ordered json := by
  induction isValue with
  | null => exact .null
  | yes => exact .bool true
  | no => exact .bool false
  | number isNumber => exact .number isNumber.double
  | @string _ text _ => exact .string text
  | array items _ _ _ ih =>
      refine .array fun json inside => ?_
      obtain ⟨item, inItems, rfl⟩ := List.mem_map.mp inside
      exact ih item inItems
  | object members _ _ _ wins ih =>
      refine .object wins.ordered fun entry inside => ?_
      obtain ⟨member, inMembers, rfl⟩ := List.mem_map.mp (wins.mem inside)
      exact ih member inMembers

theorem IsDocument.ordered {chars : List Char} {json : Json} (isDocument : IsDocument chars json) :
    Ordered json := by
  cases isDocument with
  | value _ isValue _ => exact isValue.ordered

/-- A way to write lists: blanks before every one of the listed and commas in between. -/
structure Separates {γ : Type} (print : List γ → String) (blanks : List Char)
    (spell : γ → List Char) : Prop where
  nil : print [] = ""
  single : ∀ one, (print [one]).toList = blanks ++ spell one
  more : ∀ one other rest, (print (one :: other :: rest)).toList =
    blanks ++ (spell one ++ ',' :: (print (other :: rest)).toList)

theorem Separates.listed {γ : Type} {print : List γ → String} {blanks : List Char}
    {spell : γ → List Char} (separates : Separates print blanks spell) (blank : Blanks blanks)
    (ones : List γ) : Listed (ones.map spell) (print ones).toList := by
  have follows (first : γ) (rest : List γ) : ∃ chars, Commas (rest.map spell) chars ∧
      (print (first :: rest)).toList = blanks ++ (spell first ++ chars) := by
    induction rest generalizing first with
    | nil => exact ⟨[], .nil, by rw [separates.single, List.append_nil]⟩
    | cons second rest ih =>
        obtain ⟨chars, commas, printed⟩ := ih second
        refine ⟨_, .cons noBlanks blank commas, ?_⟩
        rw [separates.more, printed, List.nil_append]
  cases ones with
  | nil =>
      rw [separates.nil]
      exact .nil
  | cons first rest =>
      obtain ⟨chars, commas, printed⟩ := follows first rest
      rw [printed]
      exact .cons blank commas

def writtenMember (write : Json → List Char) {blanks : List Char} (blank : Blanks blanks)
    (entry : String × Json) : Member where
  literal := (stringLiteral entry.1).toList
  key := entry.1
  before := []
  after := blanks
  chars := write entry.2
  value := entry.2
  named := stringLiteral_isString entry.1
  blanksBefore := noBlanks
  blanksAfter := blank

section Written

variable {write : Json → List Char} {chars blanks : List Char}

theorem array_isValue {items : List Json} (values : ∀ item ∈ items, IsValue (write item) item)
    (listed : Listed (items.map write) chars) (blank : Blanks blanks) :
    IsValue ('[' :: (chars ++ (blanks ++ [']']))) (.array items) := by
  have isValue : IsValue ('[' :: (chars ++ (blanks ++ [']'])))
      (.array ((items.map fun item => (write item, item)).map Prod.snd)) := by
    refine .array _ (fun pair member => ?_) (by rwa [List.map_map]) blank
    obtain ⟨item, inItems, rfl⟩ := List.mem_map.mp member
    exact values item inItems
  rwa [List.map_map, show Prod.snd ∘ (fun item => (write item, item)) = id from rfl,
    List.map_id] at isValue

theorem object_isValue {members : List (String × Json)} {behind : List Char}
    (blankBehind : Blanks behind)
    (ordered : members.Pairwise fun one other => one.1 < other.1)
    (values : ∀ member ∈ members, IsValue (write member.2) member.2)
    (listed : Listed (members.map fun entry => (writtenMember write blankBehind entry).spelled)
      chars)
    (blank : Blanks blanks) :
    IsValue ('\x7b' :: (chars ++ (blanks ++ ['\x7d']))) (.object members) := by
  refine .object (members.map (writtenMember write blankBehind)) (fun one member => ?_)
    (by rwa [List.map_map]) blank ?_
  · obtain ⟨entry, inMembers, rfl⟩ := List.mem_map.mp member
    exact values entry inMembers
  · rw [List.map_map, show Member.entry ∘ writtenMember write blankBehind = id from rfl,
      List.map_id]
    exact lastWins_of_ordered ordered

end Written

theorem mem_numbersOfItems {number : Double} {items : List Json} :
    number ∈ numbersOfItems items ↔ ∃ item ∈ items, number ∈ item.numbers := by
  induction items with
  | nil => simp only [numbersOfItems, List.not_mem_nil, false_and, exists_false]
  | cons item items ih =>
      simp only [numbersOfItems, List.mem_append, ih, List.mem_cons, exists_eq_or_imp]

theorem mem_numbersOfMembers {number : Double} {members : List (String × Json)} :
    number ∈ numbersOfMembers members ↔ ∃ member ∈ members, number ∈ member.2.numbers := by
  induction members with
  | nil => simp only [numbersOfMembers, List.not_mem_nil, false_and, exists_false]
  | cons member members ih =>
      simp only [numbersOfMembers, List.mem_append, ih, List.mem_cons, exists_eq_or_imp]

/-- Induction on an ordered value all of whose numbers are finite. -/
theorem Ordered.induction (holds : Json → Prop)
    (object : ∀ members, (members.Pairwise fun one other => one.1 < other.1) →
      (∀ member ∈ members, holds member.2) → holds (.object members))
    (array : ∀ items, (∀ item ∈ items, holds item) → holds (.array items))
    (number : ∀ value, value.isFinite = true → holds (.number value))
    (string : ∀ text, holds (.string text)) (bool : ∀ truth, holds (.bool truth))
    (null : holds .null) {json : Json} (ordered : Ordered json)
    (finite : ∀ number ∈ json.numbers, number.isFinite = true) : holds json := by
  induction ordered with
  | @object members ordered _ ih =>
      refine object members ordered fun member inside => ih member inside fun number found => ?_
      rw [numbers] at finite
      exact finite number (mem_numbersOfMembers.mpr ⟨member, inside, found⟩)
  | @array items _ ih =>
      refine array items fun item inside => ih item inside fun number found => ?_
      rw [numbers] at finite
      exact finite number (mem_numbersOfItems.mpr ⟨item, inside, found⟩)
  | number value =>
      refine number value (finite value ?_)
      rw [numbers]
      exact List.mem_cons_self
  | string text => exact string text
  | bool truth => exact bool truth
  | null => exact null

def compactChars (json : Json) : List Char := json.compact.toList

theorem compactItems_separates : Separates compactItems [] compactChars where
  nil := by rw [compactItems]
  single item := by rw [compactItems, compactChars, List.nil_append]
  more item next rest := by
    rw [compactItems, compactChars, String.toList_append, String.toList_append, List.append_assoc]
    · rfl
    · exact List.cons_ne_nil _ _

theorem compactMembers_separates : Separates compactMembers []
    fun entry => (writtenMember compactChars noBlanks entry).spelled where
  nil := by rw [compactMembers]
  single entry := by
    simp [compactMembers, Member.spelled, writtenMember, compactChars, String.toList_append]
  more entry next rest := by
    simp [compactMembers, Member.spelled, writtenMember, compactChars, String.toList_append]

theorem compact_isValue {json : Json} (ordered : Ordered json)
    (finite : ∀ number ∈ json.numbers, number.isFinite = true) :
    IsValue (compactChars json) json := by
  refine Ordered.induction (fun json => IsValue (compactChars json) json)
    ?object ?array ?number ?string ?bool ?null ordered finite
  case object =>
    intro members ordered values
    have isValue := object_isValue noBlanks ordered values
      (compactMembers_separates.listed noBlanks members) noBlanks
    rw [compactChars, compact, String.toList_append, String.toList_append, List.append_assoc]
    exact isValue
  case array =>
    intro items values
    have isValue := array_isValue values (compactItems_separates.listed noBlanks items) noBlanks
    rw [compactChars, compact, String.toList_append, String.toList_append, List.append_assoc]
    exact isValue
  case number =>
    intro value finite
    rw [compactChars, compact]
    exact numberLiteral_isValue finite
  case string =>
    intro text
    rw [compactChars, compact]
    exact .string (stringLiteral_isString text)
  case bool =>
    intro truth
    rw [compactChars, compact]
    exact boolLiteral_isValue truth
  case null =>
    rw [compactChars, compact]
    exact .null

theorem newLine_blanks (level : Nat) : Blanks (newLine level).toList := by
  have extended (count : Nat) : Blanks (count.repeat (·.push ' ') "\n").toList := by
    induction count with
    | zero => exact forall_mem_of_all (by decide)
    | succ count ih =>
        intro c member
        rw [Nat.repeat, String.toList_push] at member
        rcases List.mem_append.mp member with member | member
        · exact ih c member
        · rw [List.mem_singleton.mp member]
          exact List.mem_cons_self
  rw [newLine, String.pushn_eq_repeat_push]
  exact extended (2 * level)

theorem space_blanks : Blanks [' '] := forall_mem_of_all (by decide)

def prettyChars (level : Nat) (json : Json) : List Char :=
  (String.join (prettyPieces level json)).toList

theorem prettyItems_separates (level : Nat) :
    Separates (fun items => String.join (prettyItems level items)) (newLine level).toList
      (prettyChars level) where
  nil := by rw [prettyItems, String.join_nil]
  single item := by
    rw [prettyItems, String.join_cons, String.toList_append]
    rfl
  more item next rest := by
    simp [prettyItems, prettyChars, String.join_append, String.join_cons, String.toList_append]

theorem prettyMembers_separates (level : Nat) :
    Separates (fun members => String.join (prettyMembers level members)) (newLine level).toList
      fun entry => (writtenMember (prettyChars level) space_blanks entry).spelled where
  nil := by rw [prettyMembers, String.join_nil]
  single entry := by
    simp [prettyMembers, Member.spelled, writtenMember, prettyChars, String.toList_append]
  more entry next rest := by
    simp [prettyMembers, Member.spelled, writtenMember, prettyChars, String.toList_append]

/-- The pretty form of a value denotes it at every level of indentation. -/
theorem pretty_isValue {json : Json} (ordered : Ordered json)
    (finite : ∀ number ∈ json.numbers, number.isFinite = true) :
    ∀ level, IsValue (prettyChars level json) json := by
  refine Ordered.induction (fun json => ∀ level, IsValue (prettyChars level json) json)
    ?object ?array ?number ?string ?bool ?null ordered finite
  case object =>
    intro members ordered values level
    cases members with
    | nil =>
        rw [prettyChars, prettyPieces, String.toList_join]
        exact object_isValue space_blanks ordered (fun one inside => values one inside level) .nil
          noBlanks
    | cons member rest =>
        have isValue := object_isValue space_blanks ordered
          (fun one inside => values one inside (level + 1))
          ((prettyMembers_separates (level + 1)).listed (newLine_blanks (level + 1)) _)
          (newLine_blanks level)
        rw [prettyChars, prettyPieces]
        simpa [String.toList_append, String.join_append] using isValue
  case array =>
    intro items values level
    cases items with
    | nil =>
        rw [prettyChars, prettyPieces, String.toList_join]
        exact array_isValue (fun one inside => values one inside level) .nil noBlanks
    | cons item rest =>
        have isValue := array_isValue (fun one inside => values one inside (level + 1))
          ((prettyItems_separates (level + 1)).listed (newLine_blanks (level + 1)) _)
          (newLine_blanks level)
        rw [prettyChars, prettyPieces]
        simpa [String.toList_append, String.join_append] using isValue
  case number =>
    intro value finite level
    rw [prettyChars, prettyPieces, String.join_cons, String.join_nil, String.append_empty]
    exact numberLiteral_isValue finite
  case string =>
    intro text level
    rw [prettyChars, prettyPieces, String.join_cons, String.join_nil, String.append_empty]
    exact .string (stringLiteral_isString text)
  case bool =>
    intro truth level
    rw [prettyChars, prettyPieces, String.join_cons, String.join_nil, String.append_empty]
    exact boolLiteral_isValue truth
  case null =>
    intro level
    rw [prettyChars, prettyPieces, String.join_cons, String.join_nil, String.append_empty]
    exact .null

/--
A value whose members are in order and whose numbers are finite is parsed back from its compact
and from its pretty form.  All values that are parsed have their members in order.
-/
theorem parse_written :
    (∀ json, Ordered json → (∀ number ∈ json.numbers, number.isFinite = true) →
      (∃ steps final, parse steps json.compact = .done (.ok json) final) ∧
        ∃ steps final, parse steps json.pretty = .done (.ok json) final) ∧
    ∀ source steps json final, parse steps source = .done (.ok json) final → Ordered json := by
  constructor
  · intro json ordered finite
    exact ⟨(compact_isValue ordered finite).isDocument.parses,
      (pretty_isValue ordered finite 0).isDocument.parses⟩
  · intro source steps json final done
    exact (isDocument_of_parses ⟨steps, final, done⟩).ordered

theorem parse_written_record :
    (∃ steps final,
      parse steps (compact (.object [("", .null), ("\n", .array [.number ⟨true, 1⟩])])) =
        .done (.ok (.object [("", .null), ("\n", .array [.number ⟨true, 1⟩])])) final) ∧
    ∃ steps final,
      parse steps (pretty (.object [("", .null), ("\n", .array [.number ⟨true, 1⟩])])) =
        .done (.ok (.object [("", .null), ("\n", .array [.number ⟨true, 1⟩])])) final := by
  refine parse_written.1 _ (.object (by decide) fun member inside => ?_) (by decide)
  simp only [List.mem_cons, List.not_mem_nil, or_false] at inside
  rcases inside with rfl | rfl
  · exact .null
  · refine .array fun item only => ?_
    rw [List.mem_singleton.mp only]
    exact .number ⟨true, 1⟩

end Packrat.Json
