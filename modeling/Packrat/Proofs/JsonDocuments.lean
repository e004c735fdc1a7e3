import Packrat.Proofs.History
import Packrat.Proofs.JsonLists
import Packrat.Proofs.WholeInput

/-!
# JSON documents

The alternatives of a value start with different characters, so that the order in which they
are tried does not matter.  A text is accepted exactly if it is a JSON text, and then the
result is the value that it denotes.
-/

namespace Packrat.Json.Grammar

variable {text : String} {one outer : Nonterminal} {place position stop : Nat} {symbol : Value}
  {before chars rest : List Char} {json : Json}

def alternative? (c : Char) : Option Nonterminal :=
  if c = '-' ∨ IsDigit c then some .number
  else if c = '\x7b' then some .object
  else if c = '[' then some .array
  else if c = '"' then some .string
  else if c = 't' ∨ c = 'f' then some .boolean
  else if c = 'n' then some .null
  else none

/-- The alternative of a value that the characters can be. -/
def opened? (chars : List Char) : Option Nonterminal := chars.head?.bind alternative?

theorem numberLiteral_misses {allowed : Answering Text Part} (other : opened? rest ≠ some .number)
    (here : (Text.ofString text).Onward position rest) :
    (reading text).Misses allowed numberLiteral position := by
  have noMinus : (reading text).Misses allowed (.literal "-") position := by
    refine literal_misses here ?_
    rintro ⟨after, rfl⟩
    exact other rfl
  have noInteger : (reading text).Misses allowed integer position := by
    refine .choice fun inner member => ?_
    simp only [List.mem_cons, List.not_mem_nil, or_false] at member
    rcases member with rfl | rfl
    · refine literal_misses here ?_
      rintro ⟨after, rfl⟩
      exact other rfl
    · refine .map (.both_first (charIn_misses here fun c first =>
        Bool.eq_false_iff.mpr fun found => ?_))
      refine other ?_
      rw [opened?, first, Option.bind_some]
      exact if_pos (.inr ((positive_iff c).mp found).1)
  exact .both_first (.both_first (.both_second noMinus.maybe noInteger))

/-- An alternative fails where the characters are not its own. -/
theorem alternative_fails (member : one ∈ Nonterminal.alternatives) (blank : Blanks before)
    (solid : Solid rest) (other : opened? rest ≠ some one)
    (here : (Text.ofString text).Onward position (before ++ rest)) :
    (reading text).SettlesError rules one.tag position := by
  have differs {c : Char} (starts : alternative? c = some one) : rest.head? ≠ some c := by
    intro first
    rw [opened?, first, Option.bind_some] at other
    exact other starts
  have literalMisses {allowed : Answering Text Part} (wanted : String) {c : Char} {more : List Char}
      (split : wanted.toList = c :: more) (starts : alternative? c = some one) :
      (reading text).Misses allowed (.literal wanted) (position + byteLength before) := by
    refine literal_misses here.append ?_
    rw [split]
    rintro ⟨after, rfl⟩
    exact other starts
  simp only [Nonterminal.alternatives, List.mem_cons, List.not_mem_nil, or_false] at member
  rcases member with rfl | rfl | rfl | rfl | rfl | rfl
  · exact settles_of_fails (.labelled (.map (.map (.both_first (.both_first
      (sign_misses "\x7b" rfl (by decide) blank solid (differs (by decide)) here))))))
  · exact settles_of_fails (.labelled (.map (.both_first (.both_first
      (sign_misses "[" rfl (by decide) blank solid (differs (by decide)) here)))))
  · exact settles_of_fails (.labelled (.map (.tryMap
      (token_misses (by decide) blank solid here (numberLiteral_misses other here.append)))))
  · exact settles_of_fails (.labelled (.map (token_misses (by decide) blank solid here
      (.map (.both_first (.both_first (literalMisses "\"" rfl (by decide))))))))
  · refine settles_of_fails (.labelled (.map (token_misses (by decide) blank solid here
      (.choice fun inner member => ?_))))
    simp only [List.mem_cons, List.not_mem_nil, or_false] at member
    rcases member with rfl | rfl
    · exact .map (literalMisses "true" rfl (by decide))
    · exact .map (literalMisses "false" rfl (by decide))
  · exact settles_of_fails (.labelled (.map
      (sign_misses "null" rfl (by decide) blank solid (differs (by decide)) here)))

/-! ## Values that are read -/

/-- A value settles on what the alternative settles on that the characters can be. -/
theorem value_of_alternative (one : Nonterminal) (member : one ∈ Nonterminal.alternatives)
    (blank : Blanks before) (solid : Solid rest) (opens : opened? rest = some one)
    (here : (Text.ofString text).Onward position (before ++ rest))
    (settles : (reading text).SettlesOk rules one.tag position symbol stop) :
    (reading text).SettlesOk rules Nonterminal.value.tag position symbol stop := by
  obtain ⟨earlier, later, split⟩ := List.append_of_mem member
  have distinct : Nonterminal.alternatives.Nodup := by decide
  have noValue : Nonterminal.value ∉ Nonterminal.alternatives := by decide
  have called {other : Nonterminal} (memberToo : other ∈ Nonterminal.alternatives) :
      other ≠ .value := fun same => noValue (same ▸ memberToo)
  refine settles_of_reads (.handle (show arena.resolve ⟨"value"⟩ 0 = .ok valueRule from rfl) ?_)
  rw [valueRule_eq, split, List.map_append, List.map_cons]
  refine .choice (earlier.map Nonterminal.parser) rfl ?_ (call_matches one (called member) settles)
  intro parser isEarlier
  obtain ⟨other, memberToo, rfl⟩ := List.mem_map.mp isEarlier
  have isAlternative : other ∈ Nonterminal.alternatives := by
    rw [split]
    exact List.mem_append_left _ memberToo
  have differs : opened? rest ≠ some other := by
    rw [opens]
    intro same
    cases same
    rw [split] at distinct
    exact (List.nodup_append.mp distinct).2.2 _ memberToo _ List.mem_cons_self rfl
  exact call_misses other (called isAlternative)
    (alternative_fails isAlternative blank solid differs here)

/-- Where no alternative starts there is no value. -/
theorem value_fails (blank : Blanks before) (solid : Solid rest) (opens : opened? rest = none)
    (here : (Text.ofString text).Onward position (before ++ rest)) :
    (reading text).SettlesError rules Nonterminal.value.tag position := by
  have noValue : Nonterminal.value ∉ Nonterminal.alternatives := by decide
  refine settles_of_fails (.handle (show arena.resolve ⟨"value"⟩ 0 = .ok valueRule from rfl) ?_)
  rw [valueRule_eq]
  refine .choice fun parser member => ?_
  obtain ⟨other, isAlternative, rfl⟩ := List.mem_map.mp member
  refine call_misses other (fun same => noValue (same ▸ isAlternative))
    (alternative_fails isAlternative blank solid ?_ here)
  rw [opens]
  exact nofun

/-- A value settles on the JSON value wherever the characters stand after blanks. -/
def Settling (text : String) (chars : List Char) (json : Json) : Prop :=
  ∀ position before rest, Blanks before → Ended rest →
    (Text.ofString text).Onward position (before ++ (chars ++ rest)) →
    (reading text).SettlesOk rules Nonterminal.value.tag position (jsonSymbol json)
      (position + byteLength (before ++ chars))

theorem Settling.reads (settling : Settling text chars json) (different : .value ≠ outer) :
    ReadsItem text outer place value chars (jsonSymbol json) :=
  fun position before rest blank ended here =>
    call_matches .value different (settling position before rest blank ended here)

def memberSymbol (entry : String × Json) : Value := .pair (.text entry.1) (jsonSymbol entry.2)

theorem string_solid {literal : List Char} {string : String} (isString : IsString literal string)
    (rest : List Char) : Solid (literal ++ rest) ∧ opened? (literal ++ rest) = some .string := by
  cases isString
  exact ⟨solid_cons (by decide), rfl⟩

theorem property_settles (member : Member) (settling : Settling text member.chars member.value)
    (blank : Blanks before) (ended : Ended rest)
    (here : (Text.ofString text).Onward position (before ++ (member.spelled ++ rest))) :
    (reading text).SettlesOk rules Nonterminal.property.tag position (memberSymbol member.entry)
      (position + byteLength (before ++ member.spelled)) := by
  obtain ⟨literal, key, beforeColon, after, chars, json, named, blankColon, blankAfter⟩ := member
  have split : before ++ (literal ++ (beforeColon ++ ':' :: (after ++ chars)) ++ rest) =
      before ++ (literal ++ (beforeColon ++ (":".toList ++ (after ++ (chars ++ rest))))) := by
    simp only [List.append_assoc, List.cons_append]
    rfl
  rw [Member.spelled, split] at here
  have name : (reading text).Matches (inside text .property position) (token string) position
      (.text key) (position + byteLength before + byteLength literal) :=
    token_matches (by decide) blank (string_solid named _).1 here
      (string_matches (by decide) named here.append)
  rw [Nat.add_assoc, ← byteLength_append] at name
  rw [← List.append_assoc] at here
  have colon : (reading text).Matches (inside text .property position) (token (.literal ":"))
      (position + byteLength (before ++ literal)) (.text ":")
      (position + byteLength (before ++ literal) + byteLength (beforeColon ++ ":".toList)) :=
    sign_matches ":" (by decide) blankColon (solid_cons (by decide)) here.append
  have there := here.append
  rw [← List.append_assoc] at there
  have items : ReadsItem text .property position value chars (jsonSymbol json) :=
    settling.reads (by decide)
  have held := items _ _ _ blankAfter ended there.append
  have front : (reading text).Matches (inside text .property position)
      ((token string).thenIgnore (token (.literal ":"))) position (.text key)
      (position + byteLength ((before ++ literal) ++ (beforeColon ++ ":".toList))) :=
    both_matches name colon
  rw [Nat.add_assoc position, ← byteLength_append] at held
  have whole : (reading text).Matches (inside text .property position)
      (((token string).thenIgnore (token (.literal ":"))).followedBy value) position
      (memberSymbol (key, json))
      (position + byteLength (((before ++ literal) ++ (beforeColon ++ ":".toList)) ++
        (after ++ chars))) := both_matches front held
  have same : ((before ++ literal) ++ (beforeColon ++ ":".toList)) ++ (after ++ chars) =
      before ++ (literal ++ (beforeColon ++ ':' :: (after ++ chars))) := by
    simp only [List.append_assoc]
    rfl
  rw [same] at whole
  exact settles_of_reads (.labelled whole)

theorem property_fails (blank : Blanks before) (solid : Solid rest) (other : rest.head? ≠ some '"')
    (here : (Text.ofString text).Onward position (before ++ rest)) :
    (reading text).SettlesError rules Nonterminal.property.tag position := by
  refine settles_of_fails (.labelled (.both_first (.both_first (token_misses (by decide) blank solid
    here (.map (.both_first (.both_first (literal_misses here.append ?_))))))))
  rintro ⟨after, rfl⟩
  exact other rfl

theorem jsonItems_map (jsons : List Json) : jsonItems (jsons.map jsonSymbol) = jsons := by
  induction jsons with
  | nil => rfl
  | cons json jsons ih => exact congrArg (json :: ·) ih

theorem jsonMembers_map (entries : List (String × Json)) :
    jsonMembers (entries.map memberSymbol) = entries := by
  induction entries with
  | nil => rfl
  | cons entry entries ih => exact congrArg (entry :: ·) ih

theorem array_settles (items : List (List Char × Json)) {blanks : List Char}
    (settling : ∀ item ∈ items, Settling text item.1 item.2)
    (listed : Listed (items.map Prod.fst) chars) (blank : Blanks blanks)
    (blankBefore : Blanks before)
    (here : (Text.ofString text).Onward position
      (before ++ ('[' :: (chars ++ (blanks ++ [']'])) ++ rest))) :
    (reading text).SettlesOk rules Nonterminal.array.tag position
      (jsonSymbol (.array (items.map Prod.snd)))
      (position + byteLength (before ++ '[' :: (chars ++ (blanks ++ [']'])))) := by
  let pairs := items.map fun item => (item.1, jsonSymbol item.2)
  have fsts : pairs.map Prod.fst = items.map Prod.fst := by
    rw [List.map_map]
    rfl
  have snds : pairs.map Prod.snd = (items.map Prod.snd).map jsonSymbol := by
    rw [List.map_map, List.map_map]
    rfl
  have reads : ∀ pair ∈ pairs, ReadsItem text .array position value pair.1 pair.2 := by
    intro pair member
    obtain ⟨item, isItem, rfl⟩ := List.mem_map.mp member
    exact (settling item isItem).reads (by decide)
  have noItem (place : Nat) (there : (Text.ofString text).Onward place (blanks ++ ']' :: rest)) :
      (reading text).Misses (inside text .array position) value place :=
    call_misses .value (by decide)
      (value_fails blank (solid_cons (by decide)) rfl there)
  rw [← fsts] at listed
  have list := bracketed_matches "[" "]" rfl (by decide) rfl (by decide)
    (by decide) reads listed blank noItem blankBefore here
  rw [snds] at list
  have array : (reading text).Matches (inside text .array position) (Grammar.items.map toArray)
      position (jsonSymbol (.array (jsonItems ((items.map Prod.snd).map jsonSymbol))))
      (position + byteLength (before ++ '[' :: (chars ++ (blanks ++ [']'])))) := list.map
  rw [jsonItems_map] at array
  exact settles_of_reads (.labelled array)

theorem object_settles (members : List Member) {blanks : List Char} {held : List (String × Json)}
    (settling : ∀ member ∈ members, Settling text member.chars member.value)
    (listed : Listed (members.map Member.spelled) chars) (blank : Blanks blanks)
    (wins : LastWins (members.map Member.entry) held) (blankBefore : Blanks before)
    (here : (Text.ofString text).Onward position
      (before ++ ('\x7b' :: (chars ++ (blanks ++ ['\x7d'])) ++ rest))) :
    (reading text).SettlesOk rules Nonterminal.object.tag position (jsonSymbol (.object held))
      (position + byteLength (before ++ '\x7b' :: (chars ++ (blanks ++ ['\x7d'])))) := by
  let pairs := members.map fun member => (member.spelled, memberSymbol member.entry)
  have fsts : pairs.map Prod.fst = members.map Member.spelled := by
    rw [List.map_map]
    rfl
  have snds : pairs.map Prod.snd = (members.map Member.entry).map memberSymbol := by
    rw [List.map_map, List.map_map]
    rfl
  have reads : ∀ pair ∈ pairs, ReadsItem text .object position property pair.1 pair.2 := by
    intro pair isPair
    obtain ⟨member, isMember, rfl⟩ := List.mem_map.mp isPair
    exact fun _ _ _ blank ended there => call_matches .property (by decide)
      (property_settles member (settling member isMember) blank ended there)
  have noItem (place : Nat) (there : (Text.ofString text).Onward place (blanks ++ '\x7d' :: rest)) :
      (reading text).Misses (inside text .object position) property place :=
    call_misses .property (by decide)
      (property_fails blank (solid_cons (by decide)) (by simp) there)
  rw [← fsts] at listed
  have list := bracketed_matches "\x7b" "\x7d" rfl (by decide) rfl
    (by decide) (by decide) reads listed blank noItem blankBefore here
  rw [snds] at list
  have object : (reading text).Matches (inside text .object position) (Grammar.members.map toObject)
      position (jsonSymbol (.object (jsonMembers ((orderMembers (jsonMembers
        ((members.map Member.entry).map memberSymbol))).map memberSymbol))))
      (position + byteLength (before ++ '\x7b' :: (chars ++ (blanks ++ ['\x7d'])))) := list.map.map
  rw [jsonMembers_map, jsonMembers_map, ← lastWins_iff.mp wins] at object
  exact settles_of_reads (.labelled object)

theorem number_opens (number : IsNumber chars) : opened? (chars ++ rest) = some .number := by
  cases number with
  | @parts minus whole fraction exponent signed isWhole isFraction isExponent =>
      simp only [List.mem_cons, List.not_mem_nil, or_false] at signed
      rcases signed with rfl | rfl
      · rw [List.nil_append, List.append_assoc]
        have digits := isWhole.digits
        cases whole with
        | nil => exact absurd rfl digits.1
        | cons d whole => exact if_pos (.inr (digits.2 d List.mem_cons_self))
      · rfl

theorem string_settles {string : String} (isString : IsString chars string) (blank : Blanks before)
    (here : (Text.ofString text).Onward position (before ++ (chars ++ rest))) :
    (reading text).SettlesOk rules Nonterminal.string.tag position (jsonSymbol (.string string))
      (position + byteLength (before ++ chars)) := by
  have read : (reading text).Matches (inside text .string position) (token Grammar.string) position
      (.text string) (position + byteLength before + byteLength chars) :=
    token_matches (by decide) blank (string_solid isString _).1 here
      (string_matches (by decide) isString here.append)
  rw [Nat.add_assoc, ← byteLength_append] at read
  have whole : (reading text).Matches (inside text .string position)
      ((token Grammar.string).map toJson) position (jsonSymbol (.string string))
      (position + byteLength (before ++ chars)) := read.map
  exact settles_of_reads (.labelled whole)

def truthLiteral : Bool → String
  | true => "true"
  | false => "false"

theorem truth_solid (truth : Bool) (rest : List Char) :
    Solid ((truthLiteral truth).toList ++ rest) ∧
    opened? ((truthLiteral truth).toList ++ rest) = some .boolean := by
  cases truth <;> exact ⟨solid_cons (by decide), rfl⟩

theorem boolean_settles (truth : Bool) (blank : Blanks before)
    (here : (Text.ofString text).Onward position
      (before ++ ((truthLiteral truth).toList ++ rest))) :
    (reading text).SettlesOk rules Nonterminal.boolean.tag position (jsonSymbol (.bool truth))
      (position + byteLength (before ++ (truthLiteral truth).toList)) := by
  let truths : List Rule := [
    (Parser.literal "true").map fun _ => .atom (.truth true),
    (Parser.literal "false").map fun _ => .atom (.truth false)]
  have inner : (reading text).Matches (inside text .boolean position) (.oneOf truths)
      (position + byteLength before) (.atom (.truth truth))
      (position + byteLength before + byteLength (truthLiteral truth).toList) := by
    cases truth with
    | true => exact .choice [] rfl nofun (.map (literal_matches "true" here.append))
    | false =>
        refine .choice [_] rfl ?_ (.map (literal_matches "false" here.append))
        simp only [List.mem_singleton, forall_eq]
        refine .map (literal_misses here.append fun starts => ?_)
        exact absurd (List.cons_prefix_cons.mp starts).1 (by decide)
  have read := token_matches (by decide) blank (truth_solid truth _).1 here inner
  rw [Nat.add_assoc, ← byteLength_append] at read
  have whole : (reading text).Matches (inside text .boolean position) (Grammar.boolean.map toJson)
      position (jsonSymbol (.bool truth))
      (position + byteLength (before ++ (truthLiteral truth).toList)) := read.map
  exact settles_of_reads (.labelled whole)

/-- The characters of a value settle on it. -/
theorem value_settles (isValue : IsValue chars json) : Settling text chars json := by
  have truths (truth : Bool) : Settling text (truthLiteral truth).toList (.bool truth) := by
    intro position before rest blank ended here
    obtain ⟨solid, opens⟩ := truth_solid truth rest
    exact value_of_alternative .boolean (by decide) blank solid opens here
      (boolean_settles truth blank here)
  induction isValue with
  | null =>
      intro position before rest blank ended here
      have solid : Solid ("null".toList ++ rest) := solid_cons (by decide)
      refine value_of_alternative .null (by decide) blank solid rfl here ?_
      exact settles_of_reads (.labelled (.map
        (sign_matches "null" (by decide) blank solid here)))
  | yes => exact truths true
  | no => exact truths false
  | number number =>
      intro position before rest blank ended here
      exact value_of_alternative .number (by decide) blank (number_solid number)
        (number_opens number) here (number_settles number blank ended here)
  | string isString =>
      intro position before rest blank ended here
      obtain ⟨solid, opens⟩ := string_solid isString rest
      exact value_of_alternative .string (by decide) blank solid opens here
        (string_settles isString blank here)
  | array items _ listed blank ih =>
      intro position before rest blankBefore ended here
      exact value_of_alternative .array (by decide) blankBefore (solid_cons (by decide)) rfl here
        (array_settles items ih listed blank blankBefore here)
  | object members _ listed blank wins ih =>
      intro position before rest blankBefore ended here
      exact value_of_alternative .object (by decide) blankBefore (solid_cons (by decide)) rfl here
        (object_settles members ih listed blank wins blankBefore here)

/-! ## What matches is a value -/

variable {matched : Match Value}

/-- What is matched as a value denotes one. -/
theorem value_tells : TellsItem text value ValueOf := fun _ _ _ here answers =>
  call_answers .value here answers

theorem property_tells : TellsItem text property MemberOf := fun _ _ _ here answers =>
  call_answers .property here answers

/-- The body of a rule matches what the rule denotes. -/
def BodyTells (text : String) (one : Nonterminal) : Prop :=
  ∀ position rest matched, (Text.ofString text).Onward position rest →
    (reading text).Replies (explaining text) one.parser position (.ok matched.symbol)
      matched.span.stop → Explains text one.Denotes position matched

theorem whitespace_tells : BodyTells text .whitespace := by
  intro position rest matched here replies
  obtain ⟨one, answers, -, stops⟩ := Setting.Replies.of_labelled replies
  obtain ⟨run, covers, all, -, -⟩ := charsIn_answers here answers
  rw [← stops] at covers
  exact ⟨run, covers, fun c member => (blank_iff c).mp (all c member)⟩

theorem property_bodyTells : BodyTells text .property := by
  intro position rest matched here replies
  obtain ⟨both, answers, same, stops⟩ := Setting.Replies.of_labelled replies
  obtain ⟨front, held, answersFront, answersValue, sameBoth, stopsBoth⟩ := answers.of_both
  obtain ⟨key, sign, answersKey, answersColon, sameFront, stopsFront⟩ := answersFront.of_both
  obtain ⟨before, middle, string, more, blank, between, there, answersString, sameKey, stopsKey⟩ :=
    token_answers here answersKey
  obtain ⟨literal, name, coversKey, isString, name_eq⟩ := string_answers there answersString
  obtain ⟨_, -, afterKey⟩ := coversKey.onward
  rw [stopsKey] at answersColon
  obtain ⟨blanksColon, blankColon, colon⟩ := sign_answers ":" afterKey answersColon
  rw [← stopsFront] at colon
  obtain ⟨_, -, afterColon⟩ := colon.onward
  obtain ⟨_, coversValue, after, chars, blankAfter, ⟨json, isValue, json_eq⟩, rfl⟩ :=
    value_tells _ _ _ afterColon answersValue
  rw [← stopsBoth, ← stops] at coversValue
  let member : Member := ⟨literal, name, blanksColon, after, chars, json, isString, blankColon,
    blankAfter⟩
  refine ⟨before ++ member.spelled, ?_, before, member.spelled, blank, ⟨member, isValue, rfl, ?_⟩,
    rfl⟩
  · have whole := between.append (coversKey.append (colon.append coversValue))
    rw [List.append_assoc] at whole
    exact whole
  · rw [same, sameBoth, sameFront, sameKey, name_eq, json_eq]

theorem exists_map_eq {β γ : Type} {f : γ → β} {good : γ → Prop} {list : List β}
    (each : ∀ b ∈ list, ∃ c, good c ∧ b = f c) :
    ∃ origins : List γ, (∀ c ∈ origins, good c) ∧ list = origins.map f := by
  induction list with
  | nil => exact ⟨[], nofun, rfl⟩
  | cons b list ih =>
      obtain ⟨c, holds, rfl⟩ := each b List.mem_cons_self
      obtain ⟨origins, all, rfl⟩ := ih fun d member => each d (List.mem_cons_of_mem _ member)
      refine ⟨c :: origins, fun d member => ?_, rfl⟩
      rcases List.mem_cons.mp member with rfl | member
      · exact holds
      · exact all d member

theorem exists_items {pairs : List (List Char × Value)}
    (each : ∀ pair ∈ pairs, ValueOf pair.1 pair.2) :
    ∃ items : List (List Char × Json), (∀ item ∈ items, IsValue item.1 item.2) ∧
      pairs = items.map fun item => (item.1, jsonSymbol item.2) := by
  refine exists_map_eq fun pair member => ?_
  obtain ⟨json, isValue, symbol_eq⟩ := each pair member
  exact ⟨(pair.1, json), isValue, Prod.ext rfl symbol_eq⟩

theorem exists_members {pairs : List (List Char × Value)}
    (each : ∀ pair ∈ pairs, MemberOf pair.1 pair.2) :
    ∃ members : List Member, (∀ member ∈ members, IsValue member.chars member.value) ∧
      pairs = members.map fun member => (member.spelled, memberSymbol member.entry) := by
  refine exists_map_eq fun pair isPair => ?_
  obtain ⟨member, isValue, chars_eq, symbol_eq⟩ := each pair isPair
  exact ⟨member, isValue, Prod.ext chars_eq symbol_eq⟩

theorem array_bodyTells : BodyTells text .array := by
  intro position rest matched here replies
  obtain ⟨mapped, answers, same, stops⟩ := Setting.Replies.of_labelled replies
  obtain ⟨list, answers, sameMapped, stopsMapped⟩ := answers.of_map
  obtain ⟨before, pairs, chars, blanks, blankBefore, each, listed, blank, covers, list_eq⟩ :=
    bracketed_answers value_tells here answers
  rw [← stopsMapped, ← stops] at covers
  obtain ⟨items, values, rfl⟩ := exists_items each
  rw [List.map_map] at listed
  refine ⟨_, covers, before, _, blankBefore, ⟨_, .array items values listed blank, ?_⟩, rfl⟩
  have jsons : (items.map fun item => (item.1, jsonSymbol item.2)).map Prod.snd =
      (items.map Prod.snd).map jsonSymbol := by
    rw [List.map_map, List.map_map]
    rfl
  rw [same, sameMapped, list_eq, jsons, toArray, jsonItems_map]

theorem object_bodyTells : BodyTells text .object := by
  intro position rest matched here replies
  obtain ⟨mapped, answers, same, stops⟩ := Setting.Replies.of_labelled replies
  obtain ⟨collected, answers, sameMapped, stopsMapped⟩ := answers.of_map
  obtain ⟨list, answers, sameCollected, stopsCollected⟩ := Setting.Answers.of_map answers
  obtain ⟨before, pairs, chars, blanks, blankBefore, each, listed, blank, covers, list_eq⟩ :=
    bracketed_answers property_tells here answers
  rw [← stopsCollected, ← stopsMapped, ← stops] at covers
  obtain ⟨members, values, rfl⟩ := exists_members each
  rw [List.map_map] at listed
  refine ⟨_, covers, before, _, blankBefore,
    ⟨_, .object members values listed blank (orderMembers_lastWins _), ?_⟩, rfl⟩
  have entries :
      (members.map fun member => (member.spelled, memberSymbol member.entry)).map Prod.snd =
      (members.map Member.entry).map memberSymbol := by
    rw [List.map_map, List.map_map]
    rfl
  have ordered : collectMembers (.list ((members.map Member.entry).map memberSymbol)) =
      .list ((orderMembers (members.map Member.entry)).map memberSymbol) := by
    rw [collectMembers, jsonMembers_map]
    rfl
  rw [same, sameMapped, sameCollected, list_eq, entries, ordered, toObject, jsonMembers_map]

theorem number_bodyTells : BodyTells text .number := by
  intro position rest matched here replies
  obtain ⟨mapped, answers, same, stops⟩ := Setting.Replies.of_labelled replies
  obtain ⟨read, answers, sameMapped, stopsMapped⟩ := answers.of_map
  obtain ⟨_, covers, before, literal, blank, ⟨number, symbol_eq⟩, rfl⟩ :=
    number_answers here answers
  rw [← stopsMapped, ← stops] at covers
  refine ⟨_, covers, before, literal, blank, ⟨_, .number number, ?_⟩, rfl⟩
  rw [same, sameMapped, symbol_eq]
  rfl

theorem string_bodyTells : BodyTells text .string := by
  intro position rest matched here replies
  obtain ⟨mapped, answers, same, stops⟩ := Setting.Replies.of_labelled replies
  obtain ⟨padded, answers, sameMapped, stopsMapped⟩ := answers.of_map
  obtain ⟨before, middle, one, more, blank, between, there, answers, sameOne, stopsOne⟩ :=
    token_answers here answers
  obtain ⟨literal, string, covers, isString, symbol_eq⟩ := string_answers there answers
  rw [← stopsOne, ← stopsMapped, ← stops] at covers
  refine ⟨_, between.append covers, before, literal, blank, ⟨_, .string isString, ?_⟩, rfl⟩
  rw [same, sameMapped, sameOne, symbol_eq]
  rfl

theorem boolean_bodyTells : BodyTells text .boolean := by
  intro position rest matched here replies
  obtain ⟨mapped, answers, same, stops⟩ := Setting.Replies.of_labelled replies
  obtain ⟨padded, answers, sameMapped, stopsMapped⟩ := answers.of_map
  obtain ⟨before, middle, one, more, blank, between, there, answers, sameOne, stopsOne⟩ :=
    token_answers here answers
  obtain ⟨inner, member, two, answers, sameTwo, stopsTwo⟩ := answers.of_choice
  obtain ⟨truth, covers, symbol_eq⟩ : ∃ truth,
      (Text.ofString text).Between middle (truthLiteral truth).toList two.span.stop ∧
      two.symbol = .atom (.truth truth) := by
    simp only [List.mem_cons, List.not_mem_nil, or_false] at member
    rcases member with rfl | rfl
    · obtain ⟨sign, answers, symbol_eq, ends⟩ := Setting.Answers.of_map answers
      rw [ends]
      exact ⟨true, (literal_answers there answers).1, symbol_eq⟩
    · obtain ⟨sign, answers, symbol_eq, ends⟩ := Setting.Answers.of_map answers
      rw [ends]
      exact ⟨false, (literal_answers there answers).1, symbol_eq⟩
  rw [← stopsTwo, ← stopsOne, ← stopsMapped, ← stops] at covers
  have isValue : IsValue (truthLiteral truth).toList (.bool truth) := by
    cases truth
    · exact .no
    · exact .yes
  refine ⟨_, between.append covers, before, _, blank, ⟨_, isValue, ?_⟩, rfl⟩
  rw [same, sameMapped, sameOne, sameTwo, symbol_eq]
  rfl

theorem null_bodyTells : BodyTells text .null := by
  intro position rest matched here replies
  obtain ⟨mapped, answers, same, stops⟩ := Setting.Replies.of_labelled replies
  obtain ⟨sign, answers, sameMapped, stopsMapped⟩ := answers.of_map
  obtain ⟨before, blank, covers⟩ := sign_answers "null" here answers
  rw [← stopsMapped, ← stops] at covers
  exact ⟨_, covers, before, _, blank, ⟨_, .null, same.trans sameMapped⟩, rfl⟩

theorem value_bodyTells : BodyTells text .value := by
  intro position rest matched here replies
  have resolved : (reading text).arena.resolve ⟨"value"⟩ 0 = .ok valueRule := rfl
  have ran := (Setting.replies_handle_iff resolved).mp replies
  rw [valueRule_eq] at ran
  obtain ⟨parser, member, one, answers, same, stops⟩ := Setting.Replies.of_choice ran
  obtain ⟨alternative, isAlternative, rfl⟩ := List.mem_map.mp member
  obtain ⟨chars, covers, denotes⟩ := call_answers alternative here answers
  rw [← stops] at covers
  rw [← same] at denotes
  refine ⟨chars, covers, ?_⟩
  simp only [Nonterminal.alternatives, List.mem_cons, List.not_mem_nil, or_false] at isAlternative
  rcases isAlternative with rfl | rfl | rfl | rfl | rfl | rfl <;> exact denotes

theorem rule_bodyTells (one : Nonterminal) : BodyTells text one := by
  cases one with
  | whitespace => exact whitespace_tells
  | escape => exact fun _ _ _ here replies => escape_explains here replies
  | property => exact property_bodyTells
  | object => exact object_bodyTells
  | array => exact array_bodyTells
  | number => exact number_bodyTells
  | string => exact string_bodyTells
  | boolean => exact boolean_bodyTells
  | null => exact null_bodyTells
  | value => exact value_bodyTells

theorem rules_explained (text : String) : (reading text).Derives rules (explained text) where
  refused _ := trivial
  made key outcome round := by
    obtain ⟨result, stop, replies, forward, rfl⟩ := round
    cases result with
    | error mismatch => trivial
    | ok symbol =>
        intro rest here
        exact rule_bodyTells _ _ _ ⟨symbol, ⟨key.position, stop⟩⟩ here replies

theorem token_linked {inner : Rule} (linked : inner.Linked rules) : (token inner).Linked rules :=
  .both _ (.rule ⟨"whitespace"⟩) linked

theorem literal_linked (wanted : String) : (Parser.literal wanted : Rule).Linked rules :=
  .terminal _ _

theorem nonterminal_linked (one : Nonterminal) : one.parser.Linked rules := by
  rw [← rules_tag]
  exact .rule one.tag

theorem bracketed_linked (opening closing : String) {item : Rule} (linked : item.Linked rules) :
    (bracketed opening closing item).Linked rules :=
  .both _ (.both _ (token_linked (literal_linked opening))
    (.separated linked (token_linked (literal_linked ",")))) (token_linked (literal_linked closing))

theorem string_linked : (string : Rule).Linked rules := by
  have part : (Parser.oneOf [.charsIn unescaped (.atLeast 1), escape] : Rule).Linked rules := by
    refine .choice ?_
    simp only [List.mem_cons, List.not_mem_nil, or_false, forall_eq_or_imp, forall_eq]
    exact ⟨.terminal _ _, nonterminal_linked .escape⟩
  exact .wrap _ _ (.both _ (.both _ (literal_linked "\"") (.repetition _ part))
    (literal_linked "\""))

theorem number_linked : (number : Rule).Linked rules := by
  have digits (limit : CountLimit) : (digits limit).Linked rules := .terminal _ _
  have integer : integer.Linked rules := by
    refine .choice ?_
    simp only [List.mem_cons, List.not_mem_nil, or_false, forall_eq_or_imp, forall_eq]
    exact ⟨literal_linked "0", .wrap _ _ (.both _ (.terminal _ _) (digits _))⟩
  have fraction : fraction.Linked rules := .wrap _ _ (.both _ (literal_linked ".") (digits _))
  have exponent : exponent.Linked rules :=
    .wrap _ _ (.both _ (.both _ (.terminal _ _) (.wrap _ _ (.terminal _ _))) (digits _))
  exact .wrap _ _ (token_linked (.both _ (.both _ (.both _ (.wrap _ _ (literal_linked "-")) integer)
    (.wrap _ _ fraction)) (.wrap _ _ exponent)))

theorem boolean_linked : (boolean : Rule).Linked rules := by
  refine token_linked (.choice ?_)
  simp only [List.mem_cons, List.not_mem_nil, or_false, forall_eq_or_imp, forall_eq]
  exact ⟨.wrap _ _ (literal_linked "true"), .wrap _ _ (literal_linked "false")⟩

theorem escape_linked : ((Parser.literal "\\").ignoreThen
    (.oneOf [shortEscape, unicodeEscape]) : Rule).Linked rules := by
  refine .both _ (literal_linked "\\") (.choice ?_)
  simp only [List.mem_cons, List.not_mem_nil, or_false, forall_eq_or_imp, forall_eq]
  exact ⟨.wrap _ _ (.terminal _ _), .wrap _ _ (.both _ (literal_linked "u") (.terminal _ _))⟩

/-- The rules make a grammar, in which the handle stands for the choice of a value. -/
theorem rules_grammar (text : String) : (reading text).Grammar rules (Parser.Linked rules)
    fun parser => parser.Linked rules ∨ parser = valueRule := by
  refine Setting.grammar_of_rules (fun tag state => ?_) (fun tag _ _ _ => ?_)
    (fun {tag other} tagged => ?_) ?_ ?_
  · rw [rules]
    cases Nonterminal.ofTag tag with
    | whitespace => exact ⟨.terminal _ _, trivial⟩
    | escape => exact ⟨.wrap _ _ escape_linked, trivial⟩
    | property =>
        exact ⟨.both _ (.both _ (token_linked string_linked) (token_linked (literal_linked ":")))
          (nonterminal_linked .value), trivial⟩
    | object =>
        exact ⟨.wrap _ _ (.wrap _ _ (bracketed_linked _ _ (nonterminal_linked .property))), trivial⟩
    | array => exact ⟨.wrap _ _ (bracketed_linked _ _ (nonterminal_linked .value)), trivial⟩
    | number => exact ⟨.wrap _ _ number_linked, trivial⟩
    | string => exact ⟨.wrap _ _ (token_linked string_linked), trivial⟩
    | boolean => exact ⟨.wrap _ _ boolean_linked, trivial⟩
    | null => exact ⟨.wrap _ _ (token_linked (literal_linked "null")), trivial⟩
    | value => exact .inr rfl
  · rw [rules]
    cases Nonterminal.ofTag tag <;> rfl
  · rw [rules, Nonterminal.tagged] at tagged
    cases tagged
    exact Nonterminal.named _
  · rintro parser rfl state
    rw [show valueRule.start (reading text) state = tryAlternatives (some ⟨"value"⟩) _
      (Nonterminal.alternatives.map Nonterminal.parser) from rfl]
    refine (tryAlternatives_over fun parser member => ?_).leads .inl
    obtain ⟨one, -, rfl⟩ := List.mem_map.mp member
    exact nonterminal_linked one
  · rintro parser rfl _ _ _
    rfl

theorem document_linked : document.Linked rules :=
  .both _ (nonterminal_linked .value) (nonterminal_linked .whitespace)

theorem between_size_iff {chars : List Char} :
    (Text.ofString text).Between 0 chars (Input.size (Text.ofString text)) ↔
      chars = text.toList := by
  have whole := Text.onward_zero text
  constructor
  · rintro ⟨rest, here, stops⟩
    have same := here.unique whole
    rw [whole.size_eq, ← same, byteLength_append] at stops
    have nothing : rest = [] := by
      by_contra more
      have positive := byteLength_pos more
      omega
    rw [← same, nothing, List.append_nil]
  · rintro rfl
    refine ⟨[], ?_, whole.size_eq⟩
    rwa [List.append_nil]

theorem call_settled (one : Nonterminal)
    (settles : (reading text).SettlesOk rules one.tag position symbol stop) :
    (reading text).Matches (.named rules ((reading text).Settles rules)) one.parser position symbol
      stop :=
  .of_given one.tagged one.named settles.1 settles.2

/-- The start rule reads a document up to where no value and no blanks go on. -/
theorem document_reads (isDocument : IsDocument chars json) (solid : Solid rest)
    (ended : Ended rest) (here : (Text.ofString text).Onward 0 (chars ++ rest)) :
    (reading text).SettlesOn rules document 0 (.ok ⟨jsonSymbol json, ⟨0, byteLength chars⟩⟩) := by
  cases isDocument with
  | @value before chars after _ blank isValue blankAfter =>
      rw [List.append_assoc, List.append_assoc] at here
      have front := call_settled .value
        (value_settles isValue 0 before (after ++ rest) blank (ended_blanks blankAfter ended) here)
      rw [← List.append_assoc] at here
      have back := call_settled .whitespace (whitespace_settles blankAfter solid here.append)
      rw [← List.append_assoc before, ← Nat.zero_add (byteLength _)]
      exact (both_matches front back).1

/-- On the characters of a document the start rule reads all of them. -/
theorem document_settles (isDocument : IsDocument text.toList json) :
    (reading text).SettlesOn rules document 0
      (.ok ⟨jsonSymbol json, ⟨0, Input.size (Text.ofString text)⟩⟩) := by
  have here := Text.onward_zero text
  rw [here.size_eq, Nat.zero_add]
  have solid : Solid [] := fun _ first => nomatch first
  have ended : Ended [] := fun _ first => nomatch first
  rw [← List.append_nil text.toList] at here
  exact document_reads isDocument solid ended here

end Packrat.Json.Grammar

namespace Packrat.Json

open Grammar

/-- Characters are a JSON text of one value only. -/
theorem IsDocument.unique {chars : List Char} {one other : Json} (first : IsDocument chars one)
    (second : IsDocument chars other) : one = other := by
  rw [← String.toList_ofList (l := chars)] at first second
  obtain ⟨_, ends⟩ := (document_settles first).ends_fresh
  obtain ⟨_, endsToo⟩ := (document_settles second).ends_fresh
  cases (ends.unique endsToo).1
  rfl

theorem parse_eq_ok_iff {source : String} {json : Json} :
    (∃ steps final, parse steps source = .done (.ok json) final) ↔
      ∃ symbol, ofSymbol symbol = json ∧
        ∃ steps final, (reading source).parse steps document = .done (.ok symbol) final := by
  constructor
  · rintro ⟨steps, final, done⟩
    obtain ⟨result, middle, done, same⟩ := Run.andThen_eq_done_iff.mp done
    cases result with
    | error error => cases same
    | ok symbol =>
        cases same
        exact ⟨symbol, rfl, steps, final, done⟩
  · rintro ⟨symbol, rfl, steps, final, done⟩
    exact ⟨steps, final, Run.andThen_eq_done_iff.mpr ⟨_, final, done, rfl⟩⟩

/-- A JSON text is accepted. -/
theorem IsDocument.parses {source : String} {json : Json}
    (isDocument : IsDocument source.toList json) :
    ∃ steps final, parse steps source = .done (.ok json) final := by
  obtain ⟨middle, ends⟩ := (document_settles isDocument).ends_fresh
  exact parse_eq_ok_iff.mpr ⟨_, rfl, Setting.parse_eq_ok_iff.mpr ⟨_, middle, ends, rfl, rfl⟩⟩

/-- What is accepted is a JSON text. -/
theorem isDocument_of_parses {source : String} {json : Json}
    (parses : ∃ steps final, parse steps source = .done (.ok json) final) :
    IsDocument source.toList json := by
  obtain ⟨symbol, rfl, accepted⟩ := parse_eq_ok_iff.mp parses
  obtain ⟨matched, middle, ends, rfl, stops⟩ := Setting.parse_eq_ok_iff.mp accepted
  have answers := (rules_explained source).answers (rules_grammar source) document_linked ends
  obtain ⟨one, blanks, first, second, same, stopsToo⟩ := answers.of_both
  obtain ⟨front, covers, before, chars, blank, ⟨json, isValue, symbol_eq⟩, rfl⟩ :=
    call_answers .value (Text.onward_zero source) first
  obtain ⟨rest, -, there⟩ := covers.onward
  obtain ⟨after, coversAfter, blankAfter⟩ := call_answers .whitespace there second
  rw [← stopsToo, stops] at coversAfter
  have whole := between_size_iff.mp (covers.append coversAfter)
  rw [List.append_assoc] at whole
  rw [same, symbol_eq, ← whole]
  exact .value blank isValue blankAfter

/-- A text is accepted exactly if it is a JSON text, with the value that it denotes. -/
theorem parse_eq_ok_iff_isDocument (source : String) (json : Json) :
    (∃ steps final, parse steps source = .done (.ok json) final) ↔
      IsDocument source.toList json :=
  ⟨isDocument_of_parses, IsDocument.parses⟩

end Packrat.Json
