import Packrat.Proofs.CallSites
import Packrat.Proofs.JsonDocuments

/-!
# Where a rejected JSON text is blamed

The grammar calls a parser only after characters that can be completed to a JSON text.  A rule is
called where all that it denotes may follow, and from that alone its body knows of every call it
makes that something may still follow there, whatever becomes of the call.  The farthest failure
is the failure of a call, so everything in front of a blamed position can be completed.
-/

namespace Packrat.Json

/-- Characters that can be completed to a JSON text. -/
def Viable (before : List Char) : Prop := ∃ after json, IsDocument (before ++ after) json

/-- Whatever characters of a shape are appended, the result can be completed. -/
def Hosts (shape : List Char → Prop) (before : List Char) : Prop :=
  ∀ chars, shape chars → Viable (before ++ chars)

def Joined (shape shapeToo : List Char → Prop) (chars : List Char) : Prop :=
  ∃ front back, shape front ∧ shapeToo back ∧ chars = front ++ back

section Completion

variable {shape shapeToo : List Char → Prop} {before chars : List Char}

theorem Viable.of_append (viable : Viable (before ++ chars)) : Viable before := by
  obtain ⟨after, json, isDocument⟩ := viable
  rw [List.append_assoc] at isDocument
  exact ⟨chars ++ after, json, isDocument⟩

theorem Hosts.mono (hosts : Hosts shapeToo before)
    (narrower : ∀ chars, shape chars → shapeToo chars) : Hosts shape before :=
  fun chars shaped => hosts chars (narrower chars shaped)

theorem Hosts.first (hosts : Hosts (Joined shape shapeToo) before)
    (inhabited : ∃ back, shapeToo back) : Hosts shape before := by
  intro chars shaped
  obtain ⟨back, shapedToo⟩ := inhabited
  have viable := hosts _ ⟨chars, back, shaped, shapedToo, rfl⟩
  rw [← List.append_assoc] at viable
  exact viable.of_append

theorem Hosts.rest {front : List Char} (hosts : Hosts shapeToo before)
    (append : ∀ back, shape back → shapeToo (front ++ back)) : Hosts shape (before ++ front) := by
  intro back shaped
  rw [List.append_assoc]
  exact hosts _ (append back shaped)

end Completion

theorem IsContent.append {content more decoded decodedToo : List Char}
    (one : IsContent content decoded) (two : IsContent more decodedToo) :
    IsContent (content ++ more) (decoded ++ decodedToo) := by
  induction one with
  | nil => exact two
  | unescaped plain _ ih => exact .unescaped plain ih
  | escape isEscape _ ih =>
      rw [List.append_assoc]
      exact .escape isEscape ih

section Lists

variable {items : List (List Char)} {item chars before after : List Char}

theorem Commas.concat (commas : Commas items chars) (blank : Blanks before)
    (blankAfter : Blanks after) :
    Commas (items ++ [item]) (chars ++ (before ++ ',' :: (after ++ item))) := by
  induction commas with
  | nil =>
      have commas : Commas [item] (before ++ ',' :: (after ++ (item ++ []))) :=
        .cons blank blankAfter .nil
      rwa [List.append_nil] at commas
  | cons one two _ ih =>
      simp only [List.append_assoc, List.cons_append]
      exact .cons one two ih

theorem Listed.concat (listed : Listed items chars) (nonempty : items ≠ [])
    (blank : Blanks before) (blankAfter : Blanks after) :
    Listed (items ++ [item]) (chars ++ (before ++ ',' :: (after ++ item))) := by
  cases listed with
  | nil => exact absurd rfl nonempty
  | cons one commas =>
      simp only [List.append_assoc, List.cons_append]
      exact .cons one (commas.concat blank blankAfter)

end Lists

namespace Grammar

variable {text : String} {position stop : Nat} {before chars : List Char}

def Behind (text : String) (position : Nat) (before : List Char) : Prop :=
  ∃ rest, text.toList = before ++ rest ∧ position = byteLength before

theorem Behind.onward (behind : Behind text position before) :
    ∃ rest, (Text.ofString text).Onward position rest := by
  obtain ⟨rest, split, rfl⟩ := behind
  exact ⟨rest, before, by rw [← split, String.ofList_toList], rfl⟩

theorem Behind.append (behind : Behind text position before)
    (between : (Text.ofString text).Between position chars stop) :
    Behind text stop (before ++ chars) := by
  obtain ⟨rest, split, rfl⟩ := behind
  obtain ⟨after, here, rfl⟩ := between
  have whole : (Text.ofString text).Onward (byteLength before) rest :=
    ⟨before, by rw [← split, String.ofList_toList], rfl⟩
  rw [whole.unique here, ← List.append_assoc] at split
  exact ⟨after, split, (byteLength_append _ _).symm⟩

/-! ## Welcome calls -/

def Nonterminal.Shape (one : Nonterminal) (chars : List Char) : Prop :=
  ∃ symbol, one.Denotes chars symbol

/-- The characters in front of a call can be completed, also after all that a rule denotes. -/
def Welcome (text : String) (parser : Rule) (position : Nat) : Prop :=
  ∃ before, Behind text position before ∧ Viable before ∧
    ∀ one : Nonterminal, parser.tag = some one.tag → Hosts one.Shape before

/-- The parser makes welcome calls wherever characters of a shape may follow. -/
def Guides (text : String) (inner : Rule) (shape : List Char → Prop) : Prop :=
  ∀ position before, Behind text position before → Viable before → Hosts shape before →
    (reading text).Invites (explaining text) (Welcome text) (.call inner) position

/-- What the parser matches are characters of a shape. -/
def Covers (text : String) (inner : Rule) (shape : List Char → Prop) : Prop :=
  ∀ position rest matched, (Text.ofString text).Onward position rest →
    (reading text).Answers (explaining text) inner position (.ok matched) →
    ∃ chars, (Text.ofString text).Between position chars matched.span.stop ∧ shape chars

section Vocabulary

variable {shape shapeToo : List Char → Prop} {first second inner item separator : Rule}

/-- What stands in front of a call, and then what the call has matched. -/
theorem Covers.behind (covers : Covers text inner shape) (behind : Behind text position before)
    {matched : Match Value} (answers : (reading text).Answers (explaining text) inner position
      (.ok matched)) :
    ∃ chars, shape chars ∧ Behind text matched.span.stop (before ++ chars) := by
  obtain ⟨rest, here⟩ := behind.onward
  obtain ⟨chars, between, shaped⟩ := covers _ _ _ here answers
  exact ⟨chars, shaped, behind.append between⟩

theorem Covers.mono (covers : Covers text inner shape)
    (wider : ∀ chars, shape chars → shapeToo chars) : Covers text inner shapeToo := by
  intro position rest matched here answers
  obtain ⟨chars, between, shaped⟩ := covers _ _ _ here answers
  exact ⟨chars, between, wider chars shaped⟩

theorem Tells.covers (tells : Tells text (explaining text) inner shape) :
    Covers text inner shape := by
  intro position rest matched here answers
  obtain ⟨chars, between, shaped, -⟩ := tells _ _ _ here answers
  exact ⟨chars, between, shaped⟩

theorem Covers.rule (one : Nonterminal) : Covers text one.parser one.Shape := by
  intro position rest matched here answers
  obtain ⟨chars, between, denoted⟩ := call_answers one here answers
  exact ⟨chars, between, _, denoted⟩

theorem Covers.literal (wanted : String) :
    Covers text (.literal wanted) fun chars => chars = wanted.toList :=
  (Tells.literal wanted).covers

theorem Covers.both {combine : Value → Value → Value} (covers : Covers text first shape)
    (coversToo : Covers text second shapeToo) :
    Covers text (.both first second combine) (Joined shape shapeToo) := by
  intro position rest matched here answers
  obtain ⟨one, two, answersFirst, answersSecond, -, stops⟩ := answers.of_both
  obtain ⟨front, between, shaped⟩ := covers _ _ _ here answersFirst
  obtain ⟨more, -, there⟩ := between.onward
  obtain ⟨back, betweenToo, shapedToo⟩ := coversToo _ _ _ there answersSecond
  rw [← stops] at betweenToo
  exact ⟨front ++ back, between.append betweenToo, front, back, shaped, shapedToo, rfl⟩

theorem Covers.token (covers : Covers text inner shape) :
    Covers text (token inner) (Joined Blanks shape) :=
  .both ((Covers.rule .whitespace).mono fun _ ⟨_, blank⟩ => blank) covers

theorem Guides.mono (guides : Guides text inner shape)
    (wider : ∀ chars, shape chars → shapeToo chars) : Guides text inner shapeToo :=
  fun position before behind viable hosts => guides position before behind viable (hosts.mono wider)

/-- A rule is welcome where all that it denotes may follow. -/
theorem Guides.rule (one : Nonterminal) : Guides text one.parser one.Shape := by
  intro position before behind viable hosts
  refine .tagged (by rw [one.tagged]; exact Option.some_ne_none _)
    ⟨before, behind, viable, fun other same => ?_⟩
  cases Nonterminal.tag_injective (Option.some.inj (one.tagged.symm.trans same))
  exact hosts

theorem Guides.untagged (untagged : inner.tag = none)
    (body : ∀ position before, Behind text position before → Viable before → Hosts shape before →
      (reading text).Invites (explaining text) (Welcome text) (.body inner) position) :
    Guides text inner shape := by
  intro position before behind viable hosts
  refine .untagged ⟨before, behind, viable, fun one same => ?_⟩
    (body position before behind viable hosts)
  cases untagged.symm.trans same

theorem Guides.terminal (expectation : String) (probe : Probe Text Part) :
    Guides text (.terminal expectation probe) shape :=
  .untagged rfl fun _ _ _ _ _ => .terminal

theorem Guides.wrap {kind : Option Kind} {finish : Finish Part} (guides : Guides text inner shape) :
    Guides text (.wrap none kind inner finish) shape :=
  .untagged rfl fun position before behind viable hosts =>
    .wrap (guides position before behind viable hosts)

theorem Guides.choice {alternatives : List Rule}
    (each : ∀ one ∈ alternatives, Guides text one shape) :
    Guides text (.choice none alternatives) shape :=
  .untagged rfl fun position before behind viable hosts =>
    .choice fun one member => each one member position before behind viable hosts

theorem Guides.both {combine : Value → Value → Value} (covers : Covers text first shape)
    (guides : Guides text first shape) (guidesToo : Guides text second shapeToo)
    (inhabited : ∃ back, shapeToo back) :
    Guides text (.both first second combine) (Joined shape shapeToo) := by
  refine .untagged rfl fun position before behind viable hosts => ?_
  have hostsFirst := hosts.first inhabited
  refine .both (guides position before behind viable hostsFirst) fun matched answers => ?_
  obtain ⟨chars, shaped, behindToo⟩ := covers.behind behind answers
  exact guidesToo _ _ behindToo (hostsFirst chars shaped)
    (hosts.rest fun back shapedToo => ⟨chars, back, shaped, shapedToo, rfl⟩)

theorem Guides.token (guides : Guides text inner shape) (inhabited : ∃ back, shape back) :
    Guides text (token inner) (Joined Blanks shape) :=
  .both ((Covers.rule .whitespace).mono fun _ ⟨_, blank⟩ => blank)
    ((Guides.rule .whitespace).mono fun _ ⟨_, blank⟩ => blank) guides inhabited

/-- A repetition makes welcome calls if what its item matches can be appended. -/
theorem Guides.repetition {limit : CountLimit} (covers : Covers text item shape)
    (guides : Guides text item shape) (nil : shapeToo [])
    (append : ∀ front back, shapeToo front → shape back → shapeToo (front ++ back)) :
    Guides text (.repetition none item limit) shapeToo := by
  refine .untagged rfl fun position before behind viable hosts => ?_
  refine .repetition (fun place => ∃ front, shapeToo front ∧ Behind text place (before ++ front))
    ?_ ?_ ⟨[], nil, by rwa [List.append_nil]⟩
  · rintro place ⟨front, shaped, behindToo⟩
    exact guides _ _ behindToo (hosts front shaped)
      (hosts.rest fun back => append front back shaped)
  · rintro place matched ⟨front, shaped, behindToo⟩ answers
    obtain ⟨back, shapedBack, behindBoth⟩ := covers.behind behindToo answers
    rw [List.append_assoc] at behindBoth
    exact ⟨front ++ back, append front back shaped shapedBack, behindBoth⟩

/-- A list makes welcome calls if a separator and an item can be appended to a list with items. -/
theorem Guides.separated {shapeNext : List Char → Prop} (covers : Covers text item shape)
    (guides : Guides text item shape)
    (coversNext : Covers text (separator.ignoreThen item) shapeNext)
    (guidesNext : Guides text (separator.ignoreThen item) shapeNext)
    (single : ∀ chars, shape chars → shapeToo chars)
    (append : ∀ front back, shapeToo front → shapeNext back → shapeToo (front ++ back)) :
    Guides text (.separated none item separator) shapeToo := by
  refine .untagged rfl fun position before behind viable hosts => ?_
  refine .separated (fun place => ∃ front, shapeToo front ∧ Behind text place (before ++ front))
    (guides _ _ behind viable (hosts.mono single)) ?_ ?_ ?_
  · intro matched answers
    obtain ⟨chars, shaped, behindToo⟩ := covers.behind behind answers
    exact ⟨chars, single chars shaped, behindToo⟩
  · rintro place ⟨front, shaped, behindToo⟩
    exact guidesNext _ _ behindToo (hosts front shaped)
      (hosts.rest fun back => append front back shaped)
  · rintro place matched ⟨front, shaped, behindToo⟩ answers
    obtain ⟨back, shapedBack, behindBoth⟩ := coversNext.behind behindToo answers
    rw [List.append_assoc] at behindBoth
    exact ⟨front ++ back, append front back shaped shapedBack, behindBoth⟩

end Vocabulary

section Strings

def Content (chars : List Char) : Prop := ∃ decoded, IsContent chars decoded

def StringLiteral (chars : List Char) : Prop := ∃ string, IsString chars string

theorem stringPart_covers : Covers text stringPart Content := by
  intro position rest matched here answers
  obtain ⟨part, decoded, between, extended, -⟩ :=
    stringPart_answers here ⟨matched, answers, rfl, rfl⟩
  have isContent := extended [] [] .nil
  rw [List.append_nil, List.append_nil] at isContent
  exact ⟨part, between, decoded, isContent⟩

theorem string_covers : Covers text string StringLiteral := by
  intro position rest matched here answers
  obtain ⟨part, string, between, isString, -⟩ := string_answers here answers
  exact ⟨part, between, string, isString⟩

theorem stringPart_guides : Guides text stringPart Content := by
  refine .choice fun one member => ?_
  simp only [List.mem_cons, List.not_mem_nil, or_false] at member
  rcases member with rfl | rfl
  · exact .terminal _ _
  · refine (Guides.rule .escape).mono ?_
    rintro chars ⟨_, c, isEscape, -⟩
    have isContent := IsContent.escape isEscape .nil
    rw [List.append_nil] at isContent
    exact ⟨[c], isContent⟩

theorem content_guides : Guides text (Parser.many stringPart) Content := by
  refine .repetition stringPart_covers stringPart_guides ⟨[], .nil⟩ ?_
  rintro front back ⟨decoded, isContent⟩ ⟨decodedToo, isContentToo⟩
  exact ⟨_, isContent.append isContentToo⟩

theorem content_covers : Covers text (Parser.many stringPart) Content := by
  intro position rest matched here answers
  obtain ⟨symbols, -, chain⟩ := Setting.Answers.of_many answers
  obtain ⟨content, decoded, between, isContent, -⟩ := content_answers chain here
  exact ⟨content, between, decoded, isContent⟩

theorem string_guides : Guides text string StringLiteral := by
  have guides : Guides text string (Joined (Joined (fun chars => chars = "\"".toList) Content)
      fun chars => chars = "\"".toList) :=
    .wrap (.both ((Covers.literal "\"").both content_covers)
      (.both (.literal "\"") (.terminal _ _) content_guides ⟨[], [], .nil⟩) (.terminal _ _)
      ⟨_, rfl⟩)
  refine guides.mono ?_
  rintro _ ⟨_, _, ⟨_, content, rfl, ⟨decoded, isContent⟩, rfl⟩, rfl, rfl⟩
  exact ⟨_, .quoted isContent⟩

/-- What stands after the first characters of an escape. -/
def EscapeAfter (front chars : List Char) : Prop := ∃ c, IsEscape (front ++ chars) c

theorem unicodeEscape_guides : Guides text unicodeEscape (EscapeAfter ['\\']) := by
  have guides : Guides text unicodeEscape
      (Joined (fun chars => chars = "u".toList) (EscapeAfter ['\\', 'u'])) :=
    .wrap (.both (.literal "u") (.terminal _ _) (.terminal _ _)
      ⟨['0', '0', '4', '1'], _, .point ⟨rfl, forall_mem_of_all (by decide)⟩ (by decide)⟩)
  refine guides.mono ?_
  rintro _ ⟨_, digits, rfl, ⟨c, isEscape⟩, rfl⟩
  exact ⟨c, isEscape⟩

theorem escape_guides : Guides text ((Parser.literal "\\").ignoreThen
    (.oneOf [shortEscape, unicodeEscape])) fun chars => ∃ c, IsEscape chars c := by
  have alternatives : Guides text (.oneOf [shortEscape, unicodeEscape]) (EscapeAfter ['\\']) := by
    refine .choice fun one member => ?_
    simp only [List.mem_cons, List.not_mem_nil, or_false] at member
    rcases member with rfl | rfl
    · exact .wrap (.terminal _ _)
    · exact unicodeEscape_guides
  refine Guides.mono (.both (.literal "\\") (.terminal _ _) alternatives
    ⟨['n'], '\n', .short (by decide)⟩) ?_
  rintro _ ⟨_, after, rfl, ⟨c, isEscape⟩, rfl⟩
  exact ⟨c, isEscape⟩

end Strings

theorem digits_guides {shape : List Char → Prop} (limit : CountLimit) :
    Guides text (digits limit) shape :=
  .terminal _ _

theorem exists_digits : ∃ chars, Digits chars :=
  ⟨['0'], List.cons_ne_nil _ _, forall_mem_of_all (by decide)⟩

theorem integer_guides : Guides text integer IsWhole := by
  refine .choice fun one member => ?_
  simp only [List.mem_cons, List.not_mem_nil, or_false] at member
  rcases member with rfl | rfl
  · exact .terminal _ _
  · have more : Guides text (digits (.atLeast 0)) fun chars => ∀ c ∈ chars, IsDigit c :=
      digits_guides _
    refine .wrap (Guides.mono (.both (Tells.charIn _).covers (.terminal _ _) more
      ⟨[], fun _ none => absurd none List.not_mem_nil⟩) ?_)
    rintro _ ⟨_, digits, ⟨c, contains, rfl⟩, all, rfl⟩
    obtain ⟨digit, notZero⟩ := (positive_iff c).mp contains
    exact .positive digit notZero all

theorem fraction_guides : Guides text fraction IsFraction := by
  refine .wrap (Guides.mono (.both (.literal ".") (.terminal _ _) (digits_guides _)
    exists_digits) ?_)
  rintro _ ⟨_, digits, rfl, all, rfl⟩
  exact .present all

theorem exponent_guides : Guides text exponent IsExponent := by
  refine .wrap (Guides.mono (.both ((Tells.charIn _).covers.both sign_tells.covers)
    (.both (Tells.charIn _).covers (.terminal _ _) (.wrap (.terminal _ _)) ⟨[], List.mem_cons_self⟩)
    (digits_guides _) exists_digits) ?_)
  rintro _ ⟨_, digits, ⟨_, sign, ⟨mark, contains, rfl⟩, signed, rfl⟩, all, rfl⟩
  exact .present ((CharSet.contains_ofString _ mark).mp contains) signed all

theorem numberLiteral_guides : Guides text numberLiteral IsNumber := by
  have front : Covers text ((Parser.literal "-").maybe.followedBy integer)
      (Joined (fun sign => sign ∈ [[], ['-']]) IsWhole) :=
    minus_tells.covers.both integer_tells.covers
  refine Guides.mono (.both (front.both (fraction_tells.maybe .absent).covers)
    (.both front (.both minus_tells.covers (.wrap (.terminal _ _)) integer_guides ⟨['0'], .zero⟩)
      (.wrap fraction_guides) ⟨[], .absent⟩) (.wrap exponent_guides) ⟨[], .absent⟩) ?_
  rintro _ ⟨_, exponent, ⟨_, fraction, ⟨minus, whole, signed, isWhole, rfl⟩, isFraction, rfl⟩,
    isExponent, rfl⟩
  rw [List.append_assoc, List.append_assoc]
  exact .parts signed isWhole isFraction isExponent

section Lists

variable {denotes : List Char → Value → Prop} {item : Rule}

def PaddedShape (denotes : List Char → Value → Prop) (chars : List Char) : Prop :=
  ∃ symbol, Padded denotes chars symbol

def ListShape (denotes : List Char → Value → Prop) (chars : List Char) : Prop :=
  ∃ pairs : List (List Char × Value), (∀ pair ∈ pairs, denotes pair.1 pair.2) ∧
    Listed (pairs.map Prod.fst) chars

def InhabitedListShape (denotes : List Char → Value → Prop) (chars : List Char) : Prop :=
  ∃ pairs : List (List Char × Value), pairs ≠ [] ∧ (∀ pair ∈ pairs, denotes pair.1 pair.2) ∧
    Listed (pairs.map Prod.fst) chars

theorem sign_covers (wanted : String) : Covers text (token (.literal wanted))
    (Joined Blanks fun chars => chars = wanted.toList) :=
  (Covers.literal wanted).token

theorem sign_guides (wanted : String) : Guides text (token (.literal wanted))
    (Joined Blanks fun chars => chars = wanted.toList) :=
  .token (.terminal _ _) ⟨_, rfl⟩

theorem list_guides (covers : Covers text item (PaddedShape denotes))
    (guides : Guides text item (PaddedShape denotes))
    (inhabited : ∃ chars, PaddedShape denotes chars) :
    Guides text (item.list (token (.literal ","))) (ListShape denotes) := by
  -- No comma can be appended to the empty list, so the list is known to have items once it goes on.
  have nonempty : Guides text (item.list (token (.literal ","))) (InhabitedListShape denotes) := by
    refine .separated covers guides ((sign_covers ",").both covers)
      (.both (sign_covers ",") (sign_guides ",") guides inhabited) ?_ ?_
    · rintro _ ⟨symbol, before, rest, blank, denoted, rfl⟩
      have listed : Listed [rest] (before ++ (rest ++ [])) := .cons blank .nil
      rw [List.append_nil] at listed
      refine ⟨[(rest, symbol)], List.cons_ne_nil _ _, fun pair member => ?_, listed⟩
      rw [List.mem_singleton.mp member]
      exact denoted
    · rintro front _ ⟨pairs, nonempty, all, listed⟩
        ⟨_, _, ⟨blanks, _, blank, rfl, rfl⟩, ⟨symbol, before, rest, blankAfter, denoted, rfl⟩, rfl⟩
      refine ⟨pairs ++ [(rest, symbol)], List.append_ne_nil_of_left_ne_nil nonempty _, ?_, ?_⟩
      · intro pair member
        rcases List.mem_append.mp member with member | member
        · exact all pair member
        · rw [List.mem_singleton.mp member]
          exact denoted
      · rw [List.map_append, List.append_assoc]
        exact listed.concat (by simpa using nonempty) blank blankAfter
  exact nonempty.mono fun chars ⟨pairs, _, all, listed⟩ => ⟨pairs, all, listed⟩

theorem list_covers (tells : TellsItem text item denotes) :
    Covers text (item.list (token (.literal ","))) (ListShape denotes) := by
  intro position rest matched here answers
  obtain ⟨pairs, chars, all, listed, between, -⟩ := list_answers tells here answers
  exact ⟨chars, between, pairs, all, listed⟩

def Enclosed (opening closing : String) (denotes : List Char → Value → Prop) : List Char → Prop :=
  Joined (Joined (Joined Blanks fun chars => chars = opening.toList) (ListShape denotes))
    (Joined Blanks fun chars => chars = closing.toList)

theorem bracketed_guides (opening closing : String) (tells : TellsItem text item denotes)
    (guides : Guides text item (PaddedShape denotes))
    (inhabited : ∃ chars, PaddedShape denotes chars) :
    Guides text (bracketed opening closing item) (Enclosed opening closing denotes) := by
  have covers : Covers text item (PaddedShape denotes) := by
    intro position rest matched here answers
    obtain ⟨chars, between, denoted⟩ := tells _ _ _ here answers
    exact ⟨chars, between, _, denoted⟩
  have noItems : ListShape denotes [] := ⟨[], fun _ none => absurd none List.not_mem_nil, .nil⟩
  exact .both ((sign_covers opening).both (list_covers tells))
    (.both (sign_covers opening) (sign_guides opening) (list_guides covers guides inhabited)
      ⟨[], noItems⟩) (sign_guides closing) ⟨_, [], _, noBlanks, rfl, rfl⟩

end Lists

/-! ## Rules -/

theorem exists_value : ∃ chars, Nonterminal.value.Shape chars :=
  ⟨_, _, [], "null".toList, noBlanks, ⟨_, .null, rfl⟩, rfl⟩

/-- The body of a rule makes welcome calls where all that the rule denotes may follow. -/
def BodyGuides (text : String) (one : Nonterminal) : Prop :=
  ∀ position before, Behind text position before → Viable before → Hosts one.Shape before →
    (reading text).Invites (explaining text) (Welcome text) (.body one.parser) position

theorem bodyGuides_labelled {one : Nonterminal} {inner : Rule}
    (labelled : one.parser = inner.labelled one.tag) (guides : Guides text inner one.Shape) :
    BodyGuides text one := by
  intro position before behind viable hosts
  rw [labelled]
  exact .wrap (guides position before behind viable hosts)

theorem property_guides : BodyGuides text .property := by
  refine bodyGuides_labelled rfl ?_
  have key : Covers text ((token string).thenIgnore (token (.literal ":")))
      (Joined (Joined Blanks StringLiteral) (Joined Blanks fun chars => chars = ":".toList)) :=
    string_covers.token.both (sign_covers ":")
  refine Guides.mono (.both key (.both string_covers.token
    (.token string_guides ⟨_, _, .quoted .nil⟩) (sign_guides ":") ⟨_, [], _, noBlanks, rfl, rfl⟩)
    (.rule .value) exists_value) ?_
  rintro _ ⟨_, _, ⟨_, _, ⟨blanks, literal, blank, ⟨name, isString⟩, rfl⟩,
    ⟨before, _, blankBefore, rfl, rfl⟩, rfl⟩,
    ⟨_, after, chars, blankAfter, ⟨json, isValue, rfl⟩, rfl⟩, rfl⟩
  let member : Member := ⟨literal, name, before, after, chars, json, isString, blankBefore,
    blankAfter⟩
  refine ⟨_, blanks, member.spelled, blank, ⟨member, isValue, rfl, rfl⟩, ?_⟩
  simp only [List.append_assoc]
  rfl

theorem exists_member : ∃ chars, PaddedShape MemberOf chars := by
  let member : Member := ⟨_, _, [], [], "null".toList, .null, .quoted .nil, noBlanks, noBlanks⟩
  exact ⟨_, _, [], member.spelled, noBlanks, ⟨member, .null, rfl, rfl⟩, rfl⟩

theorem object_guides : BodyGuides text .object := by
  refine bodyGuides_labelled rfl (.wrap (.wrap ?_))
  refine (bracketed_guides "\x7b" "\x7d" property_tells (.rule .property) exists_member).mono ?_
  rintro _ ⟨_, _, ⟨_, chars, ⟨before, _, blank, rfl, rfl⟩, ⟨pairs, each, listed⟩, rfl⟩,
    ⟨blanks, _, blankAfter, rfl, rfl⟩, rfl⟩
  obtain ⟨members, values, rfl⟩ := exists_members each
  rw [List.map_map] at listed
  refine ⟨_, before, _, blank,
    ⟨_, .object members values listed blankAfter (orderMembers_lastWins _), rfl⟩, ?_⟩
  simp only [List.append_assoc]
  rfl

theorem array_guides : BodyGuides text .array := by
  refine bodyGuides_labelled rfl (.wrap ?_)
  refine (bracketed_guides "[" "]" value_tells (.rule .value) exists_value).mono ?_
  rintro _ ⟨_, _, ⟨_, chars, ⟨before, _, blank, rfl, rfl⟩, ⟨pairs, each, listed⟩, rfl⟩,
    ⟨blanks, _, blankAfter, rfl, rfl⟩, rfl⟩
  obtain ⟨items, values, rfl⟩ := exists_items each
  rw [List.map_map] at listed
  refine ⟨_, before, _, blank, ⟨_, .array items values listed blankAfter, rfl⟩, ?_⟩
  simp only [List.append_assoc]
  rfl

theorem number_guides : BodyGuides text .number := by
  refine bodyGuides_labelled rfl (.wrap (.wrap ?_))
  have zero : IsNumber ['0'] := .parts List.mem_cons_self .zero .absent .absent
  refine (Guides.token numberLiteral_guides ⟨_, zero⟩).mono ?_
  rintro _ ⟨blanks, chars, blank, isNumber, rfl⟩
  exact ⟨_, blanks, chars, blank, ⟨_, .number isNumber, rfl⟩, rfl⟩

theorem string_bodyGuides : BodyGuides text .string := by
  refine bodyGuides_labelled rfl (.wrap ?_)
  refine (Guides.token string_guides ⟨_, _, .quoted .nil⟩).mono ?_
  rintro _ ⟨blanks, chars, blank, ⟨string, isString⟩, rfl⟩
  exact ⟨_, blanks, chars, blank, ⟨_, .string isString, rfl⟩, rfl⟩

theorem boolean_guides : BodyGuides text .boolean := by
  refine bodyGuides_labelled rfl (.wrap ?_)
  have truths : Guides text (.oneOf [
      (Parser.literal "true").map fun _ => .atom (.truth true),
      (Parser.literal "false").map fun _ => .atom (.truth false)])
      fun chars => ∃ truth, IsValue chars (.bool truth) := by
    refine .choice fun one member => ?_
    simp only [List.mem_cons, List.not_mem_nil, or_false] at member
    rcases member with rfl | rfl <;> exact .wrap (.terminal _ _)
  refine (Guides.token truths ⟨_, _, .yes⟩).mono ?_
  rintro _ ⟨blanks, chars, blank, ⟨truth, isValue⟩, rfl⟩
  exact ⟨_, blanks, chars, blank, ⟨_, isValue, rfl⟩, rfl⟩

theorem null_guides : BodyGuides text .null := by
  refine bodyGuides_labelled rfl (.wrap ?_)
  refine (sign_guides "null").mono ?_
  rintro _ ⟨blanks, _, blank, rfl, rfl⟩
  exact ⟨_, blanks, _, blank, ⟨_, .null, rfl⟩, rfl⟩

theorem value_guides : BodyGuides text .value := by
  intro position before behind viable hosts
  have resolved : (reading text).arena.resolve ⟨"value"⟩ 0 = .ok valueRule := rfl
  refine .handle resolved ?_
  rw [valueRule_eq]
  refine .choice fun parser member => ?_
  obtain ⟨one, isAlternative, rfl⟩ := List.mem_map.mp member
  refine Guides.rule one position before behind viable (hosts.mono ?_)
  simp only [Nonterminal.alternatives, List.mem_cons, List.not_mem_nil, or_false] at isAlternative
  rcases isAlternative with rfl | rfl | rfl | rfl | rfl | rfl <;> exact fun _ => id

theorem rule_guides (one : Nonterminal) : BodyGuides text one := by
  cases one with
  | whitespace => exact bodyGuides_labelled rfl (.terminal _ _)
  | escape =>
      refine bodyGuides_labelled rfl (.wrap (escape_guides.mono ?_))
      exact fun chars ⟨c, isEscape⟩ => ⟨_, c, isEscape, rfl⟩
  | property => exact property_guides
  | object => exact object_guides
  | array => exact array_guides
  | number => exact number_guides
  | string => exact string_bodyGuides
  | boolean => exact boolean_guides
  | null => exact null_guides
  | value => exact value_guides

/-- A rule passes on to its calls what can follow it. -/
theorem rules_passOn (text : String) :
    (reading text).PassesOn (Parser.Linked rules) (explaining text) (Welcome text) := by
  intro parser position linked tagged welcomed
  obtain ⟨before, behind, viable, hosts⟩ := welcomed
  cases linked with
  | rule tag => exact rule_guides _ position before behind viable (hosts _ (Nonterminal.tagged _))
  | _ => exact absurd rfl tagged

theorem document_covers : Covers text document
    (Joined Nonterminal.value.Shape Nonterminal.whitespace.Shape) :=
  (Covers.rule .value).both (Covers.rule .whitespace)

theorem document_guides : Guides text document
    (Joined Nonterminal.value.Shape Nonterminal.whitespace.Shape) :=
  .both (Covers.rule .value) (.rule .value) (.rule .whitespace) ⟨[], .unit, noBlanks⟩

theorem hosts_document :
    Hosts (Joined Nonterminal.value.Shape Nonterminal.whitespace.Shape) [] := by
  rintro _ ⟨_, blanks, ⟨_, before, chars, blank, ⟨json, isValue, -⟩, rfl⟩, ⟨_, blankAfter⟩, rfl⟩
  refine ⟨[], json, ?_⟩
  rw [List.nil_append, List.append_nil, List.append_assoc]
  exact .value blank isValue blankAfter

/-- Everything that happens in a parse happens where a JSON text can be completed. -/
theorem parseHistory_viable (text : String) (steps : Nat) :
    ∀ deed ∈ (reading text).parseHistory steps document,
      (∃ before, Behind text deed.call.position before ∧ Viable before) ∧
      (deed.Fails → ∃ mismatch, deed.outcome? = some (.error mismatch)) := by
  have start : Behind text 0 [] := ⟨text.toList, rfl, rfl⟩
  have viable : Viable [] := ⟨_, .null, IsValue.null.isDocument⟩
  have invites := document_guides 0 [] start viable hosts_document
  have guided := Setting.parseHistory_guided (rules_grammar text) (rules_explained text)
    (rules_passOn text) document_linked (.terminal _ _) invites (fun matched answers => ?_) steps
  · intro deed member
    obtain ⟨⟨one, before, behind, viable, -⟩, seen⟩ := guided deed member
    exact ⟨⟨before, behind, viable⟩, seen⟩
  · obtain ⟨chars, shaped, behind⟩ := document_covers.behind start answers
    refine ⟨[] ++ chars, behind, hosts_document chars shaped, fun one same => ?_⟩
    cases same

/-- A JSON text is rejected if more stands behind it. -/
theorem rejects_trailing {source : String} {chars rest : List Char} {json : Json}
    (split : source.toList = chars ++ rest) (isDocument : IsDocument chars json)
    (solid : Solid rest) (ended : Ended rest) (more : rest ≠ []) :
    ∃ steps error final, parse steps source = .done (.error error) final := by
  have here : (Text.ofString source).Onward 0 (chars ++ rest) := split ▸ Text.onward_zero source
  obtain ⟨_, ends⟩ := (document_reads isDocument solid ended here).ends_fresh
  have stops : byteLength chars < Input.size (Text.ofString source) := by
    have positive := byteLength_pos more
    rw [here.size_eq, byteLength_append]
    omega
  obtain ⟨steps, _, final, done⟩ := Setting.parse_eq_error ends stops
  exact ⟨steps, _, _, Run.andThen_eq_done_iff.mpr ⟨_, final, done, rfl⟩⟩

end Grammar

open Grammar

/--
A text that is rejected is blamed on a position between two of its characters.  It is the farthest
position where a call of the grammar or the requirement of the end of the input has failed, and
the characters in front of it can be completed to a text that is accepted.
-/
theorem rejection_blames_viable (source : String) (steps : Nat) (error : ParseError)
    (final : State Part) (rejected : parse steps source = .done (.error error) final) :
    ∃ farthest before rest, error.farthest = some farthest ∧ source = before ++ rest ∧
      farthest.position = before.utf8ByteSize ∧
      (∃ deed ∈ (reading source).parseHistory steps document, deed.Fails ∧
        deed.call.position = farthest.position) ∧
      (∀ deed ∈ (reading source).parseHistory steps document, deed.Fails →
        deed.call.position ≤ farthest.position) ∧
      ∃ completion json steps final,
        parse steps (before ++ completion) = .done (.ok json) final := by
  obtain ⟨result, middle, done, same⟩ := Run.andThen_eq_done_iff.mp rejected
  cases result with
  | ok symbol => cases same
  | error other =>
      cases same
      have viable := parseHistory_viable source steps
      obtain ⟨farthest, told, -, -, ⟨deed, member, fails, attained⟩, bound⟩ :=
        Setting.parse_farthest done fun deed member => (viable deed member).2
      obtain ⟨⟨before, ⟨rest, split, place⟩, after, json, isDocument⟩, -⟩ := viable deed member
      refine ⟨farthest, String.ofList before, String.ofList rest, told, ?_, ?_,
        ⟨deed, member, fails, attained⟩, bound, String.ofList after, json, ?_⟩
      · rw [← String.ofList_append, ← split, String.ofList_toList]
      · rw [← attained, place, size_ofList]
      · refine IsDocument.parses ?_
        rwa [← String.ofList_append, String.toList_ofList]

/-- An array with one more bracket behind it is rejected. -/
theorem rejection_blames_viable_bracket : ∃ steps error final,
    parse steps "[]]" = .done (.error error) final ∧
      ∃ farthest before rest, error.farthest = some farthest ∧ "[]]" = before ++ rest ∧
        farthest.position = before.utf8ByteSize ∧
        (∃ deed ∈ (reading "[]]").parseHistory steps document, deed.Fails ∧
          deed.call.position = farthest.position) ∧
        (∀ deed ∈ (reading "[]]").parseHistory steps document, deed.Fails →
          deed.call.position ≤ farthest.position) ∧
        ∃ completion json steps final,
          parse steps (before ++ completion) = .done (.ok json) final := by
  have isValue : IsValue ['[', ']'] (.array []) := .array [] nofun .nil noBlanks
  obtain ⟨steps, error, final, rejected⟩ := rejects_trailing
    (show "[]]".toList = ['[', ']'] ++ [']'] from rfl) isValue.isDocument
    (solid_cons (by decide)) (ended_cons (by decide)) (List.cons_ne_nil _ _)
  exact ⟨steps, error, final, rejected, rejection_blames_viable "[]]" steps error final rejected⟩

end Packrat.Json
