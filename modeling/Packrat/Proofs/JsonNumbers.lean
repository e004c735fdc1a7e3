import Packrat.Proofs.JsonRules

/-!
# Numbers of the JSON grammar

The parts of a number are read one after the other, and each of them as far as possible.  A
number is therefore read as a whole if none of its parts can go on after it.  The literal of
which the double is taken has exactly the characters that were read.
-/

namespace Packrat.Json

theorem Digits.least {part : List Char} (all : Digits part) : 1 ≤ part.length :=
  List.length_pos_iff.mpr all.1

theorem digits_of_least {part : List Char} (enough : 1 ≤ part.length)
    (all : ∀ c ∈ part, IsDigit c) : Digits part :=
  ⟨List.length_pos_iff.mp enough, all⟩

namespace Grammar

variable {text : String} {allowed : Answering Text Part} {position : Nat}
  {part rest front back whole : List Char} {first second : Rule} {matched : Match Value}

/-- The parser matches the characters, which are the text of its symbol. -/
def Takes (text : String) (allowed : Answering Text Part) (inner : Rule) (position : Nat)
    (part : List Char) : Prop :=
  ∃ symbol, (reading text).Matches allowed inner position symbol (position + byteLength part) ∧
    textOf symbol = String.ofList part

theorem Takes.literal (wanted : String)
    (here : (Text.ofString text).Onward position (wanted.toList ++ rest)) :
    Takes text allowed (.literal wanted) position wanted.toList :=
  ⟨_, literal_matches wanted here, String.ofList_toList.symm⟩

theorem Takes.charIn {set : CharSet} {c : Char}
    (here : (Text.ofString text).Onward position (c :: rest)) (contains : set.contains c = true) :
    Takes text allowed (.charIn set) position [c] :=
  ⟨_, charIn_matches here contains, rfl⟩

theorem Takes.followedBy (takes : Takes text allowed first position front)
    (takesToo : Takes text allowed second (position + byteLength front) back) :
    Takes text allowed (first.followedBy second) position (front ++ back) := by
  obtain ⟨one, reads, same⟩ := takes
  obtain ⟨other, readsToo, sameToo⟩ := takesToo
  refine ⟨_, both_matches reads readsToo, ?_⟩
  rw [String.ofList_append, ← same, ← sameToo]
  rfl

theorem Takes.joined (takes : Takes text allowed first position part) :
    Takes text allowed (first.map joined) position part := by
  obtain ⟨symbol, reads, same⟩ := takes
  exact ⟨_, .map reads, same⟩

theorem Takes.maybe (present : part ≠ [] → Takes text allowed first position part)
    (absent : part = [] → (reading text).Misses allowed first position) :
    Takes text allowed first.maybe position part := by
  by_cases none : part = []
  · rw [none]
    exact ⟨_, (absent none).maybe, rfl⟩
  · obtain ⟨symbol, reads, same⟩ := present none
    exact ⟨_, .maybe reads, same⟩

def NoDigit (rest : List Char) : Prop := ∀ c, rest.head? = some c → ¬ IsDigit c

theorem Takes.digits {least : Nat} (here : (Text.ofString text).Onward position (part ++ rest))
    (all : ∀ c ∈ part, IsDigit c) (noDigit : NoDigit rest) (enough : least ≤ part.length) :
    Takes text allowed (digits (.atLeast least)) position part := by
  refine ⟨_, charsIn_matches here (fun c member => (contains_digits c).mpr (all c member))
    (fun c first => ?_) enough, rfl⟩
  rw [Bool.eq_false_iff]
  exact fun contains => noDigit c first ((contains_digits c).mp contains)

theorem positive_iff (c : Char) :
    (CharSet.range '1' '9').contains c = true ↔ IsDigit c ∧ c ≠ '0' := by
  rw [CharSet.contains_range]
  simp only [IsDigit, Char.le_def, UInt32.le_iff_toNat_le, ne_eq, Char.ext_iff, ← UInt32.toNat_inj]
  have zero : ('0' : Char).val.toNat = 48 := rfl
  have one : ('1' : Char).val.toNat = 49 := rfl
  have nine : ('9' : Char).val.toNat = 57 := rfl
  omega

theorem integer_takes (isWhole : IsWhole whole) (noDigit : NoDigit rest)
    (here : (Text.ofString text).Onward position (whole ++ rest)) :
    Takes text allowed integer position whole := by
  cases isWhole with
  | zero =>
      obtain ⟨symbol, reads, same⟩ : Takes text allowed (.literal "0") position ['0'] :=
        .literal "0" here
      exact ⟨symbol, .choice [] rfl nofun reads, same⟩
  | @positive c others digit notZero more =>
      have noZero : (reading text).Misses allowed (.literal "0") position := by
        refine literal_misses here fun starts => notZero ?_
        exact (List.cons_prefix_cons.mp starts).1.symm
      obtain ⟨symbol, reads, same⟩ : Takes text allowed
          (((Parser.charIn (.range '1' '9')).followedBy (digits (.atLeast 0))).map joined) position
          (c :: others) :=
        .joined (.followedBy (.charIn here ((positive_iff c).mpr ⟨digit, notZero⟩))
          (.digits here.tail more noDigit (Nat.zero_le _)))
      refine ⟨symbol, .choice [.literal "0"] rfl ?_ reads, same⟩
      simpa only [List.mem_singleton, forall_eq] using noZero

theorem fraction_takes (isFraction : IsFraction part) (noPoint : rest.head? ≠ some '.')
    (noDigit : NoDigit rest) (here : (Text.ofString text).Onward position (part ++ rest)) :
    Takes text allowed fraction.maybe position part := by
  cases isFraction with
  | absent =>
      refine .maybe (fun present => absurd rfl present) fun _ => ?_
      refine .map (.both_first (literal_misses here ?_))
      rintro ⟨after, rfl⟩
      exact noPoint rfl
  | @present digits all =>
      exact .maybe (fun _ => .joined (.followedBy (.literal "." here)
        (.digits here.tail all.2 noDigit all.least))) nofun

theorem sign_takes {sign : List Char} (signed : sign ∈ [[], ['+'], ['-']])
    (unsigned : ∀ c, rest.head? = some c → c ∉ ['+', '-'])
    (here : (Text.ofString text).Onward position (sign ++ rest)) :
    Takes text allowed (Parser.charIn (.ofString "+-")).maybe position sign := by
  have contains (c : Char) : (CharSet.ofString "+-").contains c = true ↔ c ∈ ['+', '-'] :=
    CharSet.contains_ofString _ c
  simp only [List.mem_cons, List.not_mem_nil, or_false] at signed
  rcases signed with rfl | rfl | rfl
  · refine .maybe (fun present => absurd rfl present) fun _ => charIn_misses here fun c first => ?_
    exact Bool.eq_false_iff.mpr fun found => unsigned c first ((contains c).mp found)
  · exact .maybe (fun _ => .charIn here ((contains _).mpr (by decide))) nofun
  · exact .maybe (fun _ => .charIn here ((contains _).mpr (by decide))) nofun

theorem exponent_takes (isExponent : IsExponent part)
    (noMark : ∀ c, rest.head? = some c → c ∉ ['e', 'E']) (noDigit : NoDigit rest)
    (here : (Text.ofString text).Onward position (part ++ rest)) :
    Takes text allowed exponent.maybe position part := by
  have contains (c : Char) : (CharSet.ofString "eE").contains c = true ↔ c ∈ ['e', 'E'] :=
    CharSet.contains_ofString _ c
  cases isExponent with
  | absent =>
      refine .maybe (fun present => absurd rfl present) fun _ => ?_
      refine .map (.both_first (.both_first (charIn_misses here fun c first => ?_)))
      exact Bool.eq_false_iff.mpr fun found => noMark c first ((contains c).mp found)
  | @present mark sign digits marked signed all =>
      have there : (Text.ofString text).Onward (position + byteLength [mark])
          (sign ++ (digits ++ rest)) := by
        rw [← List.append_assoc]
        exact here.tail
      have after : (Text.ofString text).Onward (position + byteLength ([mark] ++ sign))
          (digits ++ rest) := by
        rw [byteLength_append, ← Nat.add_assoc]
        exact there.append
      have unsigned (c : Char) (first : (digits ++ rest).head? = some c) : c ∉ ['+', '-'] := by
        intro isSign
        have digit := all.first first
        simp only [List.mem_cons, List.not_mem_nil, or_false] at isSign
        rcases isSign with rfl | rfl <;> exact absurd digit (by decide)
      exact .maybe (fun _ => .joined (.followedBy (.followedBy
        (.charIn here ((contains _).mpr marked)) (sign_takes signed unsigned there))
        (.digits after all.2 noDigit all.least))) nofun

/-- What may follow a value: a blank, a comma, or the end of a list. -/
def Ended (rest : List Char) : Prop :=
  ∀ c, rest.head? = some c → c ∈ [' ', '\t', '\n', '\r', ',', ']', '\x7d']

theorem Ended.noDigit (ended : Ended rest) : NoDigit rest := by
  have none : ∀ c ∈ [' ', '\t', '\n', '\r', ',', ']', '\x7d'], ¬ IsDigit c :=
    forall_mem_of_all (by decide)
  exact fun c first => none c (ended c first)

theorem Ended.noMark (ended : Ended rest) (c : Char) (first : rest.head? = some c) :
    c ∉ ['e', 'E'] := by
  have none : ∀ c ∈ [' ', '\t', '\n', '\r', ',', ']', '\x7d'], c ∉ ['e', 'E'] :=
    forall_mem_of_all (by decide)
  exact none c (ended c first)

theorem head_append {c : Char} (first : (front ++ rest).head? = some c) :
    front.head? = some c ∨ rest.head? = some c := by
  cases front with
  | nil => exact .inr first
  | cons d front => exact .inl first

theorem exponent_head {exponent : List Char} (isExponent : IsExponent exponent)
    (ended : Ended rest) {c : Char} (first : (exponent ++ rest).head? = some c) :
    ¬ IsDigit c ∧ c ≠ '.' := by
  have none : ∀ c ∈ ['e', 'E', ' ', '\t', '\n', '\r', ',', ']', '\x7d'], ¬ IsDigit c ∧ c ≠ '.' :=
    forall_mem_of_all (by decide)
  rcases head_append first with first | first
  · exact none c (List.mem_append_left _ (isExponent.head first))
  · exact none c (List.mem_append_right ['e', 'E'] (ended c first))

theorem fraction_head {fraction exponent : List Char} (isFraction : IsFraction fraction)
    (isExponent : IsExponent exponent) (ended : Ended rest) :
    NoDigit (fraction ++ (exponent ++ rest)) := by
  intro c first
  cases isFraction with
  | absent => exact (exponent_head isExponent ended first).1
  | present all =>
      cases first
      decide

def numberLiteral : Rule :=
  (((Parser.maybe (.literal "-")).followedBy integer).followedBy (Parser.maybe fraction)).followedBy
    (Parser.maybe exponent)

/-- A number literal is read as a whole. -/
theorem numberLiteral_takes (number : IsNumber part) (ended : Ended rest)
    (here : (Text.ofString text).Onward position (part ++ rest)) :
    Takes text allowed numberLiteral position part := by
  cases number with
  | @parts minus whole fraction exponent signed isWhole isFraction isExponent =>
      simp only [List.append_assoc] at here
      have minused : Takes text allowed (Parser.literal "-").maybe position minus := by
        simp only [List.mem_cons, List.not_mem_nil, or_false] at signed
        rcases signed with rfl | rfl
        · refine .maybe (fun present => absurd rfl present) fun _ => literal_misses here ?_
          rintro ⟨after, starts⟩
          have digit : IsDigit '-' := isWhole.digits.first (congrArg List.head? starts.symm)
          exact absurd digit (by decide)
        · exact .maybe (fun _ => .literal "-" here) nofun
      have second : (Text.ofString text).Onward (position + byteLength (minus ++ whole))
          (fraction ++ (exponent ++ rest)) := by
        rw [← List.append_assoc] at here
        exact here.append
      have third : (Text.ofString text).Onward
          (position + byteLength ((minus ++ whole) ++ fraction)) (exponent ++ rest) := by
        rw [← List.append_assoc, ← List.append_assoc] at here
        exact here.append
      have integers : Takes text allowed integer (position + byteLength minus) whole :=
        integer_takes isWhole (fraction_head isFraction isExponent ended) here.append
      rw [← List.append_assoc, ← List.append_assoc]
      exact ((minused.followedBy integers).followedBy (fraction_takes isFraction
        (fun point => (exponent_head isExponent ended point).2 rfl)
        (fun c first => (exponent_head isExponent ended first).1) second)).followedBy
        (exponent_takes isExponent ended.noMark ended.noDigit third)

theorem readNumber_eq (number : IsNumber part) {symbol : Value}
    (same : textOf symbol = String.ofList part) :
    readNumber symbol = .ok (.atom (.number number.double)) := by
  unfold readNumber
  rw [same, number.ofLiteral?]

theorem number_solid (number : IsNumber part) : Solid (part ++ rest) := by
  cases number with
  | @parts minus whole fraction exponent signed isWhole isFraction isExponent =>
      simp only [List.mem_cons, List.not_mem_nil, or_false] at signed
      rcases signed with rfl | rfl
      · have none : ∀ c ∈ [' ', '\t', '\n', '\r'], ¬ IsDigit c :=
          forall_mem_of_all (by decide)
        rw [List.nil_append, List.append_assoc]
        exact fun c first blank => none c blank (isWhole.digits.first first)
      · exact solid_cons (by decide)

/-- A number settles on the double of its literal. -/
theorem number_settles {blanks : List Char} (number : IsNumber part) (blank : Blanks blanks)
    (ended : Ended rest)
    (here : (Text.ofString text).Onward position (blanks ++ (part ++ rest))) :
    (reading text).SettlesOk rules Nonterminal.number.tag position
      (jsonSymbol (.number number.double)) (position + byteLength (blanks ++ part)) := by
  obtain ⟨symbol, reads, same⟩ : Takes text (inside text .number position) numberLiteral
    (position + byteLength blanks) part := numberLiteral_takes number ended here.append
  have padded := token_matches (by decide) blank (number_solid number) here reads
  rw [Nat.add_assoc, ← byteLength_append] at padded
  have parsed : (reading text).Matches (inside text .number position) Grammar.number position
      (.atom (.number number.double)) (position + byteLength (blanks ++ part)) :=
    .tryMap padded (readNumber_eq number same)
  exact settles_of_reads (.labelled parsed.map)

/-! ## What matches is a number -/

def Literally (shape : List Char → Prop) (chars : List Char) (symbol : Value) : Prop :=
  shape chars ∧ textOf symbol = String.ofList chars

/-- What the parser matches has a shape and is the text of its symbol. -/
def Tells (text : String) (allowed : Answering Text Part) (inner : Rule)
    (shape : List Char → Prop) : Prop :=
  ∀ position rest matched, (Text.ofString text).Onward position rest →
    (reading text).Answers allowed inner position (.ok matched) →
    Explains text (Literally shape) position matched

variable {shape shapeToo : List Char → Prop}

theorem Tells.mono (tells : Tells text allowed first shape)
    (wider : ∀ chars, shape chars → shapeToo chars) : Tells text allowed first shapeToo := by
  intro position rest matched here answers
  obtain ⟨part, covers, shaped, same⟩ := tells _ _ _ here answers
  exact ⟨part, covers, wider part shaped, same⟩

theorem Tells.literal (wanted : String) :
    Tells text allowed (.literal wanted) fun chars => chars = wanted.toList := by
  intro position rest matched here answers
  obtain ⟨covers, same⟩ := literal_answers here answers
  refine ⟨wanted.toList, covers, rfl, ?_⟩
  rw [same, String.ofList_toList]
  rfl

theorem Tells.charIn (set : CharSet) :
    Tells text allowed (.charIn set) fun chars => ∃ c, set.contains c = true ∧ chars = [c] := by
  intro position rest matched here answers
  obtain ⟨c, covers, contains, same⟩ := charIn_answers here answers
  refine ⟨[c], covers, ⟨c, contains, rfl⟩, ?_⟩
  rw [same]
  rfl

theorem Tells.digits (least : Nat) : Tells text allowed (digits (.atLeast least))
    fun chars => (∀ c ∈ chars, IsDigit c) ∧ least ≤ chars.length := by
  intro position rest matched here answers
  obtain ⟨part, covers, all, enough, same⟩ := charsIn_answers here answers
  refine ⟨part, covers, ⟨fun c member => (contains_digits c).mp (all c member), enough⟩, ?_⟩
  rw [same]
  rfl

theorem Tells.followedBy (tells : Tells text allowed first shape)
    (tellsToo : Tells text allowed second shapeToo) :
    Tells text allowed (first.followedBy second) fun chars =>
      ∃ front back, shape front ∧ shapeToo back ∧ chars = front ++ back := by
  intro position rest matched here answers
  obtain ⟨one, two, first, second, symbol_eq, stops⟩ := answers.of_both
  obtain ⟨front, covers, shaped, same⟩ := tells _ _ _ here first
  obtain ⟨more, -, there⟩ := covers.onward
  obtain ⟨back, coversToo, shapedToo, sameToo⟩ := tellsToo _ _ _ there second
  rw [← stops] at coversToo
  refine ⟨front ++ back, covers.append coversToo, ⟨front, back, shaped, shapedToo, rfl⟩, ?_⟩
  rw [symbol_eq, String.ofList_append, ← same, ← sameToo]
  rfl

theorem Tells.joined (tells : Tells text allowed first shape) :
    Tells text allowed (first.map joined) shape := by
  intro position rest matched here answers
  obtain ⟨one, answers, symbol_eq, stops⟩ := answers.of_map
  obtain ⟨part, covers, shaped, same⟩ := tells _ _ _ here answers
  rw [← stops] at covers
  refine ⟨part, covers, shaped, ?_⟩
  rw [symbol_eq, ← same]
  rfl

theorem Tells.maybe (tells : Tells text allowed first shape) (nothing : shape []) :
    Tells text allowed first.maybe shape := by
  intro position rest matched here answers
  rcases answers.of_maybe with ⟨one, answers, symbol_eq, stops⟩ | ⟨symbol_eq, stops⟩
  · obtain ⟨part, covers, shaped, same⟩ := tells _ _ _ here answers
    rw [← stops] at covers
    refine ⟨part, covers, shaped, ?_⟩
    rw [symbol_eq, ← same]
    rfl
  · refine ⟨[], ?_, nothing, ?_⟩
    · rw [stops]
      exact .nil here
    · rw [symbol_eq]
      rfl

theorem integer_tells : Tells text allowed integer IsWhole := by
  intro position rest matched here answers
  obtain ⟨inner, member, one, answers, symbol_eq, stops⟩ := answers.of_choice
  unfold Explains
  rw [symbol_eq, stops]
  simp only [List.mem_cons, List.not_mem_nil, or_false] at member
  rcases member with rfl | rfl
  · exact (Tells.literal "0").mono (fun chars same => same ▸ .zero) _ _ _ here answers
  · refine Tells.mono (.joined (.followedBy (.charIn _) (.digits 0))) ?_ _ _ _ here answers
    rintro _ ⟨_, digits, ⟨c, contains, rfl⟩, ⟨more, -⟩, rfl⟩
    obtain ⟨digit, notZero⟩ := (positive_iff c).mp contains
    exact .positive digit notZero more

theorem fraction_tells : Tells text allowed fraction IsFraction := by
  refine Tells.mono (.joined (.followedBy (.literal ".") (.digits 1))) ?_
  rintro _ ⟨_, digits, rfl, ⟨all, enough⟩, rfl⟩
  exact .present (digits_of_least enough all)

theorem sign_tells : Tells text allowed (Parser.charIn (.ofString "+-")).maybe
    fun sign => sign ∈ [[], ['+'], ['-']] := by
  refine Tells.maybe ((Tells.charIn _).mono ?_) List.mem_cons_self
  rintro _ ⟨c, contains, rfl⟩
  have member : c ∈ ['+', '-'] := (CharSet.contains_ofString _ c).mp contains
  simp only [List.mem_cons, List.not_mem_nil, or_false] at member
  rcases member with rfl | rfl <;> decide

theorem exponent_tells : Tells text allowed exponent IsExponent := by
  refine Tells.mono (.joined (.followedBy (.followedBy (.charIn _) sign_tells) (.digits 1))) ?_
  rintro _ ⟨_, digits, ⟨_, sign, ⟨mark, contains, rfl⟩, signed, rfl⟩, ⟨all, enough⟩, rfl⟩
  have exponent := IsExponent.present ((CharSet.contains_ofString _ mark).mp contains) signed
    (digits_of_least enough all)
  rwa [← List.cons_append] at exponent

theorem minus_tells :
    Tells text allowed (Parser.literal "-").maybe fun sign => sign ∈ [[], ['-']] :=
  .maybe ((Tells.literal "-").mono fun chars same => same ▸ by decide) List.mem_cons_self

theorem numberLiteral_tells : Tells text allowed numberLiteral IsNumber := by
  refine Tells.mono (.followedBy (.followedBy (.followedBy minus_tells integer_tells)
    (fraction_tells.maybe .absent)) (exponent_tells.maybe .absent)) ?_
  rintro _ ⟨_, exponent, ⟨_, fraction, ⟨minus, whole, signed, isWhole, rfl⟩, isFraction, rfl⟩,
    isExponent, rfl⟩
  rw [List.append_assoc, List.append_assoc]
  exact .parts signed isWhole isFraction isExponent

/-- A number that is matched is the double of a literal after blanks. -/
theorem number_answers (here : (Text.ofString text).Onward position rest)
    (answers : (reading text).Answers (explaining text) Grammar.number position (.ok matched)) :
    Explains text (Padded fun chars symbol => ∃ number : IsNumber chars,
      symbol = .atom (.number number.double)) position matched := by
  obtain ⟨one, answers, read, stops⟩ := Setting.Answers.of_tryMap answers
  obtain ⟨before, middle, two, more, blank, between, there, answers, same, stopsToo⟩ :=
    token_answers here answers
  obtain ⟨chars, covers, number, spelled⟩ := numberLiteral_tells _ _ _ there answers
  rw [← stopsToo, ← stops] at covers
  refine ⟨before ++ chars, between.append covers, before, chars, blank, ⟨number, ?_⟩, rfl⟩
  rw [← same] at spelled
  exact (Except.ok.inj ((readNumber_eq number spelled).symm.trans read)).symm

end Grammar

end Packrat.Json
