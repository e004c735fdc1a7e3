import Packrat.Proofs.EscapePattern
import Packrat.Proofs.JsonRules

/-!
# Strings of the JSON grammar

The parts of a string are runs of unescaped characters and escapes.  An escape by number takes
the escape of a low surrogate along if one follows, whatever its own number is.  Nothing is
lost by that, as the escape of a low surrogate has no meaning of its own.
-/

namespace Packrat.Json.Grammar

open hexValue (hexDigit)

variable {c : Char} {digits chars rest high low : List Char}

/-- A digit has one of sixteen values, and the two that tell low surrogates are known. -/
theorem hexDigit_spec (hex : isHexDigit c = true) : hexDigit c < 16 ∧
    (hexDigit c = 13 ↔ c = 'd' ∨ c = 'D') ∧
    (12 ≤ hexDigit c ↔ isLowSurrogate.isLowSecond c = true) := by
  have points : ('0' : Char).val.toNat = 48 ∧ ('9' : Char).val.toNat = 57 ∧
      ('A' : Char).val.toNat = 65 ∧ ('C' : Char).val.toNat = 67 ∧ ('D' : Char).val.toNat = 68 ∧
      ('F' : Char).val.toNat = 70 ∧ ('a' : Char).val.toNat = 97 ∧ ('c' : Char).val.toNat = 99 ∧
      ('d' : Char).val.toNat = 100 ∧ ('f' : Char).val.toNat = 102 := by decide
  simp only [isHexDigit, hexDigit, isLowSurrogate.isLowSecond, Char.isDigit, Char.le_def,
    UInt32.le_iff_toNat_le, Bool.or_eq_true, Bool.and_eq_true, decide_eq_true_eq, Char.ext_iff,
    ← UInt32.toNat_inj, Char.toNat] at hex ⊢
  split
  · omega
  · split <;> omega

theorem codeUnit_four (first second third fourth : Char) :
    codeUnit [first, second, third, fourth] =
      ((hexDigit first * 16 + hexDigit second) * 16 + hexDigit third) * 16 + hexDigit fourth := by
  simp only [codeUnit, hexValue, String.toList_ofList, List.foldl_cons, List.foldl_nil,
    Nat.zero_mul, Nat.zero_add]

/-- Digits are those of a low surrogate exactly if their code unit is one. -/
theorem isLowSurrogate_iff (four : FourDigits digits) : isLowSurrogate digits = true ↔
    0xDC00 ≤ codeUnit digits ∧ codeUnit digits < 0xE000 := by
  obtain ⟨length, hex⟩ := four
  match digits, length with
  | [one, two, three, other], _ =>
      obtain ⟨oneSmall, isThirteen, -⟩ := hexDigit_spec (hex one (by simp))
      obtain ⟨twoSmall, -, isTwelve⟩ := hexDigit_spec (hex two (by simp))
      obtain ⟨threeSmall, -⟩ := hexDigit_spec (hex three (by simp))
      obtain ⟨otherSmall, -⟩ := hexDigit_spec (hex other (by simp))
      rw [isLowSurrogate_cons, ← isThirteen, ← isTwelve, codeUnit_four]
      omega

theorem fourDigits_eq {more : List Char} (four : FourDigits high) (fourToo : FourDigits low)
    (same : high ++ rest = low ++ more) : high = low :=
  List.append_inj_left same (four.1.trans fourToo.1.symm)

/-- No content starts with the escape of a low surrogate. -/
theorem lowSurrogateEscape?_content {content text : List Char}
    (isContent : IsContent content text) :
    lowSurrogateEscape? (content ++ '"' :: rest) = none := by
  rw [Option.eq_none_iff_forall_ne_some]
  intro low found
  obtain ⟨four, isLow, more, same⟩ := lowSurrogateEscape?_eq_some_iff.mp found
  obtain ⟨above, below⟩ := (isLowSurrogate_iff four).mp isLow
  cases isContent with
  | nil => exact absurd (List.cons.inj same).1 (by decide)
  | unescaped plain _ => exact plain.2.2 (List.cons.inj same).1
  | @escape _ content _ _ isEscape _ =>
      cases isEscape with
      | short known =>
          rw [(List.cons.inj (List.cons.inj same).2).1] at known
          simp [shortEscapes] at known
      | @point digits fourToo valid =>
          have after : (digits ++ content) ++ '"' :: rest = low ++ more :=
            (List.cons.inj (List.cons.inj same).2).2
          rw [List.append_assoc] at after
          rw [← fourDigits_eq fourToo four after] at above below
          rcases valid with before | ⟨beyond, -⟩ <;> omega
      | @surrogates high _ fourToo _ _ highBelow _ _ =>
          have after : ((high ++ _) ++ content) ++ '"' :: rest = low ++ more :=
            (List.cons.inj (List.cons.inj same).2).2
          rw [List.append_assoc, List.append_assoc] at after
          rw [← fourDigits_eq fourToo four after] at above
          omega

variable {text : String} {position : Nat}

/-- An escape by number that no low surrogate follows is matched by itself. -/
theorem numberedEscape_point (four : FourDigits digits) (noLow : lowSurrogateEscape? rest = none)
    (here : (Text.ofString text).Onward position (digits ++ rest)) :
    numberedEscape (.ofString text) position =
      some ⟨String.ofList digits, [some (String.ofList digits), none]⟩ := by
  have found : fourDigits? (digits ++ rest) = some digits :=
    fourDigits?_eq_some_iff.mpr ⟨four, rest, rfl⟩
  simp only [numberedEscape_eq here.rest_eq, found, List.drop_left' four.1, noLow, Option.map_some]

/-- The escapes of two surrogates are matched together. -/
theorem numberedEscape_surrogates (four : FourDigits high) (fourToo : FourDigits low)
    (isLow : isLowSurrogate low = true)
    (here : (Text.ofString text).Onward position ((high ++ '\\' :: 'u' :: low) ++ rest)) :
    numberedEscape (.ofString text) position =
      some ⟨String.ofList (high ++ '\\' :: 'u' :: low),
        [some (String.ofList high), some (String.ofList low)]⟩ := by
  have found : fourDigits? ((high ++ '\\' :: 'u' :: low) ++ rest) = some high :=
    fourDigits?_eq_some_iff.mpr ⟨four, _, List.append_assoc _ _ _⟩
  have foundToo : lowSurrogateEscape? ('\\' :: 'u' :: low ++ rest) = some low :=
    lowSurrogateEscape?_eq_some_iff.mpr ⟨fourToo, isLow, rest, rfl⟩
  have ten : (high ++ '\\' :: 'u' :: low).length = 10 := by
    rw [List.length_append, List.length_cons, List.length_cons, four.1, fourToo.1]
  have dropped : ((high ++ '\\' :: 'u' :: low) ++ rest).drop 4 = '\\' :: 'u' :: low ++ rest := by
    rw [List.append_assoc, List.drop_left' four.1]
  simp only [numberedEscape_eq here.rest_eq, found, dropped, foundToo, List.take_left' ten,
    Option.map_some]

variable {allowed : Answering Text Part} {part : List Char}

theorem numbered_matches {groups : List (Option String)}
    (found : numberedEscape (.ofString text) position = some ⟨String.ofList part, groups⟩)
    (here : (Text.ofString text).Onward position (part ++ rest)) :
    (reading text).Matches allowed numbered position (.captures ⟨String.ofList part, groups⟩)
      (position + byteLength part) := by
  have size : (String.ofList part).utf8ByteSize = byteLength part := by
    rw [← byteLength_toList, String.toList_ofList]
  refine .terminal ?_ ?_
  · change Except.ok (Option.map _ (numberedEscape (.ofString text) position)) = _
    rw [found, Option.map_some, size]
  · change _ ≤ Input.size (Text.ofString text)
    rw [here.size_eq, byteLength_append]
    omega

theorem characterOf?_eq_some_iff {point : Nat} :
    characterOf? point = some c ↔ point.isValidChar ∧ Char.ofNat point = c := by
  rw [characterOf?, Option.ite_none_right_eq_some, Option.some.injEq]

theorem decodeEscape_eq_ok_iff {found : Captures} {symbol : Value} :
    decodeEscape (.captures found) = .ok symbol ↔
      ∃ c, decodeNumbers? (found.group 1) (found.group 2) = some c ∧ symbol = .character c := by
  rw [decodeEscape]
  cases decodeNumbers? (found.group 1) (found.group 2) with
  | none => simp only [reduceCtorEq, false_and, exists_false]
  | some c =>
      simp only [Except.ok.injEq, Option.some.injEq, exists_eq_left']
      exact eq_comm

theorem decodeNumbers?_surrogates (above : 0xD800 ≤ codeUnit high) (below : codeUnit high < 0xDC00)
    (belowToo : codeUnit low < 0xE000) :
    decodeNumbers? (some (String.ofList high)) (some (String.ofList low)) =
      some (Char.ofNat (0x10000 + (codeUnit high - 0xD800) * 0x400 + (codeUnit low - 0xDC00))) := by
  have inside : (0xD800 ≤ codeUnit high && codeUnit high < 0xDC00) = true := by
    rw [Bool.and_eq_true, decide_eq_true_eq, decide_eq_true_eq]
    exact ⟨above, below⟩
  refine (if_pos inside).trans (characterOf?_eq_some_iff.mpr ⟨.inr ⟨?_, ?_⟩, rfl⟩)
  · change 0xDFFF < 0x10000 + (codeUnit high - 0xD800) * 0x400 + (codeUnit low - 0xDC00)
    omega
  · change 0x10000 + (codeUnit high - 0xD800) * 0x400 + (codeUnit low - 0xDC00) < 0x110000
    omega

/-- An escape by number is read with the low surrogate that belongs to it. -/
theorem unicodeEscape_matches (isEscape : IsEscape ('\\' :: 'u' :: part) c)
    (noLow : lowSurrogateEscape? rest = none)
    (here : (Text.ofString text).Onward position ('u' :: part ++ rest)) :
    (reading text).Matches allowed unicodeEscape position (.character c)
      (position + byteLength ('u' :: part)) := by
  have first : (reading text).Matches allowed (.literal "u") position (.text "u")
      (position + byteLength ['u']) := literal_matches "u" here
  have there : (Text.ofString text).Onward (position + byteLength ['u']) (part ++ rest) := here.tail
  cases isEscape with
  | short known => simp [shortEscapes] at known
  | point four valid =>
      exact .tryMap (both_matches first
        (numbered_matches (numberedEscape_point four noLow there) there))
        (decodeEscape_eq_ok_iff.mpr ⟨_, characterOf?_eq_some_iff.mpr ⟨valid, rfl⟩, rfl⟩)
  | surrogates four fourToo above below aboveToo belowToo =>
      have isLow := (isLowSurrogate_iff fourToo).mpr ⟨aboveToo, belowToo⟩
      exact .tryMap (both_matches first
        (numbered_matches (numberedEscape_surrogates four fourToo isLow there) there))
        (decodeEscape_eq_ok_iff.mpr ⟨_, decodeNumbers?_surrogates above below belowToo, rfl⟩)

theorem shortEscape_matches {known : Char} (short : (known, c) ∈ shortEscapes)
    (here : (Text.ofString text).Onward position (known :: rest)) :
    (reading text).Matches allowed shortEscape position (.character c)
      (position + byteLength [known]) := by
  have decoded : known ∈ "\"\\/bfnrt".toList ∧
      decodeShort (.character known) = .character c := by
    simp only [shortEscapes, List.mem_cons, Prod.mk.injEq, List.not_mem_nil, or_false] at short
    rcases short with ⟨rfl, rfl⟩ | ⟨rfl, rfl⟩ | ⟨rfl, rfl⟩ | ⟨rfl, rfl⟩ | ⟨rfl, rfl⟩ | ⟨rfl, rfl⟩ |
      ⟨rfl, rfl⟩ | ⟨rfl, rfl⟩ <;> exact ⟨by decide, rfl⟩
  rw [← decoded.2]
  exact .map (charIn_matches here ((CharSet.contains_ofString _ known).mpr decoded.1))

theorem shortEscape_misses (here : (Text.ofString text).Onward position ('u' :: rest)) :
    ∀ other ∈ [shortEscape], (reading text).Misses allowed other position := by
  have contains (known : Char) : (CharSet.ofString "\"\\/bfnrt").contains known = true ↔
      known ∈ "\"\\/bfnrt".toList := CharSet.contains_ofString _ known
  simp only [List.mem_singleton, forall_eq]
  refine .map (charIn_misses here fun known first => Bool.eq_false_iff.mpr fun found => ?_)
  cases first
  exact absurd ((contains 'u').mp found) (by decide)

/-- An escape settles on the character that it denotes. -/
theorem escape_settles (isEscape : IsEscape part c) (noLow : lowSurrogateEscape? rest = none)
    (here : (Text.ofString text).Onward position (part ++ rest)) :
    (reading text).SettlesOk rules Nonterminal.escape.tag position (.text (String.ofList [c]))
      (position + byteLength part) := by
  obtain ⟨tail, rfl, inner⟩ : ∃ tail, part = '\\' :: tail ∧
      (reading text).Matches (inside text .escape position) (.oneOf [shortEscape, unicodeEscape])
        (position + byteLength ['\\']) (.character c)
        (position + byteLength ['\\'] + byteLength tail) := by
    cases isEscape with
    | @short known _ short =>
        exact ⟨[known], rfl, .choice [] rfl nofun (shortEscape_matches short here.tail)⟩
    | @point digits four valid =>
        exact ⟨'u' :: digits, rfl, .choice [shortEscape] rfl (shortEscape_misses here.tail)
          (unicodeEscape_matches (.point four valid) noLow here.tail)⟩
    | @surrogates high low four fourToo above below aboveToo belowToo =>
        exact ⟨'u' :: (high ++ '\\' :: 'u' :: low), rfl, .choice [shortEscape] rfl
          (shortEscape_misses here.tail) (unicodeEscape_matches
            (.surrogates four fourToo above below aboveToo belowToo) noLow here.tail)⟩
  have backslash : (reading text).Matches (inside text .escape position) (.literal "\\") position
      (.text "\\") (position + byteLength ['\\']) := literal_matches "\\" here
  have both : (reading text).Matches (inside text .escape position)
      ((Parser.literal "\\").ignoreThen (.oneOf [shortEscape, unicodeEscape])) position
      (.character c) (position + byteLength ('\\' :: tail)) := both_matches backslash inner
  have whole : (reading text).Matches (inside text .escape position)
      (((Parser.literal "\\").ignoreThen (.oneOf [shortEscape, unicodeEscape])).map joined)
      position (.text (String.ofList [c])) (position + byteLength ('\\' :: tail)) := both.map
  exact settles_of_reads (.labelled whole)

theorem escape_fails (other : chars.head? ≠ some '\\')
    (here : (Text.ofString text).Onward position chars) :
    (reading text).SettlesError rules Nonterminal.escape.tag position := by
  refine settles_of_fails (.labelled (.map (.both_first (literal_misses here ?_))))
  rintro ⟨after, rfl⟩
  exact other rfl

variable {content decoded : List Char} {outer : Nonterminal} {place : Nat}

theorem unescaped_iff (c : Char) : unescaped.contains c = true ↔ Unescaped c := by
  have quotes : CharSet.Ascending (CharSet.ofString "\"\\").ranges.toList :=
    CharSet.ascending_ofRanges _
  have controls : CharSet.Ascending (CharSet.range '\x00' '\x1f').ranges.toList :=
    CharSet.ascending_ofRanges _
  have both : CharSet.Ascending
      ((CharSet.ofString "\"\\").union (.range '\x00' '\x1f')).ranges.toList :=
    CharSet.ascending_ofRanges _
  have isQuote : c ∈ "\"\\".toList ↔ c = '"' ∨ c = '\\' := by
    change c ∈ ['"', '\\'] ↔ _
    simp only [List.mem_cons, List.not_mem_nil, or_false]
  have isControl : '\x00' ≤ c ∧ c ≤ '\x1f' ↔ c.toNat < 0x20 := by
    have first : ('\x00' : Char).val.toNat = 0 := rfl
    have last : ('\x1f' : Char).val.toNat = 31 := rfl
    simp only [Char.le_def, UInt32.le_iff_toNat_le, Char.toNat]
    omega
  rw [unescaped, CharSet.contains_inverted both, CharSet.contains_union quotes controls,
    CharSet.contains_ofString, CharSet.contains_range, isQuote, isControl, not_or, not_or,
    Nat.not_lt]
  exact and_comm

def stringPart : Rule := .oneOf [.charsIn unescaped (.atLeast 1), escape]

theorem escape_head {d : Char} (isEscape : IsEscape part c)
    (first : (part ++ rest).head? = some d) : ¬ Unescaped d := by
  intro plain
  cases isEscape <;> exact plain.2.2 (Option.some.inj first).symm

/-- After a run of unescaped characters the content goes on with an escape or a quote. -/
theorem content_head {d : Char} (starts : ∀ c, chars.head? = some c → c = '\\')
    (first : (chars ++ '"' :: rest).head? = some d) : ¬ Unescaped d := by
  intro plain
  cases chars with
  | nil => exact plain.2.1 (Option.some.inj first).symm
  | cons c chars => exact plain.2.2 ((Option.some.inj first).symm.trans (starts c rfl))

theorem unescaped_eq_false {d : Char} (escaped : ¬ Unescaped d) : unescaped.contains d = false :=
  Bool.eq_false_iff.mpr fun found => escaped ((unescaped_iff d).mp found)

/-- The content of a string is read as a chain of parts with its text. -/
theorem content_chain (different : .escape ≠ outer) (isContent : IsContent content decoded)
    (here : (Text.ofString text).Onward position (content ++ '"' :: rest)) :
    ∃ symbols, Setting.Chain ((reading text).Advances (inside text outer place) stringPart) position
        symbols (position + byteLength content) ∧
      Symbol.plainTexts (fun _ => "") symbols = String.ofList decoded := by
  induction length : content.length using Nat.strong_induction_on
    generalizing content decoded position with
  | h size ih =>
      obtain ⟨run, after, more, rfl, rfl, all, isAfter, starts⟩ := isContent.span
      rw [List.append_assoc] at here
      by_cases none : run = []
      · subst none
        cases isAfter with
        | nil => exact ⟨[], .nil _, rfl⟩
        | unescaped plain _ => exact absurd (starts _ rfl) plain.2.2
        | @escape escaped after _ c isEscape isAfter =>
            rw [List.nil_append, List.append_assoc] at here
            have settles := escape_settles isEscape (lowSurrogateEscape?_content isAfter) here
            have noRun : ∀ other ∈ [Parser.charsIn unescaped (.atLeast 1)],
                (reading text).Misses (inside text outer place) other position := by
              simp only [List.mem_singleton, forall_eq]
              exact charsIn_misses here fun d first =>
                unescaped_eq_false (escape_head isEscape first)
            have one : (reading text).Matches (inside text outer place) stringPart position
                (.text (String.ofList [c])) (position + byteLength escaped) :=
              .choice _ rfl noRun (call_matches .escape different settles)
            have shorter : after.length < size := by
              rw [← length, List.nil_append, List.length_append]
              exact Nat.lt_add_of_pos_left (List.length_pos_iff.mpr isEscape.ne_nil)
            obtain ⟨symbols, chain, spelled⟩ := ih _ shorter isAfter here.append rfl
            refine ⟨_ :: symbols, .cons ⟨one, Nat.lt_add_of_pos_right
              (byteLength_pos isEscape.ne_nil)⟩ ?_, ?_⟩
            · rwa [List.nil_append, byteLength_append, ← Nat.add_assoc]
            · rw [Symbol.plainTexts, spelled, List.nil_append, Symbol.plainText,
                ← String.ofList_append, List.singleton_append]
      · have one : (reading text).Matches (inside text outer place) stringPart position
            (.text (String.ofList run)) (position + byteLength run) :=
          .choice [] rfl nofun (charsIn_matches here
            (fun d member => (unescaped_iff d).mpr (all d member))
            (fun d first => unescaped_eq_false (content_head starts first))
            (List.length_pos_iff.mpr none))
        have shorter : after.length < size := by
          rw [← length, List.length_append]
          exact Nat.lt_add_of_pos_left (List.length_pos_iff.mpr none)
        obtain ⟨symbols, chain, spelled⟩ := ih _ shorter isAfter here.append rfl
        refine ⟨_ :: symbols, .cons ⟨one, Nat.lt_add_of_pos_right (byteLength_pos none)⟩ ?_, ?_⟩
        · rwa [byteLength_append, ← Nat.add_assoc]
        · rw [Symbol.plainTexts, spelled, Symbol.plainText, ← String.ofList_append]

theorem string_matches {string : String} (different : .escape ≠ outer)
    (isString : IsString part string)
    (here : (Text.ofString text).Onward position (part ++ rest)) :
    (reading text).Matches (inside text outer place) Grammar.string position (.text string)
      (position + byteLength part) := by
  cases isString with
  | @quoted content decoded isContent =>
      have after : (Text.ofString text).Onward (position + byteLength ['"'])
          (content ++ '"' :: rest) := by
        rw [List.cons_append, List.append_assoc] at here
        exact here.tail
      obtain ⟨symbols, chain, spelled⟩ : ∃ symbols,
          Setting.Chain ((reading text).Advances (inside text outer place) stringPart)
            (position + byteLength ['"']) symbols
            (position + byteLength ['"'] + byteLength content) ∧
          Symbol.plainTexts (fun _ => "") symbols = String.ofList decoded :=
        content_chain different isContent after
      have ends : (reading text).Misses (inside text outer place) stringPart
          (position + byteLength ['"'] + byteLength content) := by
        refine .choice fun other member => ?_
        simp only [List.mem_cons, List.not_mem_nil, or_false] at member
        rcases member with rfl | rfl
        · refine charsIn_misses after.append fun d first => unescaped_eq_false ?_
          cases first
          exact fun plain => plain.2.1 rfl
        · exact call_misses .escape different (escape_fails (by simp) after.append)
      have opening : (reading text).Matches (inside text outer place) (.literal "\"") position
          (.text "\"") (position + byteLength ['"']) := literal_matches "\"" here
      have closing : (reading text).Matches (inside text outer place) (.literal "\"")
          (position + byteLength ['"'] + byteLength content) (.text "\"")
          (position + byteLength ['"'] + byteLength content + byteLength ['"']) :=
        literal_matches "\"" after.append
      have both : (reading text).Matches (inside text outer place)
          ((Parser.literal "\"").ignoreThen (Parser.many stringPart)) position (.list symbols)
          (position + byteLength (['"'] ++ content)) := both_matches opening (.many chain ends)
      rw [Nat.add_assoc position, ← byteLength_append] at closing
      have whole : (reading text).Matches (inside text outer place)
          (((Parser.literal "\"").ignoreThen (Parser.many stringPart)).thenIgnore (.literal "\""))
          position (.list symbols) (position + byteLength ('"' :: (content ++ ['"']))) :=
        both_matches both closing
      rw [← spelled]
      exact whole.map

/-! ## What matches is an escape -/

variable {matched : Match Value}

/-- Four digits are found, and after them none or those of a low surrogate. -/
theorem numberedEscape_cases {found : Captures}
    (here : (Text.ofString text).Onward position chars)
    (finds : numberedEscape (.ofString text) position = some found) :
    ∃ high, FourDigits high ∧
      ((∃ rest, chars = high ++ rest ∧
          found = ⟨String.ofList high, [some (String.ofList high), none]⟩) ∨
        ∃ low rest, FourDigits low ∧ isLowSurrogate low = true ∧
          chars = (high ++ '\\' :: 'u' :: low) ++ rest ∧
          found = ⟨String.ofList (high ++ '\\' :: 'u' :: low),
            [some (String.ofList high), some (String.ofList low)]⟩) := by
  rw [numberedEscape_eq here.rest_eq] at finds
  obtain ⟨high, digits, rfl⟩ := Option.map_eq_some_iff.mp finds
  obtain ⟨four, rest, rfl⟩ := fourDigits?_eq_some_iff.mp digits
  refine ⟨high, four, ?_⟩
  rw [List.drop_left' four.1]
  split
  · next low lows =>
      obtain ⟨fourToo, isLow, after, rfl⟩ := lowSurrogateEscape?_eq_some_iff.mp lows
      have split : high ++ '\\' :: 'u' :: (low ++ after) =
          (high ++ '\\' :: 'u' :: low) ++ after := by
        rw [List.append_assoc, List.cons_append, List.cons_append]
      have ten : (high ++ '\\' :: 'u' :: low).length = 10 := by
        rw [List.length_append, List.length_cons, List.length_cons, four.1, fourToo.1]
      rw [split, List.take_left' ten]
      exact .inr ⟨low, after, fourToo, isLow, rfl, rfl⟩
  · exact .inl ⟨rest, rfl, rfl⟩

theorem size_ofList (part : List Char) : (String.ofList part).utf8ByteSize = byteLength part := by
  rw [← byteLength_toList, String.toList_ofList]

theorem unicodeEscape_answers (here : (Text.ofString text).Onward position chars)
    (answers : (reading text).Answers allowed unicodeEscape position (.ok matched)) :
    ∃ part c, (Text.ofString text).Between position ('u' :: part) matched.span.stop ∧
      IsEscape ('\\' :: 'u' :: part) c ∧ matched.symbol = .character c := by
  obtain ⟨both, answers, decoded, stops⟩ := Setting.Answers.of_tryMap answers
  obtain ⟨first, second, answersFirst, answersSecond, symbol_eq, stopsToo⟩ := answers.of_both
  obtain ⟨letter, -⟩ := literal_answers here answersFirst
  obtain ⟨after, -, there⟩ := letter.onward
  obtain ⟨length, probed, ends⟩ := Setting.Answers.of_terminal answersSecond
  obtain ⟨found, finds, pair_eq⟩ := Option.map_eq_some_iff.mp (Except.ok.inj probed)
  obtain ⟨captured, rfl⟩ := Prod.mk.inj pair_eq
  rw [symbol_eq, ← captured] at decoded
  obtain ⟨c, numbers, character⟩ := decodeEscape_eq_ok_iff.mp decoded
  rw [stops, stopsToo, ends]
  obtain ⟨high, four, ⟨rest, rfl, rfl⟩ | ⟨low, rest, fourToo, isLow, rfl, rfl⟩⟩ :=
    numberedEscape_cases there finds
  · obtain ⟨valid, rfl⟩ := characterOf?_eq_some_iff.mp numbers
    refine ⟨high, _, letter.append ⟨rest, there, ?_⟩, .point four valid, character⟩
    rw [size_ofList]
  · obtain ⟨above, below⟩ := (isLowSurrogate_iff fourToo).mp isLow
    change decodeNumbers? (some (String.ofList high)) (some (String.ofList low)) = some c at numbers
    obtain ⟨inside, -⟩ := Option.ite_none_right_eq_some.mp numbers
    rw [Bool.and_eq_true, decide_eq_true_eq, decide_eq_true_eq] at inside
    obtain ⟨highAbove, highBelow⟩ := inside
    rw [decodeNumbers?_surrogates highAbove highBelow below] at numbers
    rw [character, ← Option.some.inj numbers]
    refine ⟨high ++ '\\' :: 'u' :: low, _, letter.append ⟨rest, there, ?_⟩,
      .surrogates four fourToo highAbove highBelow above below, rfl⟩
    rw [size_ofList]
    rfl

theorem shortEscape_answers (here : (Text.ofString text).Onward position chars)
    (answers : (reading text).Answers allowed shortEscape position (.ok matched)) :
    ∃ known c, (Text.ofString text).Between position [known] matched.span.stop ∧
      IsEscape ['\\', known] c ∧ matched.symbol = .character c := by
  obtain ⟨one, answers, symbol_eq, stops⟩ := answers.of_map
  obtain ⟨known, covers, contains, same⟩ := charIn_answers here answers
  have member : known ∈ ['"', '\\', '/', 'b', 'f', 'n', 'r', 't'] :=
    (CharSet.contains_ofString _ known).mp contains
  rw [symbol_eq, stops, same]
  simp only [List.mem_cons, List.not_mem_nil, or_false] at member
  rcases member with rfl | rfl | rfl | rfl | rfl | rfl | rfl | rfl <;>
    exact ⟨_, _, covers, .short (by decide), rfl⟩

theorem escape_explains (here : (Text.ofString text).Onward position chars)
    (replies : (reading text).Replies (explaining text) escape position (.ok matched.symbol)
      matched.span.stop) : Explains text EscapeOf position matched := by
  obtain ⟨one, answers, symbol_eq, stops⟩ := Setting.Replies.of_labelled replies
  obtain ⟨both, answers, symbol_eqOne, stopsOne⟩ := answers.of_map
  obtain ⟨first, second, answersFirst, answersSecond, symbol_eqBoth, stopsBoth⟩ := answers.of_both
  obtain ⟨backslash, -⟩ := literal_answers here answersFirst
  obtain ⟨after, -, there⟩ := backslash.onward
  obtain ⟨inner, member, two, answersInner, same, ends⟩ := answersSecond.of_choice
  obtain ⟨part, c, covers, isEscape, character⟩ : ∃ part c,
      (Text.ofString text).Between first.span.stop part two.span.stop ∧
      IsEscape ('\\' :: part) c ∧ two.symbol = .character c := by
    simp only [List.mem_cons, List.not_mem_nil, or_false] at member
    rcases member with rfl | rfl
    · obtain ⟨known, c, covers, isEscape, character⟩ := shortEscape_answers there answersInner
      exact ⟨[known], c, covers, isEscape, character⟩
    · obtain ⟨part, c, covers, isEscape, character⟩ := unicodeEscape_answers there answersInner
      exact ⟨'u' :: part, c, covers, isEscape, character⟩
  rw [← ends, ← stopsBoth, ← stopsOne, ← stops] at covers
  refine ⟨'\\' :: part, backslash.append covers, c, isEscape, ?_⟩
  rw [symbol_eq, symbol_eqOne, symbol_eqBoth, same, character]
  rfl

theorem IsContent.append_run {run : List Char} (all : ∀ c ∈ run, Unescaped c)
    (isContent : IsContent content decoded) : IsContent (run ++ content) (run ++ decoded) := by
  induction run with
  | nil => exact isContent
  | cons c run ih =>
      exact .unescaped (all c List.mem_cons_self)
        (ih fun d member => all d (List.mem_cons_of_mem c member))

theorem stringPart_answers {symbol : Value} {stop : Nat}
    (here : (Text.ofString text).Onward position chars)
    (ended : (reading text).Ended (explaining text) stringPart position symbol stop) :
    ∃ part decoded, (Text.ofString text).Between position part stop ∧
      (∀ content more, IsContent content more → IsContent (part ++ content) (decoded ++ more)) ∧
      textOf symbol = String.ofList decoded := by
  obtain ⟨matched, answers, rfl, rfl⟩ := ended
  obtain ⟨inner, member, one, answers, same, stops⟩ := answers.of_choice
  rw [same, stops]
  simp only [List.mem_cons, List.not_mem_nil, or_false] at member
  rcases member with rfl | rfl
  · obtain ⟨run, covers, all, -, text_eq⟩ := charsIn_answers here answers
    refine ⟨run, run, covers, fun content more isContent => ?_, ?_⟩
    · exact IsContent.append_run (fun d member => (unescaped_iff d).mp (all d member)) isContent
    · rw [text_eq]
      rfl
  · obtain ⟨part, covers, c, isEscape, text_eq⟩ := call_answers .escape here answers
    refine ⟨part, [c], covers, fun content more isContent => .escape isEscape isContent, ?_⟩
    rw [text_eq]
    rfl

theorem content_answers {symbols : List Value} {stop : Nat}
    (chain : Setting.Chain ((reading text).Ended (explaining text) stringPart) position symbols
      stop)
    (here : (Text.ofString text).Onward position chars) :
    ∃ content decoded, (Text.ofString text).Between position content stop ∧
      IsContent content decoded ∧
      Symbol.plainTexts (fun _ => "") symbols = String.ofList decoded := by
  induction chain generalizing chars with
  | nil position => exact ⟨[], [], .nil here, .nil, rfl⟩
  | cons one _ ih =>
      obtain ⟨part, decoded, covers, extends_, spelled⟩ := stringPart_answers here one
      obtain ⟨after, -, there⟩ := covers.onward
      obtain ⟨content, more, coversToo, isContent, spelledToo⟩ := ih there
      refine ⟨part ++ content, decoded ++ more, covers.append coversToo, extends_ _ _ isContent, ?_⟩
      rw [Symbol.plainTexts, spelledToo, String.ofList_append, ← spelled]
      rfl

theorem string_answers (here : (Text.ofString text).Onward position chars)
    (answers : (reading text).Answers (explaining text) Grammar.string position (.ok matched)) :
    ∃ part string, (Text.ofString text).Between position part matched.span.stop ∧
      IsString part string ∧ matched.symbol = .text string := by
  obtain ⟨whole, answers, symbol_eq, stops⟩ := Setting.Answers.of_map answers
  obtain ⟨front, close, answersFront, answersClose, symbol_eqWhole, stopsWhole⟩ := answers.of_both
  obtain ⟨open_, parts, answersOpen, answersParts, symbol_eqFront, stopsFront⟩ :=
    answersFront.of_both
  obtain ⟨opening, -⟩ := literal_answers here answersOpen
  obtain ⟨after, -, there⟩ := opening.onward
  obtain ⟨symbols, list_eq, chain⟩ := Setting.Answers.of_many answersParts
  obtain ⟨content, decoded, covers, isContent, spelled⟩ := content_answers chain there
  rw [← stopsFront] at covers
  obtain ⟨last, -, thereToo⟩ := covers.onward
  obtain ⟨closing, -⟩ := literal_answers thereToo answersClose
  rw [← stopsWhole, ← stops] at closing
  refine ⟨['"'] ++ (content ++ ['"']), String.ofList decoded,
    opening.append (covers.append closing), .quoted isContent, ?_⟩
  rw [symbol_eq, symbol_eqWhole, symbol_eqFront, list_eq, ← spelled]
  rfl

end Packrat.Json.Grammar
