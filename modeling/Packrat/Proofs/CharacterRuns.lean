import Packrat.Proofs.PlainParsers
import Packrat.Proofs.Repetition
import Packrat.Proofs.TextReading

/-!
# Runs of characters

A run of characters can be read by one terminal, which scans the text by itself, or by a
repetition, which makes a call for each character.  Both take the accepted characters that stand
at the cursor, at most the greatest count of them, and they match exactly if that number is
accepted.  The terminal then gives the text of the characters and the repetition the characters
one by one, and both leave the cursor after the last of them, whatever the policies are.
-/

namespace Packrat

namespace CountLimit

/-- The number itself, or the greatest count if that is less. -/
def capped : CountLimit → Nat → Nat
  | atLeast _, count => count
  | atMost most, count => min most count
  | between _ most, count => min most count
  | exactly number, count => min number count

variable {limit : CountLimit} {count taken : Nat}

theorem capped_le (limit : CountLimit) (count : Nat) : limit.capped count ≤ count := by
  cases limit with
  | atLeast fewest => exact Nat.le_refl count
  | _ => exact Nat.min_le_right _ count

theorem open_of_lt_capped (less : taken < limit.capped count) : limit.Open taken := by
  cases limit with
  | atLeast fewest => trivial
  | _ => exact Nat.lt_of_lt_of_le less (Nat.min_le_left _ count)

/-- If more may be taken, nothing was left out. -/
theorem capped_of_open (isOpen : limit.Open (limit.capped count)) : limit.capped count = count := by
  cases limit with
  | atLeast fewest => rfl
  | _ =>
      simp only [capped, Open] at isOpen ⊢
      omega

end CountLimit

section Runs

variable (limit : CountLimit) (accepts : Char → Bool) (chars : List Char)

/-- A run takes as many of the accepted characters as the limit lets it take. -/
theorem runOf_eq_take : Parser.runOf limit accepts chars =
    chars.take (limit.capped (chars.takeWhile accepts).length) := by
  have whole : chars.takeWhile accepts = chars.take (chars.takeWhile accepts).length :=
    List.prefix_iff_eq_take.mp (List.takeWhile_prefix accepts)
  cases limit with
  | atLeast fewest => exact whole
  | _ =>
      change (chars.take _).takeWhile accepts = chars.take (min _ _)
      rw [← List.take_takeWhile, ← List.take_take, ← whole]

theorem length_runOf : (Parser.runOf limit accepts chars).length =
    limit.capped (chars.takeWhile accepts).length := by
  rw [runOf_eq_take, List.length_take, Nat.min_eq_left]
  exact (limit.capped_le _).trans (List.takeWhile_prefix accepts).length_le

variable {limit accepts chars}

theorem accepts_of_mem_runOf {c : Char} (member : c ∈ Parser.runOf limit accepts chars) :
    accepts c = true := by
  unfold Parser.runOf at member
  split at member <;> exact List.mem_takeWhile_imp member

/-- After a run the limit is reached, or the next character is not accepted. -/
theorem runOf_stops {rest : List Char} (split : Parser.runOf limit accepts chars ++ rest = chars)
    (isOpen : limit.Open (Parser.runOf limit accepts chars).length) {c : Char}
    (first : rest.head? = some c) : accepts c = false := by
  have all : Parser.runOf limit accepts chars = chars.takeWhile accepts := by
    rw [length_runOf] at isOpen
    rw [runOf_eq_take, CountLimit.capped_of_open isOpen]
    exact (List.prefix_iff_eq_take.mp (List.takeWhile_prefix accepts)).symm
  rw [all] at split
  have dropped : rest = chars.dropWhile accepts :=
    List.append_cancel_left (split.trans List.takeWhile_append_dropWhile.symm)
  have kept := List.head?_dropWhile_not accepts chars
  rw [← dropped, first] at kept
  simpa using kept

end Runs

section Calls

variable {ι α : Type} [Input ι] {setting : Setting ι α} {state final : State α}

/-- The call of the parser ends with the outcome, and with no other. -/
structure Setting.Delivers (setting : Setting ι α) (parser : Parser ι α) (state : State α)
    (outcome : Outcome (Symbol α)) : Prop where
  ends : ∃ steps final, setting.runMatch steps parser state = .done outcome final
  only : ∀ steps other final, setting.runMatch steps parser state = .done other final →
    other = outcome ∧ final.cursor = outcome.landing state.cursor

theorem Ends.delivers {parser : Parser ι α} {outcome : Outcome (Symbol α)}
    (ends : Ends setting (.call parser) state (.answered outcome) final) :
    setting.Delivers parser state outcome where
  ends := by
    obtain ⟨steps, done⟩ := Setting.runMatch_eq_done_iff.mpr ends
    exact ⟨steps, final, done⟩
  only steps other last done := by
    have endsToo := Setting.runMatch_eq_done_iff.mp ⟨steps, done⟩
    cases (ends.unique endsToo).1
    exact ⟨rfl, endsToo.landing⟩

variable {expectation : String} {probe : Probe ι α} {symbol : Symbol α} {length : Nat}

/-- A terminal that finds something matches it, whatever the policies are. -/
theorem terminal_ends_ok
    (found : probe setting.input state.cursor = .ok (some (symbol, length)))
    (inside : state.cursor + length ≤ Input.size setting.input) :
    ∃ final, Ends setting (.call (.terminal expectation probe)) state
      (.answered (.ok ⟨symbol, ⟨state.cursor, state.cursor + length⟩⟩)) final := by
  let entered := setting.entered (.terminal expectation probe) state
  have here : entered.cursor = state.cursor := rfl
  have starts : (Parser.terminal expectation probe).start setting entered =
      .read symbol (state.cursor + length) := by
    simp only [Parser.start, here, found, if_pos inside]
  refine (ends_untagged_iff rfl).mpr ⟨.ok symbol, entered.moveTo (state.cursor + length),
    .body ?_, fun _ _ => Nat.le_add_right _ _, rfl⟩
  rw [starts]
  exact .read symbol _ entered

theorem terminal_ends_error (missed : probe setting.input state.cursor = .ok none) :
    ∃ final, Ends setting (.call (.terminal expectation probe)) state
      (.answered (.error (.expected none expectation))) final := by
  let entered := setting.entered (.terminal expectation probe) state
  have here : entered.cursor = state.cursor := rfl
  have starts : (Parser.terminal expectation probe).start setting entered =
      .reply (.error (.expected none expectation)) := by
    simp only [Parser.start, here, missed]
  refine (ends_untagged_iff rfl).mpr ⟨.error (.expected none expectation), entered, .body ?_,
    fun _ same => (by cases same), rfl⟩
  rw [starts]
  exact .reply _ entered

end Calls

section Characters

variable {α : Type} {setting : Setting Text α} {state : State α} {accepts : Char → Bool}
  {chars taken rest : List Char} {c : Char}

theorem oneCharacter_ends_ok (expectation : String)
    (here : setting.input.Onward state.cursor (c :: rest))
    (accepted : accepts c = true) :
    ∃ final, Ends setting (.call (.oneCharacter expectation accepts)) state
      (.answered (.ok ⟨.character c, ⟨state.cursor, state.cursor + c.utf8Size⟩⟩)) final := by
  refine terminal_ends_ok ?_ ?_
  · simp only [here.rest_eq, if_pos accepted]
  · rw [here.size_eq, byteLength_cons]
    omega

theorem oneCharacter_ends_error (expectation : String)
    (here : setting.input.Onward state.cursor chars)
    (other : ∀ c, chars.head? = some c → accepts c = false) :
    ∃ mismatch final, Ends setting (.call (.oneCharacter expectation accepts)) state
      (.answered (.error mismatch)) final := by
  refine ⟨_, terminal_ends_error ?_⟩
  cases chars with
  | nil => simp only [here.rest_eq]
  | cons c rest => simp [here.rest_eq, other c rfl]

theorem characterRun_ends (expectation : String) {limit : CountLimit}
    (here : setting.input.Onward state.cursor chars)
    (accepted : limit.Accepts (Parser.runOf limit accepts chars).length) :
    ∃ final, Ends setting (.call (.characterRun expectation limit accepts)) state
      (.answered (.ok ⟨.text (String.ofList (Parser.runOf limit accepts chars)),
        ⟨state.cursor, state.cursor + byteLength (Parser.runOf limit accepts chars)⟩⟩)) final := by
  obtain ⟨rest, split⟩ := runOf_prefix limit accepts chars
  refine terminal_ends_ok ?_ ?_
  · simp only [here.rest_eq, if_pos (CountLimit.admits_iff.mpr accepted)]
  · rw [here.size_eq, ← congrArg byteLength split, byteLength_append]
    omega

theorem characterRun_ends_error (expectation : String) {limit : CountLimit}
    (here : setting.input.Onward state.cursor chars)
    (refused : ¬ limit.Accepts (Parser.runOf limit accepts chars).length) :
    ∃ mismatch final, Ends setting (.call (.characterRun expectation limit accepts)) state
      (.answered (.error mismatch)) final := by
  have unadmitted : ¬ limit.admits (Parser.runOf limit accepts chars).length = true :=
    fun admitted => refused (CountLimit.admits_iff.mp admitted)
  refine ⟨_, terminal_ends_error ?_⟩
  simp only [here.rest_eq, if_neg unadmitted]

def characterMatches (position : Nat) : List Char → List (Match (Symbol α))
  | [] => []
  | c :: rest =>
      ⟨.character c, ⟨position, position + c.utf8Size⟩⟩ ::
        characterMatches (position + c.utf8Size) rest

@[simp]
theorem map_symbol_characterMatches (position : Nat) (chars : List Char) :
    (characterMatches (α := α) position chars).map Match.symbol = chars.map .character := by
  induction chars generalizing position with
  | nil => rfl
  | cons c rest ih => rw [characterMatches, List.map_cons, List.map_cons, ih]

@[simp]
theorem length_characterMatches (position : Nat) (chars : List Char) :
    (characterMatches (α := α) position chars).length = chars.length := by
  rw [← List.length_map Match.symbol, map_symbol_characterMatches, List.length_map]

/-- From laps that lie behind it a repetition takes accepted characters while it wants more. -/
theorem laps_characters {expectation : String} {limit : CountLimit} {begun middle : State α}
    {before : List (Match (Symbol α))}
    (laps : setting.Laps (.oneCharacter expectation accepts) limit begun before middle)
    (here : setting.input.Onward middle.cursor (taken ++ rest))
    (accepted : ∀ c ∈ taken, accepts c = true)
    (wanted : ∀ count < before.length + taken.length, limit.Open count) :
    ∃ last, setting.Laps (.oneCharacter expectation accepts) limit begun
        (before ++ characterMatches middle.cursor taken) last ∧
      last.cursor = middle.cursor + byteLength taken := by
  induction taken generalizing before middle with
  | nil => exact ⟨middle, by rwa [characterMatches, List.append_nil], rfl⟩
  | cons c taken ih =>
      obtain ⟨after, ran⟩ := oneCharacter_ends_ok expectation here (accepted c List.mem_cons_self)
      have landed : after.cursor = middle.cursor + c.utf8Size := ran.landing
      have consumes : Span.isEmpty ⟨middle.cursor, middle.cursor + c.utf8Size⟩ = false := by
        have wide := c.utf8Size_pos
        simp only [Span.isEmpty, beq_eq_false_iff_ne]
        omega
      have lap := Setting.Laps.lap laps (wanted _ (by simp)) ran consumes
      have onward : setting.input.Onward after.cursor (taken ++ rest) := by
        rw [landed]
        exact here.tail
      obtain ⟨last, lapsToo, stops⟩ := ih lap onward
        (fun d member => accepted d (List.mem_cons_of_mem c member))
        (fun count less => wanted count (by simp at less ⊢; omega))
      refine ⟨last, ?_, by rw [stops, landed, byteLength_cons, Nat.add_assoc]⟩
      rw [landed, List.append_assoc] at lapsToo
      exact lapsToo

/-- A repetition of single characters stops after the run that a scan takes. -/
theorem repeats_characters (expectation : String) (limit : CountLimit) {begun : State α}
    (here : setting.input.Onward begun.cursor chars) :
    ∃ failure last, setting.Repeats (.oneCharacter expectation accepts) limit begun
        (characterMatches begun.cursor (Parser.runOf limit accepts chars)) failure last ∧
      last.cursor = begun.cursor + byteLength (Parser.runOf limit accepts chars) := by
  obtain ⟨rest, split⟩ := runOf_prefix limit accepts chars
  have onward : setting.input.Onward begun.cursor (Parser.runOf limit accepts chars ++ rest) := by
    rwa [split]
  have wanted (count : Nat)
      (less : count < ([] : List (Match (Symbol α))).length +
        (Parser.runOf limit accepts chars).length) : limit.Open count := by
    rw [List.length_nil, Nat.zero_add, length_runOf] at less
    exact CountLimit.open_of_lt_capped less
  obtain ⟨middle, laps, stops⟩ :=
    laps_characters .start onward (fun _ => accepts_of_mem_runOf) wanted
  rw [List.nil_append] at laps
  by_cases isOpen : limit.Open (Parser.runOf limit accepts chars).length
  · -- The next call fails, because the next character is not accepted.
    have remaining : setting.input.Onward middle.cursor rest := by
      rw [stops]
      exact onward.append
    obtain ⟨mismatch, last, ran⟩ :=
      oneCharacter_ends_error expectation remaining fun c first => runOf_stops split isOpen first
    exact ⟨some mismatch, last, .failed laps (by simpa using isOpen) ran, ran.landing.trans stops⟩
  · exact ⟨none, middle, .full laps (by simpa using isOpen), stops⟩

theorem repeated_ends (expectation : String) (accepts : Char → Bool) (limit : CountLimit)
    (here : setting.input.Onward state.cursor chars) :
    ∃ failure final,
      Ends setting (.call ((Parser.oneCharacter expectation accepts).repeated limit)) state
        (.answered (.ofResult state.cursor
          (state.cursor + byteLength (Parser.runOf limit accepts chars))
          (endRepetition none (Parser.oneCharacter expectation accepts) limit
            ((Parser.runOf limit accepts chars).map .character).reverse failure))) final := by
  let repetition : Parser Text α := (Parser.oneCharacter expectation accepts).repeated limit
  obtain ⟨failure, last, stops, lands⟩ := repeats_characters expectation limit
    (show setting.input.Onward (setting.entered repetition state).cursor chars from here)
  have forward : state.cursor ≤ last.cursor := lands ▸ Nat.le_add_right _ _
  refine ⟨failure, (ends_untagged_iff rfl).mpr ⟨_, last, stops.ends, fun _ _ => forward, ?_⟩⟩
  rw [map_symbol_characterMatches, lands]
  rfl

end Characters

/-! ## The agreement -/

/--
A run and a repetition of single characters that take the same characters at a state: both match
them if their number is accepted, and otherwise both fail.
-/
structure Setting.RunsAlike {α : Type} (setting : Setting Text α) (state : State α)
    (limit : CountLimit) (taken : List Char) (run character : Parser Text α) : Prop where
  matched : limit.Accepts taken.length →
    setting.Delivers run state
        (.ok ⟨.text (String.ofList taken), ⟨state.cursor, state.cursor + byteLength taken⟩⟩) ∧
      setting.Delivers (character.repeated limit) state
        (.ok ⟨.list (taken.map .character), ⟨state.cursor, state.cursor + byteLength taken⟩⟩)
  missed : ¬ limit.Accepts taken.length →
    (∃ mismatch, setting.Delivers run state (.error mismatch)) ∧
      ∃ mismatch, setting.Delivers (character.repeated limit) state (.error mismatch)

theorem runsAlike {α : Type} {setting : Setting Text α} {state : State α} {chars : List Char}
    (here : setting.input.Onward state.cursor chars) (limit : CountLimit)
    (accepts : Char → Bool) (expectation expectationToo : String) :
    setting.RunsAlike state limit (Parser.runOf limit accepts chars)
      (.characterRun expectation limit accepts) (.oneCharacter expectationToo accepts) := by
  obtain ⟨failure, final, repeats⟩ := repeated_ends expectationToo accepts limit here
  constructor
  · intro accepted
    obtain ⟨finalToo, scans⟩ := characterRun_ends expectation here accepted
    rw [endRepetition_ok failure (by simpa using accepted), List.reverse_reverse] at repeats
    exact ⟨scans.delivers, repeats.delivers⟩
  · intro refused
    obtain ⟨mismatch, finalToo, scans⟩ :=
      characterRun_ends_error expectation here refused
    have unaccepted : ¬ limit.Accepts
        ((Parser.runOf limit accepts chars).map (Symbol.character (α := α))).reverse.length := by
      simpa using refused
    obtain ⟨mismatchToo, fails⟩ := endRepetition_error none
      (Parser.oneCharacter expectationToo accepts) failure unaccepted
    rw [fails] at repeats
    exact ⟨⟨mismatch, scans.delivers⟩, ⟨mismatchToo, repeats.delivers⟩⟩

/--
At every boundary of a text, whatever the policies are and remember, a run of characters that a
predicate accepts or that a set contains does the same as the repetition of single ones.  Both
take as many characters as are accepted at the start, but no more than the greatest count.
-/
theorem character_runs_agree {α : Type} (setting : Setting Text α) (state : State α)
    (boundary : setting.input.IsBoundary state.cursor) (limit : CountLimit) :
    ∃ chars, setting.input.rest state.cursor = some chars ∧
      (∀ accepts, ∃ taken, taken <+: chars ∧
        taken.length = limit.capped (chars.takeWhile accepts).length ∧
        setting.RunsAlike state limit taken (.takeWhile limit accepts) (.satisfying accepts)) ∧
      ∀ set : CharSet, ∃ taken, taken <+: chars ∧
        taken.length = limit.capped (chars.takeWhile set.contains).length ∧
        setting.RunsAlike state limit taken (.charsIn set limit) (.charIn set) := by
  obtain ⟨before, chars, same, place⟩ := boundary
  have here : setting.input.Onward state.cursor chars := ⟨before, same, place⟩
  refine ⟨chars, here.rest_eq, fun accepts => ?_, fun set => ?_⟩
  · exact ⟨_, runOf_prefix limit accepts chars, length_runOf limit accepts chars,
      runsAlike here limit accepts _ _⟩
  · exact ⟨_, runOf_prefix limit set.contains chars, length_runOf limit set.contains chars,
      runsAlike here limit set.contains _ _⟩

/-- The limit is reached in the middle of letters of two bytes each. -/
theorem character_runs_agree_umlauts : ∃ setting : Setting Text Unit,
    setting.input = .ofString "äöü" ∧
      setting.Delivers (.takeWhile (.between 1 2) fun c => c ≠ 'a') (.initial .standard)
        (.ok ⟨.text "äö", ⟨0, 4⟩⟩) ∧
      setting.Delivers ((Parser.satisfying fun c => c ≠ 'a').repeated (.between 1 2))
        (.initial .standard) (.ok ⟨.list [.character 'ä', .character 'ö'], ⟨0, 4⟩⟩) := by
  let setting : Setting Text Unit := ⟨.ofString "äöü", .empty⟩
  obtain ⟨chars, found, alike, -⟩ := character_runs_agree setting (.initial .standard)
    (Text.isBoundary_zero "äöü") (.between 1 2)
  have stands : chars = ['ä', 'ö', 'ü'] :=
    Option.some.inj (found.symm.trans (Text.onward_zero "äöü").rest_eq)
  obtain ⟨taken, within, count, same⟩ := alike fun c => c ≠ 'a'
  rw [stands] at within count
  have two : taken = ['ä', 'ö'] := by
    rw [List.prefix_iff_eq_take.mp within, count]
    decide
  rw [two] at same
  exact ⟨setting, rfl, same.matched ⟨by decide, by decide⟩⟩

end Packrat
