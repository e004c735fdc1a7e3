import Packrat.Proofs.Composition
import Packrat.Proofs.Spans
import Packrat.Proofs.WholeInput

/-!
# Repetitions

A repetition runs its item again and again.  `Setting.Laps` says which runs it has behind it:
matches that all consume something, each of which starts where the one before ended.  A lap
makes the rest of the input shorter, so there are no more laps than elements left.
`Setting.Repeats` says how the laps come to an end, and `runMatch_repeated` that a call of the
repetition does all this, and nothing else, whatever the policies are and whatever they
remember.
-/

namespace Packrat

namespace CountLimit

variable {limit : CountLimit} {count : Nat}

def Open : CountLimit → Nat → Prop
  | atLeast _, _ => True
  | atMost most, count => count < most
  | between _ most, count => count < most
  | exactly number, count => count < number

def Accepts : CountLimit → Nat → Prop
  | atLeast fewest, count => fewest ≤ count
  | atMost most, count => count ≤ most
  | between fewest most, count => fewest ≤ count ∧ count ≤ most
  | exactly number, count => count = number

theorem wantsMore_iff : limit.wantsMore count = true ↔ limit.Open count := by
  cases limit with
  | atLeast fewest => exact iff_of_true rfl trivial
  | _ => exact decide_eq_true_iff

theorem admits_iff : limit.admits count = true ↔ limit.Accepts count := by
  rw [admits, Bool.and_eq_true, decide_eq_true_iff]
  cases limit with
  | exactly number => simp [least, greatest, Accepts, Nat.le_antisymm_iff, and_comm]
  | _ => simp [least, greatest, Accepts]

theorem unlimited_accepts (count : Nat) : unlimited.Accepts count := Nat.zero_le count

end CountLimit

variable {ι α : Type}

theorem endRepetition_ok {tag : Option Tag} {item : Parser ι α} {limit : CountLimit}
    {taken : List (Symbol α)} (failure : Option Mismatch) (accepts : limit.Accepts taken.length) :
    endRepetition tag item limit taken failure = .ok (.list taken.reverse) := by
  unfold endRepetition
  rw [if_pos (CountLimit.admits_iff.mpr accepts)]

theorem endRepetition_error (tag : Option Tag) (item : Parser ι α) {limit : CountLimit}
    {taken : List (Symbol α)} (failure : Option Mismatch)
    (refused : ¬ limit.Accepts taken.length) :
    ∃ mismatch, endRepetition tag item limit taken failure = .error mismatch := by
  unfold endRepetition
  rw [if_neg fun admitted => refused (CountLimit.admits_iff.mp admitted)]
  cases item.tag with
  | some name => exact ⟨_, rfl⟩
  | none => cases failure <;> exact ⟨_, rfl⟩

/-- The matches lie one after the other, from a position on up to another. -/
def Tiles {σ : Type} : Nat → List (Match σ) → Nat → Prop
  | position, [], stop => position = stop
  | position, matched :: rest, stop =>
      matched.span.start = position ∧ Tiles matched.span.stop rest stop

theorem Tiles.snoc {σ : Type} {position middle : Nat} {row : List (Match σ)}
    (tiles : Tiles position row middle) {matched : Match σ}
    (starts : matched.span.start = middle) :
    Tiles position (row ++ [matched]) matched.span.stop := by
  induction row generalizing position with
  | nil =>
      cases tiles
      exact ⟨starts, rfl⟩
  | cons first rest ih => exact ⟨tiles.1, ih tiles.2⟩

variable [Input ι]

namespace Config.Reaches

variable {setting : Setting ι α} {config : Config ι α} {parser : Parser ι α} {state : State α}
  {stack : List (Frame ι α)}

/-- From an untagged call the machine comes to the body, whatever the policies are. -/
theorem enters (untagged : parser.tag = none)
    (reached : Reaches setting config ⟨.call parser, stack, state⟩) :
    ∃ frame, Reaches setting config
      ⟨.body parser, frame :: stack, setting.entered parser state⟩ := by
  have missing : (callAt setting.input state.cursor parser).key? = none := by
    rw [Call.key?, callAt, untagged]
    rfl
  exact ⟨_, reached.tail (congrArg Progress.next
    (Config.beginCall_of_no_answer setting parser stack state
      (state.policy.enter_untagged missing)))⟩

/-- From a call that ends the machine comes back to the body that has waited for it. -/
theorem resumes {pending : Pending ι α} {outcome : Outcome (Symbol α)} {after : State α}
    (ran : Ends setting (.call parser) state (.answered outcome) after)
    (reached : Reaches setting config ⟨.call parser, .waiting pending :: stack, state⟩) :
    Reaches setting config ⟨.move (pending.resume outcome), stack, after⟩ := by
  obtain ⟨last, reaches, delivered⟩ := ran.reaches (.waiting pending :: stack)
  exact (reached.trans reaches).tail (delivered.trans rfl)

end Config.Reaches

namespace Setting

/-- Every run of the parser that the machine comes to from the configuration ends. -/
def RunsEnd (setting : Setting ι α) (config : Config ι α) (parser : Parser ι α) : Prop :=
  ∀ stack state, Config.Reaches setting config ⟨.call parser, stack, state⟩ →
    ∃ steps outcome final, setting.runMatch steps parser state = .done outcome final

theorem RunsEnd.ends {setting : Setting ι α} {config : Config ι α} {parser : Parser ι α}
    (runs : setting.RunsEnd config parser) {stack : List (Frame ι α)} {state : State α}
    (reached : Config.Reaches setting config ⟨.call parser, stack, state⟩) :
    ∃ outcome final, Ends setting (.call parser) state (.answered outcome) final := by
  obtain ⟨steps, outcome, final, done⟩ := runs stack state reached
  exact ⟨outcome, final, runMatch_eq_done_iff.mp ⟨steps, done⟩⟩

/-- The runs that a repetition has behind it when it goes on: matches that consume something. -/
inductive Laps (setting : Setting ι α) (item : Parser ι α) (limit : CountLimit) (begun : State α) :
    List (Match (Symbol α)) → State α → Prop where
  | start : Laps setting item limit begun [] begun
  | lap {taken : List (Match (Symbol α))} {middle after : State α} {matched : Match (Symbol α)} :
      Laps setting item limit begun taken middle → limit.Open taken.length →
      Ends setting (.call item) middle (.answered (.ok matched)) after →
      matched.span.isEmpty = false →
      Laps setting item limit begun (taken ++ [matched]) after

/--
How a repetition stops: at its greatest count, after a match that consumes nothing or after a
mismatch.
-/
inductive Repeats (setting : Setting ι α) (item : Parser ι α) (limit : CountLimit)
    (begun : State α) : List (Match (Symbol α)) → Option Mismatch → State α → Prop where
  | full {taken : List (Match (Symbol α))} {last : State α} :
      setting.Laps item limit begun taken last → ¬ limit.Open taken.length →
      Repeats setting item limit begun taken none last
  | empty {taken : List (Match (Symbol α))} {middle last : State α} {matched : Match (Symbol α)} :
      setting.Laps item limit begun taken middle → limit.Open taken.length →
      Ends setting (.call item) middle (.answered (.ok matched)) last →
      matched.span.isEmpty = true →
      Repeats setting item limit begun (taken ++ [matched]) none last
  | failed {taken : List (Match (Symbol α))} {middle last : State α} {mismatch : Mismatch} :
      setting.Laps item limit begun taken middle → limit.Open taken.length →
      Ends setting (.call item) middle (.answered (.error mismatch)) last →
      Repeats setting item limit begun taken (some mismatch) last

variable {setting : Setting ι α} {item : Parser ι α} {limit : CountLimit}
  {begun middle last : State α} {taken : List (Match (Symbol α))} {failure : Option Mismatch}

/-- Every lap leaves less of the input. -/
theorem Laps.reads (laps : setting.Laps item limit begun taken middle)
    (covering : begun.policy.Covering setting.input) :
    Tiles begun.cursor taken middle.cursor ∧
      taken.length + Input.remaining setting.input middle.cursor ≤
        Input.remaining setting.input begun.cursor ∧
      middle.policy.Covering setting.input := by
  induction laps with
  | start => exact ⟨rfl, by simp, covering⟩
  | @lap taken middle after matched laps _ ran consumes ih =>
      obtain ⟨tiles, fewer, covering⟩ := ih
      obtain ⟨covers, ahead, covering⟩ := ran.covers trivial covering
      obtain ⟨starts, -⟩ := covers matched rfl
      have lands : after.cursor = matched.span.stop := ran.landing
      have moved : middle.cursor ≠ after.cursor := by
        rw [lands, ← starts]
        simpa [Span.isEmpty] using consumes
      have shrinks := ahead.remaining_add
      have forward := ahead.forward
      refine ⟨?_, ?_, covering⟩
      · rw [lands]
        exact tiles.snoc starts
      · simp only [List.length_append, List.length_singleton]
        omega

/-- A repetition makes at most one run more than there are elements left. -/
theorem Repeats.reads (stops : setting.Repeats item limit begun taken failure last)
    (covering : begun.policy.Covering setting.input) :
    Tiles begun.cursor taken last.cursor ∧
      taken.length + failure.toList.length ≤ Input.remaining setting.input begun.cursor + 1 := by
  cases stops with
  | full laps _ =>
      obtain ⟨tiles, fewer, -⟩ := laps.reads covering
      refine ⟨tiles, ?_⟩
      simp only [Option.toList_none, List.length_nil]
      omega
  | @empty taken middle last matched laps _ ran _ =>
      obtain ⟨tiles, fewer, covering⟩ := laps.reads covering
      obtain ⟨covers, -, -⟩ := ran.covers trivial covering
      have lands : last.cursor = matched.span.stop := ran.landing
      refine ⟨?_, ?_⟩
      · rw [lands]
        exact tiles.snoc (covers matched rfl).1
      · simp only [List.length_append, List.length_singleton, Option.toList_none, List.length_nil]
        omega
  | failed laps _ ran =>
      obtain ⟨tiles, fewer, -⟩ := laps.reads covering
      refine ⟨?_, ?_⟩
      · rw [ran.landing]
        exact tiles
      · simp only [Option.toList_some, List.length_singleton]
        omega

/-! ## The loop -/

section Loop

omit [Input ι]

def goesOn (item : Parser ι α) (limit : CountLimit) (taken : List (Match (Symbol α))) :
    Move ι α :=
  continueRepetition none item limit (taken.map Match.symbol).reverse

theorem goesOn_open (isOpen : limit.Open taken.length) :
    goesOn item limit taken =
      .call item (.iteration none item limit (taken.map Match.symbol).reverse) := by
  rw [goesOn, continueRepetition, if_pos]
  simpa using CountLimit.wantsMore_iff.mpr isOpen

theorem goesOn_full (full : ¬ limit.Open taken.length) :
    goesOn item limit taken =
      .reply (endRepetition none item limit (taken.map Match.symbol).reverse none) := by
  rw [goesOn, continueRepetition, if_neg]
  simpa using fun wanted => full (CountLimit.wantsMore_iff.mp wanted)

theorem resume_lap {matched : Match (Symbol α)} (consumes : matched.span.isEmpty = false) :
    Pending.resume (.iteration none item limit (taken.map Match.symbol).reverse) (.ok matched) =
      goesOn item limit (taken ++ [matched]) := by
  simp [Pending.resume, consumes, goesOn]

theorem resume_empty {matched : Match (Symbol α)} (empty : matched.span.isEmpty = true) :
    Pending.resume (.iteration none item limit (taken.map Match.symbol).reverse) (.ok matched) =
      .reply (endRepetition none item limit
        ((taken ++ [matched]).map Match.symbol).reverse none) := by
  simp [Pending.resume, empty]

end Loop

theorem Laps.reaches (laps : setting.Laps item limit begun taken middle)
    (stack : List (Frame ι α)) :
    Config.Reaches setting ⟨.move (goesOn item limit []), stack, begun⟩
      ⟨.move (goesOn item limit taken), stack, middle⟩ := by
  induction laps with
  | start => exact .refl
  | lap _ isOpen ran consumes ih =>
      rw [goesOn_open isOpen] at ih
      have next := Config.Reaches.resumes ran (ih.tail rfl)
      rwa [resume_lap consumes] at next

/-- The body ends as it goes on after its laps. -/
theorem Laps.ends (laps : setting.Laps item limit begun taken middle) {halt : Halt α}
    (ends : Ends setting (.move (goesOn item limit taken)) middle halt last) :
    Ends setting (.body (item.repeated limit)) begun halt last := by
  induction laps with
  | start => exact .body ends
  | lap _ isOpen ran consumes ih =>
      refine ih ?_
      rw [goesOn_open isOpen]
      refine .resumed ran ?_
      rw [resume_lap consumes]
      exact ends

/-- A repetition that stops ends with the symbols that it has taken. -/
theorem Repeats.ends (stops : setting.Repeats item limit begun taken failure last) :
    Ends setting (.body (item.repeated limit)) begun
      (.replied (endRepetition none item limit (taken.map Match.symbol).reverse failure)) last := by
  cases stops with
  | full laps full =>
      refine laps.ends ?_
      rw [goesOn_full full]
      exact .reply _ _
  | empty laps isOpen ran empty =>
      refine laps.ends ?_
      rw [goesOn_open isOpen]
      refine .resumed ran ?_
      rw [resume_empty empty]
      exact .reply _ _
  | failed laps isOpen ran =>
      refine laps.ends ?_
      rw [goesOn_open isOpen]
      exact .resumed ran (.reply _ _)

/--
A body that ends has stopped in one of the three ways.  The induction is on what is left of the
input, which every further lap makes smaller.
-/
theorem Laps.stops (laps : setting.Laps item limit begun taken middle)
    (covering : begun.policy.Covering setting.input) {result : Result α}
    (ends : Ends setting (.move (goesOn item limit taken)) middle (.replied result) last) :
    ∃ all failure, setting.Repeats item limit begun all failure last := by
  induction left : Input.remaining setting.input begun.cursor - taken.length using
      Nat.strongRecOn generalizing taken middle with
  | ind left ih =>
    by_cases isOpen : limit.Open taken.length
    · rw [goesOn_open isOpen] at ends
      cases ends with
      | @resumed _ _ outcome _ after _ _ ran rest =>
          cases outcome with
          | error mismatch =>
              cases rest
              exact ⟨taken, some mismatch, .failed laps isOpen ran⟩
          | ok matched =>
              cases consumes : matched.span.isEmpty with
              | true =>
                  rw [resume_empty consumes] at rest
                  cases rest
                  exact ⟨_, none, .empty laps isOpen ran consumes⟩
              | false =>
                  rw [resume_lap consumes] at rest
                  have further := Laps.lap laps isOpen ran consumes
                  obtain ⟨-, fewer, -⟩ := further.reads covering
                  rw [List.length_append, List.length_singleton] at fewer
                  refine ih _ ?_ further rest rfl
                  rw [List.length_append, List.length_singleton]
                  omega
    · rw [goesOn_full isOpen] at ends
      cases ends
      exact ⟨taken, none, .full laps isOpen⟩

/--
If every run that is wanted ends, then the runs come to a stop.  Again the induction is on what
is left of the input.
-/
theorem Laps.exists_stop (laps : setting.Laps item limit begun taken middle)
    (covering : begun.policy.Covering setting.input)
    (ended : ∀ taken middle, setting.Laps item limit begun taken middle →
      limit.Open taken.length →
      ∃ outcome after, Ends setting (.call item) middle (.answered outcome) after) :
    ∃ all failure last, setting.Repeats item limit begun all failure last := by
  induction left : Input.remaining setting.input begun.cursor - taken.length using
      Nat.strongRecOn generalizing taken middle with
  | ind left ih =>
    by_cases isOpen : limit.Open taken.length
    · obtain ⟨outcome, after, ran⟩ := ended taken middle laps isOpen
      cases outcome with
      | error mismatch => exact ⟨taken, some mismatch, after, .failed laps isOpen ran⟩
      | ok matched =>
          cases consumes : matched.span.isEmpty with
          | true => exact ⟨_, none, after, .empty laps isOpen ran consumes⟩
          | false =>
              have further := Laps.lap laps isOpen ran consumes
              obtain ⟨-, fewer, -⟩ := further.reads covering
              rw [List.length_append, List.length_singleton] at fewer
              refine ih _ ?_ further rfl
              rw [List.length_append, List.length_singleton]
              omega
    · exact ⟨taken, none, middle, .full laps isOpen⟩

/--
A repetition that has taken matches from a position up to another matches all of them if their
number is accepted, and otherwise fails with the cursor where it started.
-/
def Concludes (limit : CountLimit) (position : Nat) (taken : List (Match (Symbol α)))
    (stop : Nat) : Outcome (Symbol α) → Nat → Prop
  | .ok matched, cursor =>
      limit.Accepts taken.length ∧
        matched = ⟨.list (taken.map Match.symbol), ⟨position, stop⟩⟩ ∧ cursor = stop
  | .error _, cursor => ¬ limit.Accepts taken.length ∧ cursor = position

omit [Input ι] in
theorem concludes_of_endRepetition {position stop : Nat} {outcome : Outcome (Symbol α)}
    (same : outcome = .ofResult position stop
      (endRepetition none item limit (taken.map Match.symbol).reverse failure)) :
    Concludes limit position taken stop outcome (outcome.landing position) := by
  have count : (taken.map Match.symbol).reverse.length = taken.length := by simp
  by_cases accepts : limit.Accepts taken.length
  · rw [endRepetition_ok failure (count ▸ accepts), List.reverse_reverse] at same
    subst same
    exact ⟨accepts, rfl, rfl⟩
  · obtain ⟨mismatch, fails⟩ := endRepetition_error none item failure
      (count ▸ accepts : ¬ limit.Accepts (taken.map Match.symbol).reverse.length)
    rw [fails] at same
    subst same
    exact ⟨accepts, rfl⟩

variable {state : State α}

/-- A call of a repetition ends exactly if the runs that it makes come to a stop. -/
theorem ends_repeated_iff (covering : state.policy.Covering setting.input)
    {outcome : Outcome (Symbol α)} :
    (∃ final, Ends setting (.call (item.repeated limit)) state (.answered outcome) final) ↔
      ∃ taken failure last,
        setting.Repeats item limit (setting.entered (item.repeated limit) state) taken failure
          last ∧
        outcome = .ofResult state.cursor last.cursor
          (endRepetition none item limit (taken.map Match.symbol).reverse failure) := by
  obtain ⟨entered, -⟩ := covering.enter (callAt setting.input state.cursor (item.repeated limit))
  rw [ends_untagged_iff rfl]
  constructor
  · rintro ⟨result, last, ran, -, rfl⟩
    have ended := ran
    cases ran with
    | body moved =>
        obtain ⟨taken, failure, stops⟩ := Laps.stops .start entered moved
        obtain ⟨same, -⟩ := ended.unique stops.ends
        cases same
        exact ⟨taken, failure, last, stops, rfl⟩
  · rintro ⟨taken, failure, last, stops, rfl⟩
    obtain ⟨-, ahead, -⟩ := stops.ends.covers trivial entered
    exact ⟨_, last, stops.ends, fun _ _ => ahead.forward, rfl⟩

/-- The machine makes every run that a repetition wants after its laps. -/
theorem Laps.runs
    (laps : setting.Laps item limit (setting.entered (item.repeated limit) state) taken middle)
    (isOpen : limit.Open taken.length) :
    ∃ stack, Config.Reaches setting ⟨.call (item.repeated limit), [], state⟩
      ⟨.call item, stack, middle⟩ := by
  have called : Config.Reaches setting ⟨.call (item.repeated limit), [], state⟩
      ⟨.call (item.repeated limit), [], state⟩ := .refl
  obtain ⟨frame, begins⟩ := called.enters rfl
  have runs := (begins.tail rfl).trans (laps.reaches [frame])
  rw [goesOn_open isOpen] at runs
  exact ⟨_, runs.tail rfl⟩

/-- Without matches the only run was the first one, and it has failed. -/
theorem Repeats.failed_first (stops : setting.Repeats item limit begun [] failure last)
    (isOpen : limit.Open 0) :
    ∃ mismatch, Ends setting (.call item) begun (.answered (.error mismatch)) last := by
  generalize same : ([] : List (Match (Symbol α))) = taken at stops
  cases stops with
  | full _ full =>
      subst same
      exact absurd isOpen full
  | empty => simp at same
  | failed laps _ ran =>
      cases laps with
      | start => exact ⟨_, ran⟩
      | lap => simp at same

theorem ends_atLeastOne_error_iff (item : Parser ι α)
    (covering : state.policy.Covering setting.input) :
    (∃ mismatch final,
      Ends setting (.call item.atLeastOne) state (.answered (.error mismatch)) final) ↔
    ∃ mismatch after, Ends setting (.call item) (setting.entered item.atLeastOne state)
      (.answered (.error mismatch)) after := by
  have isOpen : (CountLimit.atLeast 1).Open 0 := trivial
  constructor
  · rintro ⟨mismatch, final, ends⟩
    obtain ⟨taken, failure, last, stops, same⟩ := (ends_repeated_iff covering).mp ⟨final, ends⟩
    obtain ⟨refused, -⟩ := concludes_of_endRepetition same
    cases taken with
    | nil =>
        obtain ⟨mismatch, ran⟩ := stops.failed_first isOpen
        exact ⟨mismatch, last, ran⟩
    | cons first rest => exact absurd (Nat.succ_pos rest.length) refused
  · rintro ⟨mismatch, after, ran⟩
    have refused : ¬ (CountLimit.atLeast 1).Accepts ([] : List (Symbol α)).length :=
      Nat.not_succ_le_zero 0
    obtain ⟨other, fails⟩ := endRepetition_error none item (some mismatch) refused
    obtain ⟨final, ends⟩ :=
      (ends_repeated_iff covering).mpr ⟨[], _, after, .failed .start isOpen ran, rfl⟩
    rw [List.map_nil, List.reverse_nil, fails] at ends
    exact ⟨other, final, ends⟩

/-! ## The contract -/

/-- What a call of a repetition does in a state. -/
structure RepetitionContract (setting : Setting ι α) (item : Parser ι α) (limit : CountLimit)
    (state : State α) : Prop where
  /-- Every run that is wanted after laps is made, where the last of them ended. -/
  runs : ∀ taken middle,
    setting.Laps item limit (setting.entered (item.repeated limit) state) taken middle →
    limit.Open taken.length →
    (∃ stack, Config.Reaches setting ⟨.call (item.repeated limit), [], state⟩
      ⟨.call item, stack, middle⟩) ∧
    Tiles state.cursor taken middle.cursor ∧
    taken.length + 1 ≤ Input.remaining setting.input state.cursor + 1
  /-- If every run of the item ends, then the call does, too. -/
  stops : setting.RunsEnd ⟨.call (item.repeated limit), [], state⟩ item →
    ∃ steps outcome final,
      setting.runMatch steps (item.repeated limit) state = .done outcome final
  /-- The call ends if the runs come to a stop, and not otherwise. -/
  ends : (∃ steps outcome final,
      setting.runMatch steps (item.repeated limit) state = .done outcome final) ↔
    ∃ taken failure last,
      setting.Repeats item limit (setting.entered (item.repeated limit) state) taken failure last
  /-- The number of matches decides about the outcome. -/
  concludes : ∀ steps outcome final,
    setting.runMatch steps (item.repeated limit) state = .done outcome final →
    ∃ taken failure last,
      setting.Repeats item limit (setting.entered (item.repeated limit) state) taken failure
        last ∧
      Tiles state.cursor taken last.cursor ∧
      taken.length + failure.toList.length ≤ Input.remaining setting.input state.cursor + 1 ∧
      Concludes limit state.cursor taken last.cursor outcome final.cursor

theorem repetitionContract (item : Parser ι α) (limit : CountLimit)
    (covering : state.policy.Covering setting.input) :
    setting.RepetitionContract item limit state := by
  obtain ⟨entered, -⟩ := covering.enter (callAt setting.input state.cursor (item.repeated limit))
  have ends {taken : List (Match (Symbol α))} {failure : Option Mismatch} {last : State α}
      (stops : setting.Repeats item limit (setting.entered (item.repeated limit) state) taken
        failure last) :
      ∃ steps outcome final,
        setting.runMatch steps (item.repeated limit) state = .done outcome final := by
    obtain ⟨final, ends⟩ :=
      (ends_repeated_iff covering).mpr ⟨taken, failure, last, stops, rfl⟩
    obtain ⟨steps, done⟩ := runMatch_eq_done_iff.mpr ends
    exact ⟨steps, _, final, done⟩
  refine ⟨?_, ?_, ⟨?_, ?_⟩, ?_⟩
  · intro taken middle laps isOpen
    obtain ⟨tiles, fewer, -⟩ := laps.reads entered
    exact ⟨laps.runs isOpen, tiles, Nat.succ_le_succ (Nat.le_of_add_right_le fewer)⟩
  · intro runsEnd
    have ended (taken : List (Match (Symbol α))) (middle : State α)
        (laps : setting.Laps item limit (setting.entered (item.repeated limit) state) taken middle)
        (isOpen : limit.Open taken.length) :
        ∃ outcome after, Ends setting (.call item) middle (.answered outcome) after := by
      obtain ⟨stack, reached⟩ := laps.runs isOpen
      exact runsEnd.ends reached
    obtain ⟨all, failure, last, stops⟩ := Laps.exists_stop .start entered ended
    exact ends stops
  · rintro ⟨steps, outcome, final, done⟩
    obtain ⟨taken, failure, last, stops, -⟩ :=
      (ends_repeated_iff covering).mp ⟨final, runMatch_eq_done_iff.mp ⟨steps, done⟩⟩
    exact ⟨taken, failure, last, stops⟩
  · rintro ⟨taken, failure, last, stops⟩
    exact ends stops
  · intro steps outcome final done
    have ends := runMatch_eq_done_iff.mp ⟨steps, done⟩
    obtain ⟨taken, failure, last, stops, same⟩ := (ends_repeated_iff covering).mp ⟨final, ends⟩
    obtain ⟨tiles, fewer⟩ := stops.reads entered
    refine ⟨taken, failure, last, stops, tiles, fewer, ?_⟩
    rw [ends.landing]
    exact concludes_of_endRepetition same

end Setting

open Setting

/--
Repetitions of any item under any policies, at any moment of an engine.  A repetition makes one
run after the other, the first where it starts and each further one where the one before ended,
until one fails, one consumes nothing or the greatest count is reached; so there is at most one
run more than elements are left.  If all these runs end, then so does the repetition: with
the symbols in their order and the cursor after the last of them if their number is accepted,
and otherwise with a mismatch and the cursor where it started.  Any number of repetitions never
fails, and at least one fails exactly if the first run does.
-/
theorem runMatch_repeated (setting : Setting ι α) (item : Parser ι α) {policy : Policy α}
    (fresh : policy.Fresh) {arena : Arena ι α} {parser : Parser ι α}
    {history : List (Deed α)} {moment : Moment ι α}
    (lives : Lives setting.input (.birth policy arena parser) history moment) :
    (∀ limit, setting.RepetitionContract item limit moment.config.state) ∧
    (∀ steps mismatch final,
      setting.runMatch steps item.many moment.config.state ≠ .done (.error mismatch) final) ∧
    ((∃ steps mismatch final,
        setting.runMatch steps item.atLeastOne moment.config.state =
          .done (.error mismatch) final) ↔
      ∃ steps mismatch after,
        setting.runMatch steps item (setting.entered item.atLeastOne moment.config.state) =
          .done (.error mismatch) after) := by
  have covering := (lives.covering fresh).policy
  refine ⟨fun limit => repetitionContract item limit covering, ?_, ?_⟩
  · intro steps mismatch final done
    obtain ⟨taken, -, -, -, -, -, refused, -⟩ :=
      (repetitionContract item .unlimited covering).concludes steps _ final done
    exact refused (CountLimit.unlimited_accepts taken.length)
  · have fails := ends_atLeastOne_error_iff item covering
    constructor
    · rintro ⟨steps, mismatch, final, done⟩
      obtain ⟨other, after, ran⟩ :=
        fails.mp ⟨mismatch, final, runMatch_eq_done_iff.mp ⟨steps, done⟩⟩
      obtain ⟨steps, done⟩ := runMatch_eq_done_iff.mpr ran
      exact ⟨steps, other, after, done⟩
    · rintro ⟨steps, mismatch, after, done⟩
      obtain ⟨other, final, ends⟩ :=
        fails.mpr ⟨mismatch, after, runMatch_eq_done_iff.mp ⟨steps, done⟩⟩
      obtain ⟨steps, done⟩ := runMatch_eq_done_iff.mpr ends
      exact ⟨steps, other, final, done⟩

def threeLetters : Setting (Array Char) Unit := ⟨#['a', 'a', 'a'], .empty⟩

/--
Of three letters a repetition takes two if this is its greatest count, and leaves the third.  No
number lies between three and one, so that a repetition with these bounds fails.
-/
theorem runMatch_repeated_letters :
    (∃ steps final, threeLetters.runMatch steps ((letter 'a').repeated (.atMost 2))
        (.initial .standard) =
          .done (.ok ⟨.list [.character 'a', .character 'a'], ⟨0, 2⟩⟩) final ∧
      ∃ taken failure last, threeLetters.Repeats (letter 'a') (.atMost 2)
          (threeLetters.entered ((letter 'a').repeated (.atMost 2)) (.initial .standard))
          taken failure last ∧
        taken.map Match.symbol = [.character 'a', .character 'a'] ∧ last.cursor = 2 ∧
        ¬ (CountLimit.atMost 2).Open taken.length) ∧
    ∀ steps matched final, threeLetters.runMatch steps ((letter 'a').repeated (.between 3 1))
      (.initial .standard) ≠ .done (.ok matched) final := by
  have lives : Lives threeLetters.input (.birth .standard .empty (letter 'a')) []
      (.birth .standard .empty (letter 'a')) := .here
  obtain ⟨contract, -, -⟩ := runMatch_repeated threeLetters (letter 'a')
    Policy.standard_fresh lives
  constructor
  · obtain ⟨final, done⟩ : ∃ final, threeLetters.runMatch 40
        ((letter 'a').repeated (.atMost 2)) (.initial .standard) =
          .done (.ok ⟨.list [.character 'a', .character 'a'], ⟨0, 2⟩⟩) final := ⟨_, rfl⟩
    obtain ⟨taken, failure, last, stops, -, -, -, same, -⟩ :=
      (contract (.atMost 2)).concludes 40 _ final done
    have symbols : taken.map Match.symbol = [.character 'a', .character 'a'] :=
      (Symbol.list.inj (congrArg Match.symbol same)).symm
    have two : taken.length = 2 := by
      rw [← List.length_map Match.symbol, symbols]
      rfl
    have reached : last.cursor = 2 := (congrArg (fun matched => matched.span.stop) same).symm
    exact ⟨40, final, done, taken, failure, last, stops, symbols, reached,
      two ▸ Nat.lt_irrefl 2⟩
  · intro steps matched final done
    obtain ⟨taken, -, -, -, -, -, ⟨enough, notTooMany⟩, -⟩ :=
      (contract (.between 3 1)).concludes steps _ final done
    exact absurd (enough.trans notTooMany) (by decide)

end Packrat
