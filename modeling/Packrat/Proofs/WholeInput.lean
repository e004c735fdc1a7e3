import Packrat.Proofs.Settling

/-!
# Parsing whole inputs

Parsing is a run of the start parser on a fresh standard engine and then one of the end of
the input.  The latter is untagged, so that all policies leave it to its body.  An input is
therefore accepted exactly if the run of the start parser matches up to the last position.
-/

namespace Packrat

variable {ι α : Type}

theorem Policy.enter_untagged (policy : Policy α) {call : Call} (untagged : call.key? = none) :
    (policy.enter call).answer = none := by
  induction policy with
  | chain outer inner outerIh innerIh => simp only [enter, outerIh, innerIh]
  | _ => simp only [enter, untagged]

theorem Policy.leave_untagged (policy : Policy α) {call : Call} (untagged : call.key? = none)
    (outcome : Outcome (Sealed α)) : (policy.leave call outcome).outcome = outcome := by
  induction policy generalizing outcome with
  | chain outer inner outerIh innerIh => simp only [leave, outerIh, innerIh]
  | tracer state => cases outcome <;> rfl
  | _ => simp only [leave, untagged]

variable [Input ι] {setting : Setting ι α} {parser : Parser ι α} {state middle final : State α}

/-- A call leaves the cursor where its outcome says. -/
theorem Ends.landing {outcome : Outcome (Symbol α)}
    (ends : Ends setting (.call parser) state (.answered outcome) final) :
    final.cursor = outcome.landing state.cursor := by
  cases ends with
  | answered _ => exact settle_cursor _ _ _ _
  | executed _ _ _ => exact settle_cursor _ _ _ _

/-- A call of an untagged parser ends as its body does, whatever the policies are. -/
theorem ends_untagged_iff (untagged : parser.tag = none) {outcome : Outcome (Symbol α)} :
    (∃ final, Ends setting (.call parser) state (.answered outcome) final) ↔
      ∃ result middle, Ends setting (.body parser) (setting.entered parser state)
          (.replied result) middle ∧
        (∀ symbol, result = .ok symbol → state.cursor ≤ middle.cursor) ∧
        outcome = .ofResult state.cursor middle.cursor result := by
  have missing : (callAt setting.input state.cursor parser).key? = none := by
    rw [Call.key?, callAt, untagged]
    rfl
  have unanswered : (setting.entry parser state).answer = none :=
    state.policy.enter_untagged missing
  have returns (middle : State α) (outcome : Outcome (Symbol α)) :
      (conclude (callAt setting.input state.cursor parser) parser.kind
        (outcome.sealedAs parser.kind) middle).1 = outcome := by
    rw [conclude, Policy.leave_untagged _ missing, settle_sealedAs]
  constructor
  · rintro ⟨final, ends⟩
    cases ends with
    | answered answer => cases unanswered.symm.trans answer
    | @executed _ _ middle result _ _ ran sealed =>
        have forward := forward_of_sealResult sealed
        cases sealed.symm.trans (sealResult_ofResult forward)
        exact ⟨result, middle, ran, forward, returns middle _⟩
  · rintro ⟨result, middle, ran, forward, rfl⟩
    have ended := Ends.executed unanswered ran (sealResult_ofResult forward)
    rw [returns] at ended
    exact ⟨_, ended⟩

theorem start_endOfInput (setting : Setting ι α) (state : State α) :
    Parser.endOfInput.start setting state =
      if Input.size setting.input ≤ state.cursor then
        if state.cursor ≤ Input.size setting.input then .read .unit state.cursor
        else .abort .pastEnd
      else .reply (.error (.expected none "end of input")) := by
  unfold Parser.endOfInput
  by_cases atEnd : Input.size setting.input ≤ state.cursor
  · simp only [Parser.start, if_pos atEnd, Nat.add_zero]
  · simp only [Parser.start, if_neg atEnd]

theorem ends_endOfInput_iff :
    (∃ matched final, Ends setting (.call .endOfInput) state (.answered (.ok matched)) final) ↔
      state.cursor = Input.size setting.input := by
  let entered := setting.entered Parser.endOfInput state
  constructor
  · rintro ⟨matched, ends⟩
    obtain ⟨result, middle, ran, -, same⟩ := (ends_untagged_iff rfl).mp ends
    cases ran with
    | body moved =>
        rw [start_endOfInput] at moved
        split at moved
        · next above =>
            split at moved
            · next below => exact Nat.le_antisymm below above
            · cases moved
        · cases moved
          cases same
  · intro atEnd
    have reads : Ends setting (.body .endOfInput) entered (.replied (.ok .unit))
        (entered.moveTo state.cursor) := by
      have here : entered.cursor = Input.size setting.input := atEnd
      refine .body ?_
      rw [start_endOfInput, if_pos (Nat.le_of_eq here.symm), if_pos (Nat.le_of_eq here)]
      exact .read .unit state.cursor entered
    exact ⟨_, (ends_untagged_iff rfl).mpr ⟨_, _, reads, fun _ _ => Nat.le_refl _, rfl⟩⟩

theorem ends_endOfInput_error (before : state.cursor < Input.size setting.input) :
    ∃ mismatch final,
      Ends setting (.call .endOfInput) state (.answered (.error mismatch)) final := by
  let entered := setting.entered Parser.endOfInput state
  have fails : Ends setting (.body .endOfInput) entered
      (.replied (.error (.expected none "end of input"))) entered := by
    have here : ¬ Input.size setting.input ≤ entered.cursor := Nat.not_le.mpr before
    refine .body ?_
    rw [start_endOfInput, if_neg here]
    exact .reply _ _
  exact ⟨_, (ends_untagged_iff rfl).mpr ⟨_, _, fails, nofun, rfl⟩⟩

theorem Run.andThen_eq_done_iff {β γ : Type} {run : Run α β} {next : β → State α → Run α γ}
    {value : γ} : run.andThen next = .done value final ↔
      ∃ one middle, run = .done one middle ∧ next one middle = .done value final := by
  cases run with
  | done one middle =>
      constructor
      · exact fun goesOn => ⟨one, middle, rfl, goesOn⟩
      · rintro ⟨_, _, same, goesOn⟩
        cases same
        exact goesOn
  | faulted fault state => exact ⟨nofun, nofun⟩
  | unfinished => exact ⟨nofun, nofun⟩

theorem Setting.runMatch_add (setting : Setting ι α) (extra : Nat) {steps : Nat}
    {outcome : Outcome (Symbol α)}
    (done : setting.runMatch steps parser state = .done outcome final) :
    setting.runMatch (steps + extra) parser state = .done outcome final := by
  unfold runMatch at done ⊢
  cases ended : Config.run setting steps ⟨.call parser, [], state⟩ with
  | none =>
      rw [ended] at done
      cases done
  | some ending =>
      rw [Config.run_add setting extra ended]
      rwa [ended] at done

/-- An input is accepted if the start parser matches all of it. -/
theorem Setting.parse_eq_ok_iff {symbol : Symbol α} :
    (∃ steps final, setting.parse steps parser = .done (.ok symbol) final) ↔
      ∃ matched middle, Ends setting (.call parser) (.initial .standard)
        (.answered (.ok matched)) middle ∧ matched.symbol = symbol ∧
        matched.span.stop = Input.size setting.input := by
  constructor
  · rintro ⟨steps, final, done⟩
    obtain ⟨result, middle, first, rest⟩ := Run.andThen_eq_done_iff.mp done
    obtain ⟨outcome, _, first, same⟩ := Run.andThen_eq_done_iff.mp first
    cases same
    cases outcome with
    | error mismatch => cases rest
    | ok matched =>
        obtain ⟨atEnd, last, second, rest⟩ := Run.andThen_eq_done_iff.mp rest
        obtain ⟨outcome, _, second, same⟩ := Run.andThen_eq_done_iff.mp second
        cases same
        cases outcome with
        | error mismatch => cases rest
        | ok empty =>
            cases rest
            have ends := runMatch_eq_done_iff.mp ⟨steps, first⟩
            refine ⟨matched, middle, ends, rfl, ?_⟩
            rw [← ends_endOfInput_iff.mp ⟨empty, _, runMatch_eq_done_iff.mp ⟨steps, second⟩⟩,
              ends.landing]
            rfl
  · rintro ⟨matched, middle, ends, rfl, stops⟩
    obtain ⟨steps, first⟩ := runMatch_eq_done_iff.mpr ends
    have atEnd : middle.cursor = Input.size setting.input := ends.landing.trans stops
    obtain ⟨empty, final, endsToo⟩ := ends_endOfInput_iff.mpr atEnd
    obtain ⟨stepsToo, second⟩ := runMatch_eq_done_iff.mpr endsToo
    refine ⟨steps + stepsToo, final, ?_⟩
    have firstToo := setting.runMatch_add stepsToo first
    have secondToo := setting.runMatch_add steps second
    rw [Nat.add_comm] at secondToo
    simp only [parse, runToEnd, run, firstToo, secondToo, Run.map, Run.andThen, Except.map]

/-- An input is rejected if the start parser matches only a part of it. -/
theorem Setting.parse_eq_error {matched : Match (Symbol α)}
    (ends : Ends setting (.call parser) (.initial .standard) (.answered (.ok matched)) middle)
    (stops : matched.span.stop < Input.size setting.input) :
    ∃ steps error final, setting.parse steps parser = .done (.error error) final := by
  obtain ⟨steps, first⟩ := runMatch_eq_done_iff.mpr ends
  have before : middle.cursor < Input.size setting.input := ends.landing.trans_lt stops
  obtain ⟨mismatch, final, endsToo⟩ := ends_endOfInput_error before
  obtain ⟨stepsToo, second⟩ := runMatch_eq_done_iff.mpr endsToo
  have firstToo := setting.runMatch_add stepsToo first
  have secondToo := setting.runMatch_add steps second
  rw [Nat.add_comm] at secondToo
  refine ⟨steps + stepsToo, ⟨mismatch, final.policy.farthestFailure⟩, final, ?_⟩
  simp only [parse, runToEnd, run, firstToo, secondToo, Run.map, Run.andThen, Except.map]

end Packrat
