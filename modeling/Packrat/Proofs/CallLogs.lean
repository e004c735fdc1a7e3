import Packrat.Proofs.NaturalSemantics

/-!
# The calls that a run makes

A run of the machine calls parsers at positions, one after the other.  `Config.callLog` lists
them for a number of steps.  `Setting.Enacts` says of a control that it comes to its end in
such a way, with the same calls on every stack; the ways in which controls are made of others
are reflected in how their calls are put together.
-/

namespace Packrat

variable {ι α : Type} [Input ι]

namespace Config

def called? : Config ι α → Option (Parser ι α × Nat)
  | ⟨.call parser, _, state⟩ => some (parser, state.cursor)
  | _ => none

/-- The calls that the machine makes in a number of steps, in their order. -/
def callLog (setting : Setting ι α) : Nat → Config ι α → List (Parser ι α × Nat)
  | 0, _ => []
  | steps + 1, config =>
      config.called?.toList ++
        match config.step setting with
        | .next next => callLog setting steps next
        | .halt _ _ => []

/-- A number of steps, in which calls are made, leads from one configuration to another. -/
inductive Travels (setting : Setting ι α) :
    Config ι α → List (Parser ι α × Nat) → Config ι α → Prop where
  | here (config : Config ι α) : Travels setting config [] config
  | step {config next last : Config ι α} {calls : List (Parser ι α × Nat)} :
      config.step setting = .next next → Travels setting next calls last →
      Travels setting config (config.called?.toList ++ calls) last

namespace Travels

variable {setting : Setting ι α} {config next middle last : Config ι α}
  {calls callsToo : List (Parser ι α × Nat)}

theorem trans (travels : Travels setting config calls middle)
    (further : Travels setting middle callsToo last) :
    Travels setting config (calls ++ callsToo) last := by
  induction travels with
  | here config => exact further
  | step edge _ ih =>
      rw [List.append_assoc]
      exact .step edge (ih further)

/-- A step that is not a call adds nothing to the log. -/
theorem quiet (silent : config.called? = none) (edge : config.step setting = .next next)
    (travels : Travels setting next calls last) : Travels setting config calls last := by
  have stepped := Travels.step edge travels
  rw [silent] at stepped
  exact stepped

variable {halt : Halt α} {final : State α}

theorem run (travels : Travels setting config calls last)
    (halted : last.step setting = .halt halt final) :
    ∃ steps, Config.run setting steps config = some (halt, final) := by
  induction travels with
  | here config =>
      refine ⟨1, ?_⟩
      rw [run_succ, halted]
      rfl
  | step edge _ ih =>
      obtain ⟨steps, ended⟩ := ih halted
      refine ⟨steps + 1, ?_⟩
      rw [run_succ, edge]
      exact ended

theorem callLog (travels : Travels setting config calls last) (silent : last.called? = none)
    (halted : last.step setting = .halt halt final) {steps : Nat} {ending : Halt α × State α}
    (ended : Config.run setting steps config = some ending) :
    Config.callLog setting steps config = calls := by
  induction travels generalizing steps with
  | here config =>
      cases steps with
      | zero => cases ended
      | succ steps => rw [Config.callLog, silent, halted]; rfl
  | step edge _ ih =>
      obtain ⟨rest, rfl, goesOn⟩ := endAfter_step_of_run ended
      rw [edge] at goesOn
      rw [Config.callLog, edge, ← ih silent halted goesOn]

end Travels

end Config

open Config

namespace Setting

/-- On every stack the control comes to its end, and makes the same calls on the way. -/
def Enacts (setting : Setting ι α) (control : Control ι α) (state : State α)
    (calls : List (Parser ι α × Nat)) (halt : Halt α) (final : State α) : Prop :=
  ∀ stack, ∃ last, Travels setting ⟨control, stack, state⟩ calls last ∧ last.called? = none ∧
    last.step setting = deliver setting stack halt final

namespace Enacts

variable {setting : Setting ι α} {parser : Parser ι α} {pending : Pending ι α}
  {state middle final : State α} {halt : Halt α} {calls callsToo : List (Parser ι α × Nat)}
  {outcome : Outcome (Symbol α)}

theorem reply (result : Result α) (state : State α) :
    setting.Enacts (.move (.reply result)) state [] (.replied result) state :=
  fun _ => ⟨_, .here _, rfl, rfl⟩

theorem read (symbol : Symbol α) (stop : Nat) (state : State α) :
    setting.Enacts (.move (.read symbol stop)) state [] (.replied (.ok symbol))
      (state.moveTo stop) :=
  fun _ => ⟨_, .here _, rfl, rfl⟩

theorem become {events : List Event}
    (enacts : setting.Enacts (.body parser) (state.record events) calls halt final) :
    setting.Enacts (.move (.become events parser)) state calls halt final := by
  intro stack
  obtain ⟨last, travels, delivered⟩ := enacts stack
  exact ⟨last, travels.quiet rfl rfl, delivered⟩

theorem body (enacts : setting.Enacts (.move (parser.start setting state)) state calls halt
    final) : setting.Enacts (.body parser) state calls halt final := by
  intro stack
  obtain ⟨last, travels, delivered⟩ := enacts stack
  exact ⟨last, travels.quiet rfl rfl, delivered⟩

theorem resumed
    (enacts : setting.Enacts (.call parser) state calls (.answered outcome) middle)
    (rest : setting.Enacts (.move (pending.resume outcome)) middle callsToo halt final) :
    setting.Enacts (.move (.call parser pending)) state (calls ++ callsToo) halt final := by
  intro stack
  obtain ⟨answering, travels, silent, delivered⟩ := enacts (.waiting pending :: stack)
  obtain ⟨last, further, silentToo, deliveredToo⟩ := rest stack
  exact ⟨last, .quiet rfl rfl (travels.trans (further.quiet silent delivered)), silentToo,
    deliveredToo⟩

theorem answered {given : Outcome (Sealed α)}
    (answer : (setting.entry parser state).answer = some given) :
    setting.Enacts (.call parser) state [(parser, state.cursor)]
      (.answered (settle (callAt setting.input state.cursor parser) parser.kind given
        (setting.entered parser state)).1)
      (settle (callAt setting.input state.cursor parser) parser.kind given
        (setting.entered parser state)).2 := by
  intro stack
  have edge := congrArg Progress.next (beginCall_of_answer setting parser stack state answer)
  exact ⟨_, .step edge (.here _), rfl, rfl⟩

theorem executed {result : Result α} {made : Outcome (Sealed α)}
    (missing : (setting.entry parser state).answer = none)
    (enacts : setting.Enacts (.body parser) (setting.entered parser state) calls
      (.replied result) middle)
    (sealed : sealResult (callAt setting.input state.cursor parser) parser.kind middle.cursor
      result = .ok made) :
    setting.Enacts (.call parser) state ((parser, state.cursor) :: calls)
      (.answered (conclude (callAt setting.input state.cursor parser) parser.kind made middle).1)
      (conclude (callAt setting.input state.cursor parser) parser.kind made middle).2 := by
  intro stack
  let call := callAt setting.input state.cursor parser
  have edge : step setting ⟨.call parser, stack, state⟩ = .next _ :=
    congrArg Progress.next (beginCall_of_no_answer setting parser stack state missing)
  obtain ⟨replying, travels, silent, delivered⟩ := enacts (.active call parser.kind :: stack)
  simp only [deliver, endBody, call, sealed, endCall_eq] at delivered
  have whole := Travels.step edge (travels.trans (.quiet silent delivered (.here _)))
  rw [List.append_nil] at whole
  exact ⟨_, whole, rfl, rfl⟩

theorem ends {control : Control ι α} (started : ∀ outcome, control ≠ .answer outcome)
    (enacts : setting.Enacts control state calls halt final) :
    Ends setting control state halt final := by
  obtain ⟨last, travels, -, delivered⟩ := enacts []
  have halted : last.step setting = .halt halt final := by
    rw [delivered]
    cases halt <;> rfl
  exact (ends_iff_run started).mpr (travels.run halted)

theorem callLog
    (enacts : setting.Enacts (.call parser) state calls (.answered outcome) final)
    {steps : Nat} {outcomeToo : Outcome (Symbol α)} {finalToo : State α}
    (done : setting.runMatch steps parser state = .done outcomeToo finalToo) :
    Config.callLog setting steps ⟨.call parser, [], state⟩ = calls := by
  obtain ⟨last, travels, silent, halted⟩ := enacts []
  rw [runMatch] at done
  split at done
  · next ended => exact travels.callLog silent halted ended
  · next ended => exact travels.callLog silent halted ended
  · cases done
  · cases done

end Enacts

end Setting

end Packrat
