import Packrat.Proofs.Life
import Packrat.Proofs.Transparency

/-!
# Serving a sequence of tasks

What an engine does depends on what it is asked for.  A task is one run: a parser, the position
where it is called, and the arena in which it finds the parsers of handles.  `Serves` relates a
sequence of tasks to the configurations that an engine passes through when it is given them one
after another, so that two engines can be given the same.
-/

namespace Packrat

variable {ι α : Type}

structure Task (ι α : Type) where
  arena : Arena ι α
  parser : Parser ι α
  position : Nat

def Task.begin (task : Task ι α) (state : State α) : Config ι α :=
  ⟨.call task.parser, [], state.moveTo task.position⟩

variable [Input ι]

/--
The configurations of an engine that starts with given policies, each with the tasks that it was
given and the history since then; the latest task and the latest deed come first.
-/
inductive Serves (input : ι) (policy : Policy α) :
    List (Task ι α) → List (Deed α) → Config ι α → Prop where
  | first (task : Task ι α) : Serves input policy [task] [] (task.begin (.initial policy))
  | step {task : Task ι α} {tasks : List (Task ι α)} {history : List (Deed α)}
      {config next : Config ι α} :
      Serves input policy (task :: tasks) history config →
      config.step ⟨input, task.arena⟩ = .next next →
      Serves input policy (task :: tasks)
        ((config.deed? ⟨input, task.arena⟩).toList ++ history) next
  | next {tasks : List (Task ι α)} {history : List (Deed α)} {outcome : Outcome (Symbol α)}
      {state : State α} (task : Task ι α) :
      Serves input policy tasks history ⟨.answer outcome, [], state⟩ →
      Serves input policy (task :: tasks) history (task.begin state)

section Runs

variable {input : ι} {policy : Policy α} {task : Task ι α} {tasks : List (Task ι α)}
  {history : List (Deed α)} {config last : Config ι α}

theorem Serves.reaches (serves : Serves input policy (task :: tasks) history config)
    (reaches : Config.Reaches ⟨input, task.arena⟩ config last) :
    ∃ later, Serves input policy (task :: tasks) later last := by
  induction reaches with
  | refl => exact ⟨history, serves⟩
  | tail _ edge ih =>
      obtain ⟨later, serves⟩ := ih
      exact ⟨_, serves.step edge⟩

theorem Config.Stands.reaches {setting : Setting ι α} (stands : config.Stands)
    (reaches : Config.Reaches setting config last) : last.Stands := by
  induction reaches with
  | refl => exact stands
  | tail _ edge ih => exact ih.step edge

/-- A task that is done has its answer at a later moment. -/
theorem Serves.done {state final : State α} {steps : Nat} {outcome : Outcome (Symbol α)}
    (serves : Serves input policy (task :: tasks) history (task.begin state))
    (done : (Setting.mk input task.arena).runMatch steps task.parser
      (state.moveTo task.position) = .done outcome final) :
    ∃ later, Serves input policy (task :: tasks) later ⟨.answer outcome, [], final⟩ := by
  have ends := Setting.runMatch_eq_done_iff.mp ⟨steps, done⟩
  obtain ⟨last, reaches, halted⟩ := ends.reaches []
  have stands : (task.begin state).Stands := trivial
  rw [(stands.reaches reaches).answered halted] at reaches
  exact serves.reaches reaches

/--
A directly recursive parser that ends without policies gives the same answer to an engine with
fresh policies.
-/
theorem Serves.recursive [Readable ι] {tag : Tag} {body : Parser ι α}
    (composed : body.Composed .untagged) (fresh : policy.Fresh) {steps : Nat}
    {outcome : Outcome (Symbol α)} {plainFinal : State α}
    (plain : (Setting.mk input .empty).runMatch steps (.recursive tag body) (.plain 0) =
      .done outcome plainFinal) :
    ∃ history final, Serves input policy [⟨.empty, .recursive tag body, 0⟩] history
      ⟨.answer outcome, [], final⟩ := by
  let setting : Setting ι α := ⟨input, .empty⟩
  let task : Task ι α := ⟨.empty, .recursive tag body, 0⟩
  let state : State α := .initial policy
  have arena : setting.arena.Composed .unrestricted := Arena.empty_composed _
  have within : (Pieces.untagged : Pieces ι α).Within .unrestricted :=
    ⟨fun _ => trivial, fun _ => trivial, fun _ => trivial, id⟩
  have whole : task.parser.Composed .unrestricted := .recursive trivial (composed.mono within)
  have settled : state.policy.Settled setting fun _ => task.parser :=
    (LeftBehind.fresh fresh).settled arena
  have named : setting.Names (fun _ => task.parser) task.parser state.cursor :=
    Setting.names_of_recursive setting tag composed 0
  obtain ⟨final, ends, -⟩ := settled.simulates arena whole named plain
  obtain ⟨_, done⟩ := Setting.runMatch_eq_done_iff.mpr ends
  obtain ⟨history, serves⟩ := (Serves.first task).done done
  exact ⟨history, final, serves⟩

end Runs

end Packrat
