import Packrat.Proofs.Reading
import Packrat.Proofs.Repairs

/-!
# Readings of repaired grammars

Evaluations relative to answers know no faults: where one exists, no finishing step has faulted
in it.  Each of them is therefore an evaluation of the repaired grammar as well, with the same
symbols at the same positions, and a key that settles goes on to settle after the repair.
-/

namespace Packrat

variable {ι α : Type} (repair : Result α)

theorem Parser.core_repaired : ∀ parser : Parser ι α,
    (parser.repaired repair).core = parser.core.repaired repair
  | .retag tag inner => renamed_repaired repair tag inner
  | .recording _ inner => core_repaired inner
  | .terminal .. | .answer _ | .inspect _ | .wrap .. | .both .. | .andThen .. | .repetition ..
  | .separated .. | .choice .. | .recursive .. | .self _ | .handle .. => rfl

def repairedNames (names : Tag → Parser ι α) (tag : Tag) : Parser ι α := (names tag).repaired repair

theorem named_repaired {names : Tag → Parser ι α} {given : Key → Outcome (Symbol α) → Prop}
    (parser : Parser ι α) (place : Nat) (outcome : Outcome (Symbol α))
    (allowed : Answering.named names given parser place outcome) :
    Answering.named (repairedNames repair names) given (parser.repaired repair) place outcome := by
  obtain ⟨tag, tagged, named, allowed⟩ := allowed
  exact ⟨tag, (parser.tag_repaired repair).trans tagged,
    (parser.core_repaired repair).trans (congrArg _ named), allowed⟩

variable [Input ι] {setting : Setting ι α}

theorem Yields.repaired {allowed more : Answering ι α} {control : Control ι α}
    {position stop : Nat} {halt : Halt α}
    (yields : Yields setting allowed control position halt stop)
    (wider : ∀ parser place outcome, allowed parser place outcome →
      more (parser.repaired repair) place outcome) :
    Yields (setting.repaired repair) more (control.repaired repair) position halt stop := by
  induction yields with
  | reply result => exact .reply result
  | read symbol stop => exact .read symbol stop
  | become _ ih => exact .become ih
  | body starts _ ih =>
      refine .body (fun policy journal => ?_) ih
      rw [start_repaired, starts]
  | @resumed _ _ _ _ pending outcome _ _ moved callIh moveIh =>
      rcases resume_repaired repair pending outcome with same | ⟨fault, aborts⟩
      · refine .resumed callIh ?_
        rw [same]
        exact moveIh
      · rw [aborts] at moved
        cases moved
  | answered tagged allows =>
      exact .answered (by rwa [Parser.tag_repaired]) (wider _ _ _ allows)
  | executed untagged _ forward ih =>
      exact .executed ((Parser.tag_repaired repair _).trans untagged) ih forward

namespace Setting

section Calls

variable {allowed more : Answering ι α} {parser : Parser ι α} {position stop : Nat}
  {symbol : Symbol α}

theorem Matches.repaired (one : setting.Matches allowed parser position symbol stop)
    (wider : ∀ parser place outcome, allowed parser place outcome →
      more (parser.repaired repair) place outcome) :
    (setting.repaired repair).Matches more (parser.repaired repair) position symbol stop :=
  ⟨Yields.repaired repair one.1 wider, one.2⟩

theorem Misses.repaired (misses : setting.Misses allowed parser position)
    (wider : ∀ parser place outcome, allowed parser place outcome →
      more (parser.repaired repair) place outcome) :
    (setting.repaired repair).Misses more (parser.repaired repair) position := by
  obtain ⟨mismatch, answers⟩ := misses
  exact ⟨mismatch, Yields.repaired repair answers wider⟩

end Calls

section Keys

variable {names : Tag → Parser ι α} {given others : Key → Outcome (Symbol α) → Prop} {key : Key}
  {made seed : Outcome (Symbol α)} {tag : Tag} {position stop : Nat} {symbol : Symbol α}

theorem Round.repaired (round : setting.Round names given key made) :
    (setting.repaired repair).Round (repairedNames repair names) given key made := by
  obtain ⟨result, stop, replies, forward, same⟩ := round
  exact ⟨result, stop, Yields.repaired repair replies (named_repaired repair), forward, same⟩

theorem Grows.repaired {rounds : Nat} (grows : setting.Grows names others key rounds seed) :
    (setting.repaired repair).Grows (repairedNames repair names) others key rounds seed := by
  induction grows with
  | first round => exact .first (round.repaired repair)
  | next _ round ih => exact .next ih (round.repaired repair)

theorem SettlesWithin.repaired {height : Nat} (key : Key) (outcome : Outcome (Symbol α))
    (settles : setting.SettlesWithin names height key outcome) :
    (setting.repaired repair).SettlesWithin (repairedNames repair names) height key outcome := by
  induction height generalizing key outcome with
  | zero => exact settles.elim
  | succ height ih => exact Grows.mono (Grows.repaired repair settles) ih

theorem Settles.repaired (settles : setting.Settles names key made) :
    (setting.repaired repair).Settles (repairedNames repair names) key made := by
  obtain ⟨height, settles⟩ := settles
  exact ⟨height, settles.repaired repair key made⟩

theorem SettlesOk.repaired (settles : setting.SettlesOk names tag position symbol stop) :
    (setting.repaired repair).SettlesOk (repairedNames repair names) tag position symbol stop :=
  ⟨settles.1.repaired repair, settles.2⟩

end Keys

end Setting

end Packrat
