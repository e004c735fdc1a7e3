import Packrat.Proofs.Derivation
import Packrat.Proofs.Reading

/-!
# Where runs overflow

A run that overflows does so in a finishing step, and the result that this step was given is one
that a call can be answered with.  `Overflows` follows a control to that step, where the calls of
tagged parsers have the outcomes that a relation allows; a call of a tagged parser has an outcome
and does not overflow itself.  So the overflow of a whole run is found in the body of one rule.
-/

namespace Packrat

variable {ι α : Type} [Input ι]

/-- A control that starts at a position overflows, where tagged calls have allowed outcomes. -/
inductive Overflows (setting : Setting ι α) (allowed : Answering ι α) :
    Control ι α → Nat → Prop where
  | abort (position : Nat) : Overflows setting allowed (.move (.abort .overflow)) position
  | become {events : List Event} {parser : Parser ι α} {position : Nat} :
      Overflows setting allowed (.body parser) position →
      Overflows setting allowed (.move (.become events parser)) position
  | body {parser : Parser ι α} {move : Move ι α} {position : Nat} :
      (∀ policy journal, parser.start setting ⟨position, policy, journal⟩ = move) →
      Overflows setting allowed (.move move) position →
      Overflows setting allowed (.body parser) position
  | first {parser : Parser ι α} {pending : Pending ι α} {position : Nat} :
      Overflows setting allowed (.call parser) position →
      Overflows setting allowed (.move (.call parser pending)) position
  | later {parser : Parser ι α} {pending : Pending ι α} {outcome : Outcome (Symbol α)}
      {position : Nat} :
      setting.Answers allowed parser position outcome →
      Overflows setting allowed (.move (pending.resume outcome)) (outcome.landing position) →
      Overflows setting allowed (.move (.call parser pending)) position
  | executed {parser : Parser ι α} {position : Nat} : parser.tag = none →
      Overflows setting allowed (.body parser) position →
      Overflows setting allowed (.call parser) position

namespace Overflows

variable {setting : Setting ι α} {allowed : Answering ι α}
  {parser inner first second : Parser ι α} {position : Nat} {tag : Option Tag}

theorem untagged (overflows : Overflows setting allowed (.call parser) position) :
    parser.tag = none := by
  cases overflows with
  | executed untagged _ => exact untagged

theorem of_call (overflows : Overflows setting allowed (.call parser) position) :
    Overflows setting allowed (.body parser) position := by
  cases overflows with
  | executed _ overflows => exact overflows

theorem of_start (move : Move ι α)
    (starts : ∀ policy journal, parser.start setting ⟨position, policy, journal⟩ = move)
    (overflows : Overflows setting allowed (.body parser) position) :
    Overflows setting allowed (.move move) position := by
  cases overflows with
  | body startsToo overflows =>
      rwa [← (startsToo .identity []).symm.trans (starts .identity [])]

theorem of_move_call {pending : Pending ι α}
    (overflows : Overflows setting allowed (.move (.call parser pending)) position) :
    Overflows setting allowed (.call parser) position ∨
      ∃ outcome, setting.Answers allowed parser position outcome ∧
        Overflows setting allowed (.move (pending.resume outcome)) (outcome.landing position) := by
  cases overflows with
  | first overflows => exact .inl overflows
  | later answers overflows => exact .inr ⟨_, answers, overflows⟩

theorem body_iff_of_becomes {other : Parser ι α} {events : List Event}
    (becomes : ∀ state, parser.start setting state = .become events other) :
    Overflows setting allowed (.body parser) position ↔
      Overflows setting allowed (.body other) position := by
  constructor
  · intro overflows
    cases of_start _ (fun _ _ => becomes _) overflows with
    | become overflows => exact overflows
  · exact fun overflows => .body (fun _ _ => becomes _) (.become overflows)

theorem body_core : Overflows setting allowed (.body parser.core) position ↔
    Overflows setting allowed (.body parser) position := by
  induction parser using Parser.core.induct with
  | case1 tag inner => exact (body_iff_of_becomes fun _ => rfl).symm
  | case2 events inner ih => exact ih.trans (body_iff_of_becomes fun _ => rfl).symm
  | case3 parser retag recording =>
      rw [Parser.core]
      · exact retag
      · exact recording

theorem of_terminal {expectation : String} {probe : Probe ι α}
    (overflows : Overflows setting allowed (.body (.terminal expectation probe)) position) :
    probe setting.input position = .error .overflow := by
  have moves := of_start (Parser.start setting ⟨position, .identity, []⟩
    (.terminal expectation probe)) (fun _ _ => rfl) overflows
  dsimp only [Parser.start] at moves
  split at moves
  · next fault found =>
      cases moves
      exact found
  · cases moves
  · split at moves <;> cases moves

theorem of_wrap {kind : Option Kind} {finish : Finish α}
    (overflows : Overflows setting allowed (.body (.wrap tag kind inner finish)) position) :
    Overflows setting allowed (.call inner) position ∨
      ∃ outcome, setting.Answers allowed inner position outcome ∧
        finish (outcome.map Match.symbol) = .error .overflow := by
  refine (of_move_call (of_start _ (fun _ _ => rfl) overflows)).imp_right ?_
  rintro ⟨outcome, answers, moves⟩
  refine ⟨outcome, answers, ?_⟩
  rw [Pending.resume] at moves
  cases finished : finish (outcome.map Match.symbol) with
  | ok result =>
      rw [finished] at moves
      cases moves
  | error fault =>
      rw [finished] at moves
      cases moves
      rfl

theorem of_both {combine : Symbol α → Symbol α → Symbol α}
    (overflows : Overflows setting allowed (.body (.both first second combine)) position) :
    Overflows setting allowed (.call first) position ∨
      ∃ matched, setting.Answers allowed first position (.ok matched) ∧
        Overflows setting allowed (.call second) matched.span.stop := by
  refine (of_move_call (of_start _ (fun _ _ => rfl) overflows)).imp_right ?_
  rintro ⟨outcome, answers, moves⟩
  cases outcome with
  | error mismatch => cases moves
  | ok matched =>
      rcases of_move_call moves with called | ⟨other, -, moves⟩
      · exact ⟨matched, answers, called⟩
      · cases other <;> cases moves

theorem of_choice {alternatives : List (Parser ι α)}
    (overflows : Overflows setting allowed (.body (.choice tag alternatives)) position) :
    ∃ one ∈ alternatives, Overflows setting allowed (.call one) position := by
  have tried (rest : List (Parser ι α))
      (moves : Overflows setting allowed (.move (tryAlternatives tag alternatives rest)) position) :
      ∃ one ∈ rest, Overflows setting allowed (.call one) position := by
    induction rest with
    | nil => cases moves
    | cons one rest ih =>
        rcases of_move_call moves with called | ⟨outcome, -, moves⟩
        · exact ⟨one, List.mem_cons_self, called⟩
        · cases outcome with
          | ok matched => cases moves
          | error mismatch =>
              obtain ⟨other, member, called⟩ := ih moves
              exact ⟨other, List.mem_cons_of_mem one member, called⟩
  exact tried alternatives (of_start _ (fun _ _ => rfl) overflows)

theorem of_recursive {name : Tag} {body : Parser ι α}
    (overflows : Overflows setting allowed (.body (.recursive name body)) position) :
    Overflows setting allowed (.call (Parser.unfold name body)) position := by
  rcases of_move_call (of_start _ (fun _ _ => rfl) overflows) with called | ⟨outcome, -, moves⟩
  · exact called
  · cases moves

theorem of_handle {name : Tag} {slot : Nat}
    (resolved : setting.arena.resolve name slot = .ok parser)
    (overflows : Overflows setting allowed (.body (.handle name slot)) position) :
    Overflows setting allowed (.body parser) position := by
  refine (body_iff_of_becomes (fun _ => ?_ : ∀ _, _ = Move.become [] parser)).mp overflows
  simp only [Parser.start, resolved]

end Overflows

section Runs

variable {setting : Setting ι α} {names : Tag → Parser ι α} {within runs : Parser ι α → Prop}
  {given : Key → Outcome (Symbol α) → Prop} {parser : Parser ι α} {state final : State α}

/-- The control overflows, or the body of a rule does at some position. -/
def Setting.OverflowsFrom (setting : Setting ι α) (names : Tag → Parser ι α)
    (given : Key → Outcome (Symbol α) → Prop) (control : Control ι α) (position : Nat) : Prop :=
  Overflows setting (.named names given) control position ∨
    ∃ key : Key, Overflows setting (.named names given) (.body (names key.tag)) key.position

/-- An overflow on a standard engine is one of the control or one of the body of a rule. -/
theorem Ends.overflows (grammar : setting.Grammar names within runs)
    (derives : setting.Derives names given) {control : Control ι α} {halt : Halt α}
    (ends : Ends setting control state halt final) (overflow : halt = .faulted .overflow)
    (covered : control.Leads within runs) (holding : state.policy.Holding names given) :
    setting.OverflowsFrom names given control state.cursor := by
  induction ends with
  | abort fault state =>
      cases overflow
      exact .inl (.abort _)
  | become _ ih => exact (ih overflow covered holding).imp_left .become
  | body _ ih =>
      refine (ih overflow (grammar.starts covered _) holding).imp_left fun moves => ?_
      exact .body (fun _ _ => grammar.uniform covered rfl) moves
  | @resumed _ pending outcome state _ _ _ called _ _ moveIh =>
      obtain ⟨yields, holdingMid⟩ := called.yields grammar derives covered.1 holding nofun
      have leads := (Pending.resume_over grammar.following covered.2 outcome).leads grammar.wider
      refine (moveIh overflow leads holdingMid).imp_left fun moves => ?_
      obtain ⟨_, same, stops, answers⟩ := Yields.call_iff.mp yields
      cases same
      rw [stops] at moves
      exact .later answers moves
  | lost _ ih =>
      cases overflow
      exact (ih rfl covered.1 holding).imp_left .first
  | @broken parser state _ _ _ _ ih =>
      cases overflow
      rcases ih rfl (grammar.wider covered)
        (holding.enter (callAt setting.input state.cursor parser)) with body | rule
      · cases tagged : parser.tag with
        | none => exact .inl (.executed tagged body)
        | some tag =>
            refine .inr ⟨⟨state.cursor, tag⟩, ?_⟩
            rw [← grammar.named covered tagged]
            exact Overflows.body_core.mpr body
      · exact .inr rule
  | unsealed _ _ sealed _ =>
      cases overflow
      cases fault_of_sealResult sealed
  | _ => cases overflow

/-- A run of a tagged parser on a fresh standard engine overflows in the body of a rule. -/
theorem Setting.Derives.overflows (derives : setting.Derives names given)
    (grammar : setting.Grammar names within runs) (covered : within parser)
    (tagged : parser.tag ≠ none)
    (ends : Ends setting (.call parser) (.initial .standard) (.faulted .overflow) final) :
    ∃ key : Key, Overflows setting (.named names given) (.body (names key.tag)) key.position := by
  rcases ends.overflows grammar derives rfl covered
    ⟨.empty, .empty, ⟨.empty, rfl⟩, Memoizer.holds_empty⟩ with itself | rule
  · exact absurd itself.untagged tagged
  · exact rule

end Runs

end Packrat
