import Packrat.Proofs.History

/-!
# Plain parsers

A plain parser contains no tagged parser and refers to none, neither to an enclosing recursive
parser nor to a handle.  Its probes and finishing steps break no rule, and none of its bodies
sees a difference between two engines.  At every boundary such a parser has an outcome, which is
determined without any policies and without answers of tagged parsers.  So it is the same in
every grammar, on every engine and at every moment.
-/

namespace Packrat

open Readable (IsBoundary)

variable {ι α : Type} [Input ι] [Readable ι]

/-- From every boundary the probe reads up to a boundary, or it finds nothing. -/
def Probe.Sound (probe : Probe ι α) : Prop :=
  ∀ (input : ι) (position : Nat), IsBoundary input position →
    ∃ found, probe input position = .ok found ∧
      ∀ symbol length, found = some (symbol, length) → IsBoundary input (position + length)

theorem Readable.sound {expectation : String} {probe : Probe ι α}
    (terminal : Readable.IsTerminal expectation probe) : Probe.Sound probe :=
  fun _ _ boundary => Readable.reads terminal boundary

namespace Parser

/-- The parser contains no tagged parser, refers to none, and sees and breaks nothing. -/
inductive Plain : Parser ι α → Prop where
  | terminal {expectation : String} {probe : Probe ι α} :
      Probe.Sound probe → Plain (.terminal expectation probe)
  | answer (look : Nat → Result α) : Plain (.answer look)
  | inspect {look : Policy α → Nat → Symbol α} :
      (∀ policy other position, look policy position = look other position) →
      Plain (.inspect look)
  | wrap {kind : Option Kind} {inner : Parser ι α} {finish : Finish α} :
      Plain inner → Finish.Total finish → Plain (.wrap none kind inner finish)
  | both {first second : Parser ι α} (combine : Symbol α → Symbol α → Symbol α) :
      Plain first → Plain second → Plain (.both first second combine)
  | andThen {first : Parser ι α} {next : Symbol α → Parser ι α} :
      Plain first → (∀ symbol, Plain (next symbol)) → Plain (.andThen first next)
  | repetition {item : Parser ι α} (limit : CountLimit) :
      Plain item → Plain (.repetition none item limit)
  | separated {item separator : Parser ι α} :
      Plain item → Plain separator → Plain (.separated none item separator)
  | choice {alternatives : List (Parser ι α)} :
      (∀ parser ∈ alternatives, Plain parser) → Plain (.choice none alternatives)
  | recording {inner : Parser ι α} (events : List Event) :
      Plain inner → Plain (.recording events inner)

namespace Plain

variable {parser first second : Parser ι α}

theorem untagged (plain : parser.Plain) : parser.tag = none := by
  induction plain with
  | recording events _ ih => exact ih
  | _ => rfl

theorem ignoreThen (plain : first.Plain) (plainToo : second.Plain) :
    (first.ignoreThen second).Plain :=
  .both _ plain plainToo

theorem replaceSelf_eq (plain : parser.Plain) (replacement : Parser ι α) (depth : Nat) :
    replaceSelf replacement depth parser = parser := by
  induction plain with
  | wrap _ _ ih => rw [replaceSelf, ih]
  | both _ _ _ firstIh secondIh => rw [replaceSelf, firstIh, secondIh]
  | andThen _ _ firstIh nextIh =>
      rw [replaceSelf, firstIh]
      exact congrArg _ (funext nextIh)
  | repetition _ _ ih => rw [replaceSelf, ih]
  | separated _ _ itemIh separatorIh => rw [replaceSelf, itemIh, separatorIh]
  | choice _ ih =>
      rw [replaceSelf, replaceSelfAll_eq_map, List.map_congr_left ih, List.map_id']
  | recording _ _ ih => rw [replaceSelf, ih]
  | _ => rfl

end Plain

end Parser

/-! ## Calls and bodies that end -/

namespace Setting

variable {setting : Setting ι α} {allowed : Answering ι α}

/-- A call of the parser from any boundary has an outcome that fits there. -/
def Decides (setting : Setting ι α) (allowed : Answering ι α) (parser : Parser ι α) : Prop :=
  ∀ position, IsBoundary setting.input position →
    ∃ outcome, setting.Answers allowed parser position outcome ∧
      outcome.Fits setting.input position

/-- The control replies, and what it reads ends at a boundary, at the place or after it. -/
def Lands (setting : Setting ι α) (allowed : Answering ι α) (place : Nat) (control : Control ι α)
    (position : Nat) : Prop :=
  ∃ result stop, Yields setting allowed control position (.replied result) stop ∧
    ∀ symbol, result = .ok symbol → place ≤ stop ∧ IsBoundary setting.input stop

theorem decides_of_lands {parser : Parser ι α} (untagged : parser.tag = none)
    (lands : ∀ position, IsBoundary setting.input position →
      setting.Lands allowed position (.body parser) position) :
    setting.Decides allowed parser := by
  intro position boundary
  obtain ⟨result, stop, replies, ahead⟩ := lands position boundary
  refine ⟨.ofResult position stop result, (answers_untagged_iff untagged).mpr
    ⟨result, stop, replies, fun symbol same => (ahead symbol same).1, rfl⟩, ?_⟩
  cases result with
  | error mismatch => trivial
  | ok symbol => exact ⟨rfl, ahead symbol rfl⟩

theorem decides_of_unasked {names : Tag → Parser ι α} {parser : Parser ι α} {tag : Tag}
    (tagged : parser.tag = some tag) (named : parser.core = names tag)
    (lands : ∀ position, IsBoundary setting.input position →
      setting.Lands (.named names (unansweredAt ⟨position, tag⟩ (setting.Settles names))) position
        (.body (names tag)) position) :
    setting.Decides (.named names (setting.Settles names)) parser := by
  intro position boundary
  obtain ⟨result, stop, replies, ahead⟩ := lands position boundary
  cases result with
  | error mismatch =>
      have fails : setting.SettlesError names tag position := .of_unasked ⟨mismatch, stop, replies⟩
      obtain ⟨mismatch, settles⟩ := fails
      obtain ⟨mismatch, answers⟩ := Misses.of_given tagged named settles
      exact ⟨_, answers, trivial⟩
  | ok symbol =>
      obtain ⟨forward, reached⟩ := ahead symbol rfl
      have reads : setting.SettlesOk names tag position symbol stop :=
        .of_unasked ⟨replies, forward⟩
      exact ⟨_, (Matches.of_given tagged named reads.1 forward).1, rfl, forward, reached⟩

theorem Decides.ignoreThen {first second : Parser ι α} (one : setting.Decides allowed first)
    (other : setting.Decides allowed second) :
    setting.Decides allowed (first.ignoreThen second) := by
  refine decides_of_lands rfl fun position boundary => ?_
  obtain ⟨outcome, answers, fits⟩ := one position boundary
  cases outcome with
  | error mismatch => exact ⟨_, _, replies_both_first answers, nofun⟩
  | ok matched =>
      obtain ⟨-, forward, reached⟩ := fits
      obtain ⟨outcome, answersToo, fits⟩ := other _ reached
      cases outcome with
      | error mismatch => exact ⟨_, _, replies_both_second answers answersToo, nofun⟩
      | ok matchedToo =>
          refine ⟨_, _, replies_both_ok_iff.mpr ⟨_, _, answers, answersToo, rfl, rfl⟩, ?_⟩
          exact fun _ _ => ⟨forward.trans fits.2.1, fits.2.2⟩

/-- A body that calls a parser ends if all the calls that it may make have outcomes. -/
theorem call_lands {parser : Parser ι α} (decides : setting.Decides allowed parser)
    {pending : Pending ι α} (covered : pending.Over (setting.Decides allowed) Finish.Total)
    {place position : Nat} (boundary : IsBoundary setting.input position)
    (after : place ≤ position) :
    setting.Lands allowed place (.move (.call parser pending)) position := by
  -- First by the input that is left, then by the rank of the waiting body.
  generalize rooms : Input.size setting.input - position = room
  induction room using Nat.strongRecOn generalizing parser pending position with
  | ind room outerIh =>
    generalize ranks : pending.rank = rank
    induction rank using Nat.strongRecOn generalizing parser pending position with
    | ind rank innerIh =>
      obtain ⟨outcome, answers, fits⟩ := decides position boundary
      have reached := fits.boundary boundary
      have onward := after.trans fits.le_landing
      suffices next : setting.Lands allowed place (.move (pending.resume outcome))
          (outcome.landing position) by
        obtain ⟨result, stop, yields, ahead⟩ := next
        exact ⟨result, stop, .resumed answers yields, ahead⟩
      have coveredToo : (pending.resume outcome).Over (setting.Decides allowed) Finish.Total
          fun _ => True := Pending.resume_over Decides.ignoreThen covered outcome
      rcases Pending.resume_cases covered outcome with
        ⟨result, resumes⟩ | ⟨next, last, resumes, less⟩
      · rw [resumes]
        exact ⟨result, _, .reply result, fun _ _ => ⟨onward, reached⟩⟩
      · rw [resumes] at coveredToo ⊢
        have inside := Readable.le_size reached
        rcases Nat.eq_or_lt_of_le fits.le_landing with stayed | moved
        · rcases less with lower | ⟨matched, rfl, progress⟩
          · exact innerIh last.rank (ranks ▸ lower) coveredToo.1 coveredToo.2 reached onward
              (by rw [← stayed, rooms]) rfl
          · exact absurd stayed (Nat.ne_of_lt (fits.lt_landing progress))
        · exact outerIh _ (by omega) coveredToo.1 coveredToo.2 reached onward rfl

theorem Lands.body {parser : Parser ι α} {position : Nat} (move : Move ι α)
    (starts : ∀ policy journal, parser.start setting ⟨position, policy, journal⟩ = move)
    (lands : setting.Lands allowed position (.move move) position) :
    setting.Lands allowed position (.body parser) position := by
  obtain ⟨result, stop, yields, ahead⟩ := lands
  exact ⟨result, stop, .body starts yields, ahead⟩

theorem lands_reply {position : Nat} (boundary : IsBoundary setting.input position)
    (result : Result α) : setting.Lands allowed position (.move (.reply result)) position :=
  ⟨result, position, .reply result, fun _ _ => ⟨Nat.le_refl _, boundary⟩⟩

section Bodies

variable {position : Nat} (boundary : IsBoundary setting.input position)

include boundary

theorem lands_starts {whole inner : Parser ι α} {pending : Pending ι α}
    (starts : ∀ policy journal, whole.start setting ⟨position, policy, journal⟩ =
      .call inner pending)
    (decides : setting.Decides allowed inner)
    (covered : pending.Over (setting.Decides allowed) Finish.Total) :
    setting.Lands allowed position (.body whole) position :=
  .body _ starts (call_lands decides covered boundary (Nat.le_refl position))

theorem lands_terminal {expectation : String} {probe : Probe ι α} (sound : Probe.Sound probe) :
    setting.Lands allowed position (.body (.terminal expectation probe)) position := by
  obtain ⟨found, reads, reaches⟩ := sound _ _ boundary
  cases found with
  | none => exact ⟨_, _, replies_terminal_error reads, nofun⟩
  | some found =>
      have reached := reaches found.1 found.2 rfl
      refine ⟨_, _, replies_terminal_ok_iff.mpr
        ⟨found.2, reads, Readable.le_size reached, rfl⟩, ?_⟩
      exact fun _ _ => ⟨Nat.le_add_right _ _, reached⟩

theorem lands_wrap {tag : Option Tag} {kind : Option Kind} {inner : Parser ι α}
    {finish : Finish α} (decides : setting.Decides allowed inner) (total : finish.Total) :
    setting.Lands allowed position (.body (.wrap tag kind inner finish)) position :=
  lands_starts boundary (fun _ _ => rfl) decides total

theorem lands_both {first second : Parser ι α} {combine : Symbol α → Symbol α → Symbol α}
    (one : setting.Decides allowed first) (other : setting.Decides allowed second) :
    setting.Lands allowed position (.body (.both first second combine)) position :=
  lands_starts boundary (fun _ _ => rfl) one other

theorem lands_repetition {tag : Option Tag} {item : Parser ι α} {limit : CountLimit}
    (decides : setting.Decides allowed item) :
    setting.Lands allowed position (.body (.repetition tag item limit)) position := by
  have covered : Pending.Over (setting.Decides allowed) Finish.Total
      (.iteration tag item limit []) := decides
  refine .body (continueRepetition tag item limit []) (fun _ _ => rfl) ?_
  rw [continueRepetition]
  split
  · exact call_lands decides covered boundary (Nat.le_refl _)
  · exact lands_reply boundary _

theorem lands_choice {tag : Option Tag} {alternatives : List (Parser ι α)}
    (all : ∀ parser ∈ alternatives, setting.Decides allowed parser) :
    setting.Lands allowed position (.body (.choice tag alternatives)) position := by
  cases alternatives with
  | nil => exact .body (.reply _) (fun _ _ => rfl) (lands_reply boundary _)
  | cons parser rest =>
      exact lands_starts boundary (fun _ _ => rfl) (all parser List.mem_cons_self)
        fun other member => all other (List.mem_cons_of_mem parser member)

end Bodies

end Setting

open Setting

/-- The body of a plain parser ends. -/
theorem Parser.Plain.lands (setting : Setting ι α) (allowed : Answering ι α)
    {parser : Parser ι α} (plain : parser.Plain) (position : Nat)
    (boundary : IsBoundary setting.input position) :
    setting.Lands allowed position (.body parser) position := by
  induction plain generalizing position with
  | terminal sound => exact lands_terminal boundary sound
  | answer look => exact .body (.reply (look position)) (fun _ _ => rfl) (lands_reply boundary _)
  | @inspect look same =>
      refine .body (.reply (.ok (look .identity position))) (fun policy _ => ?_)
        (lands_reply boundary _)
      rw [Parser.start, same policy .identity]
  | wrap plain total ih => exact lands_wrap boundary (decides_of_lands plain.untagged ih) total
  | both combine plain plainToo ih ihToo =>
      exact lands_both boundary (decides_of_lands plain.untagged ih)
        (decides_of_lands plainToo.untagged ihToo)
  | andThen plain plains ih nextIh =>
      exact lands_starts boundary (fun _ _ => rfl) (decides_of_lands plain.untagged ih)
        fun symbol => decides_of_lands (plains symbol).untagged (nextIh symbol)
  | repetition limit plain ih =>
      exact lands_repetition boundary (decides_of_lands plain.untagged ih)
  | separated plain plainToo ih ihToo =>
      have decides := decides_of_lands plain.untagged ih
      exact lands_starts boundary (fun _ _ => rfl) decides
        ⟨decides, decides_of_lands plainToo.untagged ihToo⟩
  | choice plains ih =>
      exact lands_choice boundary fun parser member =>
        decides_of_lands (plains parser member).untagged (ih parser member)
  | recording events _ ih =>
      obtain ⟨result, stop, yields, ahead⟩ := ih position boundary
      exact ⟨result, stop, .body (fun _ _ => rfl) (.become yields), ahead⟩

def Answering.nothing : Answering ι α := fun _ _ _ => False

namespace Setting

variable {setting : Setting ι α} {allowed : Answering ι α} {parser : Parser ι α}
  {position stop : Nat} {symbol : Symbol α}

omit [Readable ι] in
theorem Matches.anywhere (one : setting.Matches .nothing parser position symbol stop) :
    setting.Matches allowed parser position symbol stop :=
  ⟨Yields.mono one.1 fun _ _ _ => False.elim, one.2⟩

omit [Readable ι] in
theorem Misses.anywhere (misses : setting.Misses .nothing parser position) :
    setting.Misses allowed parser position := by
  obtain ⟨mismatch, answers⟩ := misses
  exact ⟨mismatch, Yields.mono answers fun _ _ _ => False.elim⟩

end Setting

/-- A plain parser matches up to a boundary, or it misses. -/
theorem Parser.Plain.matches_or_misses {setting : Setting ι α} {parser : Parser ι α}
    (plain : parser.Plain) {position : Nat} (boundary : IsBoundary setting.input position) :
    (∃ symbol stop, setting.Matches .nothing parser position symbol stop ∧
        IsBoundary setting.input stop) ∨
      setting.Misses .nothing parser position := by
  obtain ⟨outcome, answers, fits⟩ :=
    decides_of_lands plain.untagged (plain.lands setting .nothing) position boundary
  cases outcome with
  | error mismatch => exact .inr ⟨mismatch, answers⟩
  | ok matched =>
      obtain ⟨symbol, start, stop⟩ := matched
      obtain ⟨rfl, forward, reached⟩ := fits
      exact .inl ⟨symbol, stop, ⟨answers, forward⟩, reached⟩

omit [Readable ι] in
/-- However many steps a run may take, it has one outcome. -/
theorem Setting.outcome_unique {setting : Setting ι α} {parser : Parser ι α} {state : State α}
    {steps stepsToo : Nat} {one other : Outcome (Symbol α)} {final finalToo : State α}
    (done : setting.runMatch steps parser state = .done one final)
    (doneToo : setting.runMatch stepsToo parser state = .done other finalToo) : one = other := by
  have ends := Setting.runMatch_eq_done_iff.mp ⟨steps, done⟩
  have endsToo := Setting.runMatch_eq_done_iff.mp ⟨stepsToo, doneToo⟩
  cases (ends.unique endsToo).1
  rfl

omit [Readable ι] in
/-- Runs of a call that settles have no other outcome. -/
theorem Setting.SettlesOn.eq_of_run {setting : Setting ι α} {names : Tag → Parser ι α}
    {parser : Parser ι α} {position : Nat} {outcome made : Outcome (Symbol α)}
    {policy : Policy α} (settles : setting.SettlesOn names parser position made)
    (serving : policy.Serving setting names) {steps : Nat} {journal : List Event}
    {final : State α}
    (done : setting.runMatch steps parser ⟨position, policy, journal⟩ = .done outcome final) :
    outcome = made := by
  obtain ⟨stepsToo, finalToo, doneToo, -⟩ := settles.runs serving journal
  exact Setting.outcome_unique done doneToo

theorem Parser.Plain.answers_of_run {setting : Setting ι α} {parser : Parser ι α}
    (plain : parser.Plain) {position : Nat} (boundary : IsBoundary setting.input position)
    {steps : Nat} {journal : List Event} {outcome : Outcome (Symbol α)} {final : State α}
    (done : setting.runMatch steps parser ⟨position, .standard, journal⟩ = .done outcome final) :
    setting.Answers .nothing parser position outcome := by
  obtain ⟨made, answers, -⟩ :=
    decides_of_lands plain.untagged (plain.lands setting .nothing) position boundary
  have settles : setting.SettlesOn (fun _ => parser) parser position made :=
    Yields.mono answers fun _ _ _ => False.elim
  rwa [settles.eq_of_run Policy.standard_serving done]

end Packrat
