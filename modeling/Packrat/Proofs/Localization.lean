import Packrat.Proofs.FarthestFailures
import Packrat.Proofs.WholeInput

/-!
# Where a rejected input is blamed

A rejected input is blamed on the farthest position where a call has failed.  The tracer of a
standard engine sees a call fail if the policies return a mismatch for it.  A call also fails,
unseen by any policy, if they return a symbol of another kind than its parser promises; such a
failure is put on record as a shared tag.  If the record has none, the error tells the farthest
failure, inside the input and not before the start of any call that has failed.
-/

namespace Packrat

variable {ι α : Type}

/-- The caller of a parser that promises symbols of a kind gets a mismatch. -/
def Outcome.FailsAs (kind : Kind) : Outcome (Sealed α) → Prop
  | .error _ => True
  | .ok matched => matched.symbol.kind ≠ kind

/-- The call ends, and its caller gets a mismatch. -/
def Deed.Fails : Deed α → Prop
  | .answered _ kind outcome => outcome.FailsAs kind
  | .started _ => False
  | .ended _ kind _ outcome => outcome.FailsAs kind

/-- A tag that parsers of different kinds share was put on record. -/
def State.Shared (state : State α) : Prop :=
  ∃ tag position, Event.sharedTag tag position ∈ state.journal

theorem State.Shared.mono {state later : State α} (shared : state.Shared)
    (grown : state.journal <:+ later.journal) : later.Shared := by
  obtain ⟨tag, position, member⟩ := shared
  exact ⟨tag, position, grown.subset member⟩

theorem State.journal_suffix_record (state : State α) (events : List Event) :
    state.journal <:+ (state.record events).journal := by
  unfold State.record
  generalize state.journal = journal
  induction events generalizing journal with
  | nil => exact List.suffix_rfl
  | cons event events ih => exact (List.suffix_cons event journal).trans (ih (event :: journal))

section Settling

variable {call : Call} {kind : Kind} {outcome : Outcome (Sealed α)} {state : State α}

theorem settle_eq_error_iff :
    (∃ mismatch, (settle call kind outcome state).1 = .error mismatch) ↔ outcome.FailsAs kind := by
  cases outcome with
  | error mismatch => exact ⟨fun _ => trivial, fun _ => ⟨mismatch, rfl⟩⟩
  | ok matched =>
      by_cases promised : matched.symbol.kind = kind
      · simp [settle, promised, Outcome.FailsAs]
      · simp [settle, promised, Outcome.FailsAs]

theorem journal_suffix_settle : state.journal <:+ (settle call kind outcome state).2.journal := by
  cases outcome with
  | error mismatch => exact List.suffix_rfl
  | ok matched =>
      simp only [settle]
      split
      · exact List.suffix_rfl
      · exact state.journal_suffix_record _

theorem mismatch_or_shared (fails : outcome.FailsAs kind) :
    (∃ mismatch, outcome = .error mismatch) ∨ (settle call kind outcome state).2.Shared := by
  cases outcome with
  | error mismatch => exact .inl ⟨mismatch, rfl⟩
  | ok matched =>
      simp only [settle, if_neg (show ¬ matched.symbol.kind = kind from fails)]
      exact .inr ⟨call.tag, matched.span.start, List.mem_cons_self⟩

end Settling

/-! ## What a step tells of a call -/

section Steps

variable [Input ι] {setting : Setting ι α}

/--
Events stay on record.  A step that answers with a mismatch is the failure of a call and the
other way round, and the mismatch came from the policies or a shared tag is on record.
-/
structure Config.Tells (setting : Setting ι α) (config next : Config ι α) : Prop where
  journal : config.state.journal <:+ next.state.journal
  failed : (∃ mismatch, next.control = .answer (.error mismatch)) ↔
    ∃ deed, config.deed? setting = some deed ∧ deed.Fails
  seen : ∀ deed, config.deed? setting = some deed → deed.Fails →
    (∃ mismatch, deed.outcome? = some (.error mismatch)) ∨ next.state.Shared

namespace Config.Tells

variable {config next : Config ι α}

theorem working (journal : config.state.journal <:+ next.state.journal)
    (unanswered : ∀ outcome, next.control ≠ .answer outcome)
    (silent : ∀ deed, config.deed? setting = some deed → ¬ deed.Fails) :
    config.Tells setting next where
  journal := journal
  failed := by
    constructor
    · rintro ⟨mismatch, answer⟩
      exact (unanswered _ answer).elim
    · rintro ⟨deed, happens, fails⟩
      exact (silent deed happens fails).elim
  seen deed happens fails := (silent deed happens fails).elim

theorem settled {call : Call} {kind : Kind} {outcome : Outcome (Sealed α)} {state : State α}
    {stack : List (Frame ι α)} {deed : Deed α}
    (journal : config.state.journal <:+ state.journal)
    (happens : config.deed? setting = some deed) (returns : deed.outcome? = some outcome)
    (fails : deed.Fails ↔ outcome.FailsAs kind) :
    config.Tells setting ⟨.answer (settle call kind outcome state).1, stack,
      (settle call kind outcome state).2⟩ where
  journal := journal.trans journal_suffix_settle
  failed := by
    simp only [Control.answer.injEq, happens, Option.some.injEq, exists_eq_left', fails]
    exact settle_eq_error_iff
  seen other happensToo failsToo := by
    cases happens.symm.trans happensToo
    rcases mismatch_or_shared (fails.mp failsToo) with ⟨mismatch, rfl⟩ | shared
    · exact .inl ⟨mismatch, returns⟩
    · exact .inr shared

end Config.Tells

/-- Every step tells of a call what happens to it. -/
theorem Config.step_tells {config next : Config ι α} (edge : config.step setting = .next next) :
    config.Tells setting next := by
  cases edge_of_step edge with
  | answered answer =>
      exact .settled (State.journal_suffix_record ⟨_, _, _⟩ _) (deed?_of_answer answer) rfl Iff.rfl
  | started missing =>
      refine .working (State.journal_suffix_record ⟨_, _, _⟩ _) (fun _ => nofun) ?_
      intro deed happens
      cases (deed?_of_no_answer missing).symm.trans happens
      exact id
  | ended finishes sealed =>
      refine .settled ?_ (deed?_of_finishes finishes sealed) rfl Iff.rfl
      rw [← finishes.keeps.2]
      exact State.journal_suffix_record ⟨_, _, _⟩ _
  | begun => exact .working List.suffix_rfl (fun _ => nofun) (fun _ => nofun)
  | called => exact .working List.suffix_rfl (fun _ => nofun) (fun _ => nofun)
  | replaced => exact .working (State.journal_suffix_record _ _) (fun _ => nofun) (fun _ => nofun)
  | resumed => exact .working List.suffix_rfl (fun _ => nofun) (fun _ => nofun)

/-- How the failures of a life were seen, and that a mismatch is the answer of a failed call. -/
theorem Lives.tells {input : ι} {policy : Policy α} {arena : Arena ι α} {parser : Parser ι α}
    {history : List (Deed α)} {moment : Moment ι α}
    (lives : Lives input (.birth policy arena parser) history moment) :
    (∀ deed ∈ history, deed.Fails →
      (∃ mismatch, deed.outcome? = some (.error mismatch)) ∨ moment.config.state.Shared) ∧
    ∀ mismatch, moment.config.control = .answer (.error mismatch) →
      ∃ deed ∈ history, deed.Fails := by
  induction lives with
  | here => exact ⟨nofun, nofun⟩
  | @step history moment next _ edge ih =>
      have tells := Config.step_tells edge
      constructor
      · intro deed member fails
        rcases List.mem_append.mp member with now | before
        · exact tells.seen deed (Option.mem_toList.mp now) fails
        · exact (ih.1 deed before fails).imp_right fun shared => shared.mono tells.journal
      · intro mismatch answer
        obtain ⟨deed, happens, fails⟩ := tells.failed.mp ⟨mismatch, answer⟩
        exact ⟨deed, List.mem_append_left _ (Option.mem_toList.mpr happens), fails⟩
  | again arena parser position _ ih => exact ⟨ih.1, nofun⟩

end Steps

def Outcome.EndsBy {σ : Type} (size : Nat) (outcome : Outcome σ) : Prop :=
  ∀ matched, outcome = .ok matched → matched.span.stop ≤ size

def Memoizer.EndsBy (size : Nat) (memo : Memoizer α) : Prop :=
  ∀ key outcome, memo.find? key = some outcome → outcome.EndsBy size

/-- The cursor and all that the policies remember are inside an input of the size. -/
structure State.Inside (size : Nat) (state : State α) : Prop where
  cursor : state.cursor ≤ size
  remembers : state.policy.Remembers (Memoizer.EndsBy size)

namespace State.Inside

theorem fresh {policy : Policy α} (fresh : policy.Fresh) (size : Nat) :
    (State.initial policy).Inside size where
  cursor := Nat.zero_le size
  remembers := Policy.remembers_of_fresh (fun key outcome found => by
    rw [Memoizer.find?_empty] at found
    cases found) fresh

theorem settle {size : Nat} {call : Call} {kind : Kind} {outcome : Outcome (Sealed α)}
    {state : State α} (start : call.position ≤ size) (stop : outcome.EndsBy size)
    (remembers : state.policy.Remembers (Memoizer.EndsBy size)) :
    (settle call kind outcome state).2.Inside size := by
  constructor
  · cases outcome with
    | error mismatch => exact start
    | ok matched =>
        simp only [Packrat.settle]
        split
        · exact stop matched rfl
        · exact start
  · rw [settle_policy]
    exact remembers

end State.Inside

section Calls

variable {size : Nat} {call : Call} {policy : Policy α}

theorem Memoizer.EndsBy.insert {memo : Memoizer α} (inside : memo.EndsBy size) {key : Key}
    {outcome : Outcome (Sealed α)} (stop : outcome.EndsBy size) :
    (memo.insert key outcome).EndsBy size := by
  intro other remembered found
  rw [Memoizer.find?_insert] at found
  split at found
  · cases found
    exact stop
  · exact inside other remembered found

theorem enter_inside (remembers : policy.Remembers (Memoizer.EndsBy size)) :
    (policy.enter call).policy.Remembers (Memoizer.EndsBy size) ∧
      ∀ outcome, (policy.enter call).answer = some outcome → outcome.EndsBy size :=
  Policy.enter_remembers (Outcome.EndsBy size) (fun inside _ found => inside _ _ found)
    (fun inside _ stop => inside.insert stop) remembers
    (Policy.limits_of_all (fun _ _ _ _ => nofun) policy)

theorem leave_inside (remembers : policy.Remembers (Memoizer.EndsBy size))
    {made : Outcome (Sealed α)} (stop : made.EndsBy size) :
    (policy.leave call made).policy.Remembers (Memoizer.EndsBy size) ∧
      (policy.leave call made).outcome.EndsBy size :=
  Policy.leave_remembers (Outcome.EndsBy size) (fun inside _ found => inside _ _ found)
    (fun inside _ stop => inside.insert stop) remembers stop

theorem sealResult_endsBy {kind : Kind} {cursor : Nat} {result : Result α}
    {made : Outcome (Sealed α)} (sealed : sealResult call kind cursor result = .ok made)
    (inside : cursor ≤ size) : made.EndsBy size := by
  rintro matched rfl
  rw [span_of_sealResult sealed]
  exact inside

end Calls

section Steps

variable [Input ι] {setting : Setting ι α} {size : Nat}

structure Config.Inside (size : Nat) (config : Config ι α) : Prop where
  state : config.state.Inside size
  calls : ∀ call ∈ config.calls, call.position ≤ size
  reads : ∀ symbol stop, config.control = .move (.read symbol stop) → stop ≤ size

omit [Input ι] in
theorem Finishes.cursor_le {state after : State α} {move : Move ι α} {result : Result α}
    (finishes : Finishes state move result after) (cursor : state.cursor ≤ size)
    (reads : ∀ symbol stop, (Control.move move : Control ι α) = .move (.read symbol stop) →
      stop ≤ size) : after.cursor ≤ size := by
  cases finishes with
  | reply result => exact cursor
  | read symbol stop => exact reads symbol stop rfl

theorem Parser.start_read {parser : Parser ι α} {state : State α} {symbol : Symbol α} {stop : Nat}
    (reads : parser.start setting state = .read symbol stop) :
    stop ≤ Input.size setting.input := by
  cases parser with
  | terminal expectation probe =>
      simp only [start] at reads
      split at reads
      · cases reads
      · cases reads
      · split at reads
        · next fits =>
            cases reads
            exact fits
        · cases reads
  | repetition tag item limit =>
      simp only [start, continueRepetition] at reads
      split at reads <;> cases reads
  | choice tag alternatives => cases alternatives <;> cases reads
  | handle tag slot =>
      simp only [start] at reads
      split at reads <;> cases reads
  | _ => cases reads

omit [Input ι] in
theorem Pending.resume_ne_read (pending : Pending ι α) (outcome : Outcome (Symbol α))
    (symbol : Symbol α) (stop : Nat) : pending.resume outcome ≠ .read symbol stop := by
  intro reads
  cases pending with
  | finish complete =>
      simp only [resume] at reads
      cases finished : complete (outcome.map Match.symbol) <;>
        · rw [finished] at reads
          cases reads
  | alternative tag alternatives rest =>
      cases outcome with
      | ok matched => cases reads
      | error mismatch => cases rest <;> cases reads
  | iteration tag item limit taken =>
      cases outcome with
      | ok matched =>
          simp only [resume, continueRepetition] at reads
          split at reads
          · cases reads
          · split at reads <;> cases reads
      | error mismatch => cases reads
  | nextItem item separator taken =>
      cases outcome with
      | ok matched =>
          simp only [resume] at reads
          split at reads <;> cases reads
      | error mismatch => cases reads
  | _ => cases outcome <;> cases reads

/-- Every step stays inside the input. -/
theorem Config.Inside.step {config next : Config ι α}
    (inside : config.Inside (Input.size setting.input))
    (edge : config.step setting = .next next) : next.Inside (Input.size setting.input) := by
  obtain ⟨⟨cursor, remembers⟩, calls, reads⟩ := inside
  cases edge_of_step edge with
  | answered answer =>
      obtain ⟨remembers, stops⟩ := enter_inside remembers
      exact ⟨.settle cursor (stops _ answer) remembers, calls, nofun⟩
  | started missing =>
      refine ⟨⟨cursor, (enter_inside remembers).1⟩, ?_, nofun⟩
      exact List.forall_mem_cons.mpr ⟨cursor, calls⟩
  | ended finishes sealed =>
      obtain ⟨start, others⟩ := List.forall_mem_cons.mp calls
      rw [← finishes.keeps.1] at remembers
      have stop := sealResult_endsBy sealed (finishes.cursor_le cursor reads)
      obtain ⟨remembers, stop⟩ := leave_inside remembers stop
      exact ⟨.settle start stop remembers, others, nofun⟩
  | begun =>
      refine ⟨⟨cursor, remembers⟩, calls, fun symbol stop same => ?_⟩
      exact Parser.start_read (Control.move.inj same)
  | called => exact ⟨⟨cursor, remembers⟩, calls, nofun⟩
  | replaced => exact ⟨⟨cursor, remembers⟩, calls, nofun⟩
  | resumed =>
      refine ⟨⟨cursor, remembers⟩, calls, fun symbol stop same => ?_⟩
      exact (Pending.resume_ne_read _ _ symbol stop (Control.move.inj same)).elim

/-- What happens in a step happens to a call that starts inside the input. -/
theorem Config.Inside.deed {config next : Config ι α} (inside : config.Inside size)
    (edge : config.step setting = .next next) {deed : Deed α}
    (happens : config.deed? setting = some deed) : deed.call.position ≤ size := by
  cases edge_of_step edge with
  | answered answer =>
      cases (deed?_of_answer answer).symm.trans happens
      exact inside.state.cursor
  | started missing =>
      cases (deed?_of_no_answer missing).symm.trans happens
      exact inside.state.cursor
  | ended finishes sealed =>
      cases (deed?_of_finishes finishes sealed).symm.trans happens
      exact inside.calls _ List.mem_cons_self
  | begun => cases happens
  | called => cases happens
  | replaced => cases happens
  | resumed => cases happens

theorem Config.Inside.run {steps : Nat} {config : Config ι α}
    (inside : config.Inside (Input.size setting.input)) (stands : config.Stands)
    {outcome : Outcome (Symbol α)} {final : State α}
    (ended : Config.run setting steps config = some (.answered outcome, final)) :
    final.Inside (Input.size setting.input) ∧
      ∀ deed ∈ Config.history setting steps config,
        deed.call.position ≤ Input.size setting.input := by
  induction steps generalizing config with
  | zero => cases ended
  | succ steps ih =>
      rw [run_succ] at ended
      cases progress : config.step setting with
      | next next =>
          rw [progress] at ended
          obtain ⟨finalInside, starts⟩ := ih (inside.step progress) (stands.step progress) ended
          refine ⟨finalInside, fun deed member => ?_⟩
          rw [history, progress] at member
          rcases List.mem_append.mp member with later | now
          · exact starts deed later
          · exact inside.deed progress (Option.mem_toList.mp now)
      | halt other state =>
          rw [progress] at ended
          cases ended
          obtain rfl := stands.answered progress
          refine ⟨inside.state, fun deed member => ?_⟩
          rw [history, progress] at member
          cases member

end Steps

/-! ## Parsing -/

section Parsing

variable [Input ι]

/-- The history of a parse, the requirement of the end of the input included. -/
def Setting.parseHistory (setting : Setting ι α) (steps : Nat) (parser : Parser ι α) :
    List (Deed α) :=
  let first := Config.history setting steps ⟨.call parser, [], .initial .standard⟩
  match setting.runMatch steps parser (.initial .standard) with
  | .done (.ok _) middle =>
      Config.history setting steps ⟨.call .endOfInput, [], middle⟩ ++ first
  | _ => first

variable {setting : Setting ι α} {parser : Parser ι α} {steps : Nat} {error : ParseError}
  {final : State α}

theorem Setting.runMatch_inside {state : State α} {outcome : Outcome (Symbol α)}
    (inside : state.Inside (Input.size setting.input))
    (done : setting.runMatch steps parser state = .done outcome final) :
    final.Inside (Input.size setting.input) ∧
      ∀ deed ∈ Config.history setting steps ⟨.call parser, [], state⟩,
        deed.call.position ≤ Input.size setting.input := by
  have start : Config.Inside (Input.size setting.input) ⟨.call parser, [], state⟩ :=
    ⟨inside, nofun, nofun⟩
  have ended : Config.run setting steps ⟨.call parser, [], state⟩ =
      some (.answered outcome, final) := by
    rw [runMatch] at done
    split at done <;> cases done
    assumption
  exact start.run trivial ended

/-- A rejecting parse is a life that comes to a mismatch, with all its calls inside the input. -/
theorem Setting.parse_lives (rejected : setting.parse steps parser = .done (.error error) final) :
    error.farthest = final.policy.farthestFailure ∧
      Lives setting.input (.birth .standard setting.arena parser)
        (setting.parseHistory steps parser)
        ⟨setting.arena, ⟨.answer (.error error.mismatch), [], final⟩⟩ ∧
      ∀ deed ∈ setting.parseHistory steps parser,
        deed.call.position ≤ Input.size setting.input := by
  have born := @State.Inside.fresh α _ Policy.standard_fresh (Input.size setting.input)
  obtain ⟨result, middle, first, rest⟩ := Run.andThen_eq_done_iff.mp rejected
  obtain ⟨outcome, _, first, same⟩ := Run.andThen_eq_done_iff.mp first
  cases same
  have lives := Lives.here.run_done first
  rw [List.append_nil] at lives
  obtain ⟨middleInside, starts⟩ := runMatch_inside born first
  cases outcome with
  | error mismatch =>
      cases rest
      refine ⟨rfl, ?_⟩
      simp only [parseHistory, first]
      exact ⟨lives, starts⟩
  | ok matched =>
      obtain ⟨atEnd, last, second, rest⟩ := Run.andThen_eq_done_iff.mp rest
      obtain ⟨outcome, _, second, same⟩ := Run.andThen_eq_done_iff.mp second
      cases same
      cases outcome with
      | ok matched => cases rest
      | error mismatch =>
          cases rest
          refine ⟨rfl, ?_⟩
          simp only [parseHistory, first]
          refine ⟨(lives.again setting.arena .endOfInput middle.cursor).run_done second, ?_⟩
          exact List.forall_mem_append.mpr ⟨(runMatch_inside middleInside second).2, starts⟩

theorem Deed.fails_of_mismatch {deed : Deed α} {mismatch : Mismatch}
    (same : deed.outcome? = some (.error mismatch)) : deed.Fails := by
  cases deed with
  | answered call kind outcome =>
      cases same
      trivial
  | started call => cases same
  | ended call kind made outcome =>
      cases same
      trivial

/-- A standard chain stays one. -/
theorem Lives.standard {input : ι} {arena : Arena ι α} {history : List (Deed α)}
    {moment : Moment ι α} (lives : Lives input (.birth .standard arena parser) history moment) :
    ∃ limiter memo, moment.policy.IsStandard limiter memo := by
  apply lives.keeps (fun _ policy _ => ∃ limiter memo, policy.IsStandard limiter memo)
    ⟨.empty, .empty, .empty, rfl⟩
  rintro history policy policyToo calls callsToo deed? ⟨limiter, memo, standard⟩ turn
  cases turn with
  | quiet => exact ⟨limiter, memo, standard⟩
  | @answered _ call =>
      obtain ⟨further, entered⟩ := standard.enter call
      exact ⟨further, memo, entered⟩
  | @started _ call =>
      obtain ⟨further, entered⟩ := standard.enter call
      exact ⟨further, memo, entered⟩
  | @ended _ call _ made => exact standard.leave call made

/-- The error of a rejecting parse tells what its history tells. -/
theorem Setting.parse_reports (rejected : setting.parse steps parser = .done (.error error) final) :
    error.farthest =
      FarthestFailure.ofRejections (rejections (setting.parseHistory steps parser)) := by
  obtain ⟨told, lives, -⟩ := Setting.parse_lives rejected
  obtain ⟨-, tracer, first, reports⟩ := lives.traced rfl
  obtain ⟨limiter, memo, other, standard⟩ := lives.standard
  change final.policy = _ at standard
  change final.policy.outermost = _ at first
  rw [standard] at first told
  cases first
  rw [told, ← reports.farthest]
  exact Option.or_none

/-- The position to blame is inside the input. -/
theorem Setting.parse_position_le {farthest : FarthestFailure}
    (rejected : setting.parse steps parser = .done (.error error) final)
    (told : error.farthest = some farthest) : farthest.position ≤ Input.size setting.input := by
  obtain ⟨-, -, inside⟩ := Setting.parse_lives rejected
  rw [Setting.parse_reports rejected] at told
  obtain ⟨-, attained, -⟩ := FarthestFailure.of_ofRejections told
  obtain ⟨deed, member, same, -⟩ := mem_positions_rejections.mp attained
  exact same ▸ inside deed member

/-- If every failure of a rejecting parse was seen, the error tells the farthest one. -/
theorem Setting.parse_farthest (rejected : setting.parse steps parser = .done (.error error) final)
    (seen : ∀ deed ∈ setting.parseHistory steps parser, deed.Fails →
      ∃ mismatch, deed.outcome? = some (.error mismatch)) :
    ∃ farthest, error.farthest = some farthest ∧ farthest.failures ≠ [] ∧
      farthest.position ≤ Input.size setting.input ∧
      (∃ deed ∈ setting.parseHistory steps parser, deed.Fails ∧
        deed.call.position = farthest.position) ∧
      ∀ deed ∈ setting.parseHistory steps parser, deed.Fails →
        deed.call.position ≤ farthest.position := by
  obtain ⟨-, lives, -⟩ := Setting.parse_lives rejected
  have blamed (deed : Deed α) (member : deed ∈ setting.parseHistory steps parser)
      (failed : deed.Fails) : deed.call.position ∈
        (rejections (setting.parseHistory steps parser)).map Rejection.position :=
    mem_positions_rejections.mpr ⟨deed, member, rfl, seen deed member failed⟩
  have told := Setting.parse_reports rejected
  cases report : FarthestFailure.ofRejections (rejections (setting.parseHistory steps parser)) with
  | none =>
      -- The parse ends with the failure of a call, which the tracer has seen.
      obtain ⟨last, member, failed⟩ := lives.tells.2 _ rfl
      have among := blamed last member failed
      rw [FarthestFailure.ofRejections_eq_none_iff.mp report] at among
      cases among
  | some farthest =>
      obtain ⟨inhabited, attained, bound⟩ := FarthestFailure.of_ofRejections report
      obtain ⟨deed, member, same, mismatch, returned⟩ := mem_positions_rejections.mp attained
      refine ⟨farthest, told.trans report, inhabited,
        Setting.parse_position_le rejected (told.trans report),
        ⟨deed, member, Deed.fails_of_mismatch returned, same⟩, ?_⟩
      intro deed member failed
      exact bound _ (blamed deed member failed)

/--
If a parse rejects its input and no shared tag is on record, then the error tells the farthest
failure: it is inside the input, and no call that has failed starts after it, the requirement of
the end of the input included.
-/
theorem rejection_is_localized (setting : Setting ι α) (parser : Parser ι α) (steps : Nat)
    (error : ParseError) (final : State α)
    (rejected : setting.parse steps parser = .done (.error error) final)
    (unshared : ∀ tag position, Event.sharedTag tag position ∉ final.journal) :
    ∃ farthest, error.farthest = some farthest ∧ farthest.failures ≠ [] ∧
      farthest.position ≤ Input.size setting.input ∧
      ∀ deed ∈ setting.parseHistory steps parser, deed.Fails →
        deed.call.position ≤ farthest.position := by
  obtain ⟨-, lives, -⟩ := Setting.parse_lives rejected
  have seen : ∀ deed ∈ setting.parseHistory steps parser, deed.Fails →
      ∃ mismatch, deed.outcome? = some (.error mismatch) := by
    intro deed member failed
    refine (lives.tells.1 deed member failed).resolve_right ?_
    rintro ⟨tag, position, among⟩
    exact unshared tag position among
  obtain ⟨farthest, told, inhabited, inside, -, bound⟩ := Setting.parse_farthest rejected seen
  exact ⟨farthest, told, inhabited, inside, bound⟩

end Parsing

def letterPair : Parser (Array Char) Unit := (letter 'a').followedBy (letter 'b')

theorem rejection_is_localized_letters : ∃ error final,
    (Setting.mk #['a', 'c'] .empty).parse 20 letterPair = .done (.error error) final ∧
    ∃ farthest, error.farthest = some farthest ∧ farthest.failures ≠ [] ∧
      farthest.position = 1 ∧
      ∀ deed ∈ (Setting.mk #['a', 'c'] .empty).parseHistory 20 letterPair, deed.Fails →
        deed.call.position ≤ farthest.position := by
  obtain ⟨error, final, done, told, place⟩ : ∃ error final,
      (Setting.mk #['a', 'c'] .empty).parse 20 letterPair = .done (.error error) final ∧
      final.journal = [.newFarthest 1 (.expected none (Char.toString 'b'))] ∧
      error.position = some 1 :=
    ⟨_, _, rfl, rfl, rfl⟩
  have unshared (tag : Option Tag) (position : Nat) :
      Event.sharedTag tag position ∉ final.journal := by
    rw [told, List.mem_singleton]
    exact nofun
  obtain ⟨farthest, report, inhabited, -, bound⟩ :=
    rejection_is_localized _ _ _ _ _ done unshared
  rw [ParseError.position, report] at place
  exact ⟨error, final, done, farthest, report, inhabited, Option.some.inj place, bound⟩

theorem Policy.enter_farthestFailure {policy : Policy α} {call : Call}
    (missing : (policy.enter call).answer = none) :
    (policy.enter call).policy.farthestFailure = policy.farthestFailure := by
  induction policy with
  | identity => rfl
  | recorder name => rfl
  | tracer state => rfl
  | depthLimiter state =>
      rw [enter]
      split
      · rfl
      · split <;> rfl
  | memoizer state =>
      rw [enter]
      split
      · rfl
      · split <;> rfl
  | chain outer inner outerIh innerIh =>
      simp only [enter] at missing ⊢
      split at missing
      · cases missing
      · next first =>
          split at missing
          · next second =>
              simp only [farthestFailure, outerIh first, innerIh second]
          · cases missing

theorem Policy.leave_farthestFailure (policy : Policy α) (call : Call)
    (matched : Match (Sealed α)) :
    (policy.leave call (.ok matched)).policy.farthestFailure = policy.farthestFailure ∧
      ∃ returned, (policy.leave call (.ok matched)).outcome = .ok returned := by
  induction policy generalizing matched with
  | identity => exact ⟨rfl, matched, rfl⟩
  | recorder name => exact ⟨rfl, matched, rfl⟩
  | tracer state => exact ⟨rfl, matched, rfl⟩
  | depthLimiter state =>
      rw [leave]
      split <;> exact ⟨rfl, matched, rfl⟩
  | memoizer state =>
      rw [leave]
      split
      · exact ⟨rfl, matched, rfl⟩
      · next key tagged =>
          cases found : state.find? key with
          | none => exact ⟨rfl, matched, rfl⟩
          | some stored =>
              cases stored with
              | error mismatch => exact ⟨rfl, matched, rfl⟩
              | ok old =>
                  simp only [Memoizer.stores, Memoizer.better, Option.all_some]
                  split
                  · exact ⟨rfl, matched, rfl⟩
                  · exact ⟨rfl, old, rfl⟩
  | chain outer inner outerIh innerIh =>
      obtain ⟨sameInner, returned, within⟩ := innerIh matched
      obtain ⟨sameOuter, last, returns⟩ := outerIh returned
      simp only [leave, within, farthestFailure, sameInner, sameOuter, returns]
      exact ⟨trivial, last, rfl⟩

theorem conclude_of_leave {call : Call} {made outcome : Outcome (Sealed α)} {policy : Policy α}
    (returns : (policy.leave call made).outcome = outcome) (kind : Kind) (cursor : Nat)
    (journal : List Event) :
    ∃ journalToo, conclude call kind made ⟨cursor, policy, journal⟩ =
      settle call kind outcome ⟨cursor, (policy.leave call made).policy, journalToo⟩ := by
  subst returns
  exact ⟨_, rfl⟩

theorem Setting.parse_of_mismatch [Input ι] {setting : Setting ι α} {steps : Nat}
    {parser : Parser ι α} {mismatch : Mismatch} {final : State α}
    (first : setting.runMatch steps parser (.initial .standard) = .done (.error mismatch) final) :
    setting.parse steps parser =
      .done (.error ⟨mismatch, final.policy.farthestFailure⟩) final := by
  simp only [Setting.parse, Setting.runToEnd, Setting.run, first, Run.map, Run.andThen, Except.map]

section Sharing

def sharedRule : Parser Text Unit := .retag ⟨"x"⟩ .empty

/-- A rule of the same tag that makes one of another kind of its symbol. -/
def sharingRule : Parser Text Unit := .retag ⟨"x"⟩ (.mapTo .count sharedRule id)

def sharingSetting : Setting Text Unit := ⟨.ofString "a", .empty⟩

def sharedCall : Call := ⟨0, some ⟨"x"⟩, 1⟩

def nothingRead (kind : Kind) : Outcome (Sealed Unit) := .ok ⟨⟨kind, .unit⟩, ⟨0, 0⟩⟩

variable {policy : Policy Unit} {limiter : DepthLimiter} {memo : Memoizer Unit}

theorem sharedRule_ends (standard : policy.IsStandard limiter memo)
    (granted : limiter.refuses ⟨0, ⟨"x"⟩⟩ 1 = false) (missing : memo.find? ⟨0, ⟨"x"⟩⟩ = none)
    (journal : List Event) :
    ∃ policyToo journalToo limiterToo, Ends sharingSetting (.call sharedRule) ⟨0, policy, journal⟩
        (.answered (.ok ⟨.unit, ⟨0, 0⟩⟩)) ⟨0, policyToo, journalToo⟩ ∧
      policyToo.farthestFailure = policy.farthestFailure ∧
      policyToo.IsStandard limiterToo (memo.insert ⟨0, ⟨"x"⟩⟩ (nothingRead .general)) := by
  have tagged : sharedCall.key? = some ⟨0, ⟨"x"⟩⟩ := rfl
  obtain ⟨unanswered, entered⟩ := standard.enter_open tagged granted missing
  have stores : Memoizer.stores (memo.find? ⟨0, ⟨"x"⟩⟩) (nothingRead .general) = true := by
    rw [missing]
    rfl
  obtain ⟨returns, limiterToo, left⟩ := entered.leave_stored tagged stores
  obtain ⟨journalToo, concluded⟩ := conclude_of_leave returns .general 0
    (sharingSetting.entered sharedRule ⟨0, policy, journal⟩).journal
  have ran : Ends sharingSetting (.body sharedRule)
      (sharingSetting.entered sharedRule ⟨0, policy, journal⟩) (.replied (.ok .unit))
      ⟨0, (policy.enter sharedCall).policy,
        (sharingSetting.entered sharedRule ⟨0, policy, journal⟩).journal⟩ :=
    .body (.become (.body (.reply _ _)))
  have ends : Ends sharingSetting (.call sharedRule) ⟨0, policy, journal⟩
      (.answered (conclude sharedCall .general (nothingRead .general) _).1)
      (conclude sharedCall .general (nothingRead .general) _).2 := .executed unanswered ran rfl
  rw [concluded] at ends
  refine ⟨_, journalToo, limiterToo, ends, ?_, left⟩
  exact (Policy.leave_farthestFailure _ _ _).1.trans (Policy.enter_farthestFailure unanswered)

/-- The rules share a tag, and the error that rejects the input tells no failure at all. -/
theorem parse_blames_nothing : ∃ steps error final,
    sharingSetting.parse steps sharingRule = .done (.error error) final ∧
      error.mismatch = .expected (some ⟨"x"⟩) "a single symbol type per tag" ∧
      error.farthest = none := by
  let key : Key := ⟨0, ⟨"x"⟩⟩
  have tagged : sharedCall.key? = some key := rfl
  have fresh : (Policy.standard : Policy Unit).IsStandard .empty .empty := ⟨.empty, rfl⟩
  have granted : DepthLimiter.empty.refuses key 1 = false := by
    rw [DepthLimiter.refuses, DepthLimiter.depth_empty]
    rfl
  have grantedToo : (DepthLimiter.empty.opened key).refuses key 1 = false := by
    rw [DepthLimiter.refuses, DepthLimiter.depth_opened, DepthLimiter.depth_empty]
    rfl
  obtain ⟨unanswered, entered⟩ := fresh.enter_open tagged granted (Memoizer.find?_empty key)
  obtain ⟨policy, journal, limiter, called, same, standard⟩ :=
    sharedRule_ends entered grantedToo (Memoizer.find?_empty key)
      (sharingSetting.entered sharingRule (.initial .standard)).journal
  have found : (Memoizer.empty.insert key (nothingRead .general)).find? key =
      some (nothingRead .general) := by rw [Memoizer.find?_insert, if_pos rfl]
  have keeps : Memoizer.stores ((Memoizer.empty.insert key (nothingRead .general)).find? key)
      (nothingRead .count) = false := by
    rw [found]
    rfl
  -- The new symbol is no improvement, and the policies return the one of the other kind.
  obtain ⟨returns, -⟩ := standard.leave_kept tagged keeps
  replace returns : (policy.leave sharedCall (nothingRead .count)).outcome =
      nothingRead .general := by
    rw [returns, found]
    rfl
  obtain ⟨journalToo, concluded⟩ := conclude_of_leave returns .count 0 journal
  have ran : Ends sharingSetting (.body sharingRule)
      (sharingSetting.entered sharingRule (.initial .standard)) (.replied (.ok .unit))
      ⟨0, policy, journal⟩ :=
    .body (.become (.body (.resumed called (.reply _ _))))
  have ends : Ends sharingSetting (.call sharingRule) (.initial .standard)
      (.answered (conclude sharedCall .count (nothingRead .count) _).1)
      (conclude sharedCall .count (nothingRead .count) _).2 := .executed unanswered ran rfl
  rw [concluded] at ends
  obtain ⟨steps, first⟩ := Setting.runMatch_eq_done_iff.mpr ends
  refine ⟨steps, _, _, Setting.parse_of_mismatch first, rfl, ?_⟩
  exact (Policy.leave_farthestFailure _ _ _).1.trans
    (same.trans (Policy.enter_farthestFailure unanswered))

end Sharing

end Packrat
