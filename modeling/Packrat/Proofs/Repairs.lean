import Packrat.Proofs.Termination
import Packrat.Proofs.WholeInput

/-!
# Runs up to a fault

A finishing step that faults ends the whole run, whatever the rest of the grammar would have
done.  Repairing a grammar puts a result in the place of every such fault.  The machine runs the
repaired grammar in lockstep with the grammar itself up to the first fault, so that a grammar
whose repair ends either ends in the same way or faults.
-/

namespace Packrat

variable {ι α : Type}

/-- The finishing step with a result in the place of every fault. -/
def Finish.repaired (repair : Result α) (complete : Finish α) : Finish α := fun result =>
  match complete result with
  | .ok finished => .ok finished
  | .error _ => .ok repair

theorem Finish.repaired_total (repair : Result α) (complete : Finish α) :
    (Finish.repaired repair complete).Total := by
  intro result
  unfold repaired
  split
  · exact ⟨_, rfl⟩
  · exact ⟨repair, rfl⟩

namespace Parser

mutual

def repaired (repair : Result α) : Parser ι α → Parser ι α
  | terminal expectation probe => terminal expectation probe
  | answer look => answer look
  | inspect look => inspect look
  | wrap tag kind inner finish =>
      wrap tag kind (repaired repair inner) (Finish.repaired repair finish)
  | both first second combine => both (repaired repair first) (repaired repair second) combine
  | andThen first next =>
      andThen (repaired repair first) fun symbol => repaired repair (next symbol)
  | repetition tag item limit => repetition tag (repaired repair item) limit
  | separated tag item separator => separated tag (repaired repair item) (repaired repair separator)
  | choice tag alternatives => choice tag (repairedAll repair alternatives)
  | retag tag inner => retag tag (repaired repair inner)
  | recording events inner => recording events (repaired repair inner)
  | recursive tag body => recursive tag (repaired repair body)
  | self depth => self depth
  | handle tag slot => handle tag slot

def repairedAll (repair : Result α) : List (Parser ι α) → List (Parser ι α)
  | [] => []
  | parser :: rest => repaired repair parser :: repairedAll repair rest

end

variable (repair : Result α)

theorem repairedAll_eq_map (parsers : List (Parser ι α)) :
    repairedAll repair parsers = parsers.map (repaired repair) := by
  induction parsers with
  | nil => rfl
  | cons parser rest ih => rw [repairedAll, ih, List.map_cons]

@[simp]
theorem tag_repaired : ∀ parser : Parser ι α, (parser.repaired repair).tag = parser.tag
  | recording _ inner => tag_repaired inner
  | terminal .. | answer _ | inspect _ | wrap .. | both .. | andThen .. | repetition ..
  | separated .. | choice .. | retag .. | recursive .. | self _ | handle .. => rfl

@[simp]
theorem kind_repaired : ∀ parser : Parser ι α, (parser.repaired repair).kind = parser.kind
  | wrap _ none inner _ => kind_repaired inner
  | retag _ inner => kind_repaired inner
  | recording _ inner => kind_repaired inner
  | wrap _ (some _) .. | terminal .. | answer _ | inspect _ | both .. | andThen .. | repetition ..
  | separated .. | choice .. | recursive .. | self _ | handle .. => rfl

theorem renamed_repaired (name : Tag) : ∀ parser : Parser ι α,
    (parser.repaired repair).renamed name = (parser.renamed name).repaired repair
  | retag _ inner => renamed_repaired name inner
  | terminal .. | answer _ | inspect _ | wrap .. | both .. | andThen .. | repetition ..
  | separated .. | choice .. | recording .. | recursive .. | self _ | handle .. => rfl

theorem alias?_repaired : ∀ parser : Parser ι α, (parser.repaired repair).alias? = parser.alias?
  | retag _ inner => alias?_repaired inner
  | recording _ inner => alias?_repaired inner
  | terminal .. | answer _ | inspect _ | wrap .. | both .. | andThen .. | repetition ..
  | separated .. | choice .. | recursive .. | self _ | handle .. => rfl

mutual

theorem replaceSelf_repaired (replacement : Parser ι α) (depth : Nat) :
    ∀ parser : Parser ι α,
      replaceSelf (replacement.repaired repair) depth (parser.repaired repair) =
        (replaceSelf replacement depth parser).repaired repair
  | wrap _ _ inner _ => by
      simp only [repaired, replaceSelf, replaceSelf_repaired replacement depth inner]
  | both first second _ => by
      simp only [repaired, replaceSelf, replaceSelf_repaired replacement depth first,
        replaceSelf_repaired replacement depth second]
  | andThen first next => by
      simp only [repaired, replaceSelf, replaceSelf_repaired replacement depth first,
        fun symbol => replaceSelf_repaired replacement depth (next symbol)]
  | repetition _ item _ => by
      simp only [repaired, replaceSelf, replaceSelf_repaired replacement depth item]
  | separated _ item separator => by
      simp only [repaired, replaceSelf, replaceSelf_repaired replacement depth item,
        replaceSelf_repaired replacement depth separator]
  | choice _ alternatives => by
      simp only [repaired, replaceSelf, replaceSelfAll_repaired replacement depth alternatives]
  | retag _ inner => by
      simp only [repaired, replaceSelf, replaceSelf_repaired replacement depth inner]
  | recording _ inner => by
      simp only [repaired, replaceSelf, replaceSelf_repaired replacement depth inner]
  | recursive _ body => by
      simp only [repaired, replaceSelf, replaceSelf_repaired replacement (depth + 1) body]
  | self level => by
      simp only [repaired, replaceSelf]
      split
      · rfl
      · rfl
  | terminal .. | answer _ | inspect _ | handle .. => rfl

theorem replaceSelfAll_repaired (replacement : Parser ι α) (depth : Nat) :
    ∀ parsers : List (Parser ι α),
      replaceSelfAll (replacement.repaired repair) depth (repairedAll repair parsers) =
        repairedAll repair (replaceSelfAll replacement depth parsers)
  | [] => rfl
  | parser :: rest => by
      simp only [repairedAll, replaceSelfAll, replaceSelf_repaired replacement depth parser,
        replaceSelfAll_repaired replacement depth rest]

end

theorem unfold_repaired (tag : Tag) (body : Parser ι α) :
    unfold tag (body.repaired repair) = (unfold tag body).repaired repair :=
  replaceSelf_repaired repair (.recursive tag body) 0 body

/-- A repaired parser is composed as before, of total finishing steps. -/
theorem Composed.repaired {pieces : Pieces ι α} {parser : Parser ι α}
    (composed : parser.Composed pieces) :
    (parser.repaired repair).Composed { pieces with finish := Finish.Total } := by
  induction composed with
  | terminal admitted => exact .terminal admitted
  | answer look => exact .answer look
  | wrap named _ _ ih => exact .wrap named ih (Finish.repaired_total repair _)
  | both combine _ _ firstIh secondIh => exact .both combine firstIh secondIh
  | andThen _ _ firstIh nextIh => exact .andThen firstIh nextIh
  | repetition limit named _ ih => exact .repetition limit named ih
  | separated named _ _ itemIh separatorIh => exact .separated named itemIh separatorIh
  | choice named _ ih =>
      rw [Parser.repaired, repairedAll_eq_map]
      refine .choice named ?_
      intro parser member
      obtain ⟨alternative, memberToo, rfl⟩ := List.mem_map.mp member
      exact ih alternative memberToo
  | retag admitted _ ih => exact .retag admitted ih
  | recording recorded _ ih => exact .recording recorded ih
  | recursive admitted _ ih => exact .recursive admitted ih
  | self depth => exact .self depth
  | handle slot admitted => exact .handle slot admitted

end Parser

namespace Arena

variable (repair : Result α) {arena : Arena ι α}

def repaired (arena : Arena ι α) : Arena ι α :=
  ⟨arena.slots.map (Option.map (Parser.repaired repair)), arena.alive⟩

theorem resolve_repaired (tag : Tag) (slot : Nat) :
    (arena.repaired repair).resolve tag slot =
      (arena.resolve tag slot).map (Parser.repaired repair) := by
  unfold resolve
  rw [repaired, Array.getElem?_map]
  cases arena.alive with
  | false => rfl
  | true =>
      cases arena.slots[slot]? with
      | none => rfl
      | some held => cases held <;> rfl

theorem exists_of_resolve_repaired {tag : Tag} {slot : Nat} {parser : Parser ι α}
    (resolved : (arena.repaired repair).resolve tag slot = .ok parser) :
    ∃ original, arena.resolve tag slot = .ok original ∧ parser = original.repaired repair := by
  rw [resolve_repaired] at resolved
  cases found : arena.resolve tag slot with
  | error mismatch =>
      rw [found] at resolved
      cases resolved
  | ok original =>
      rw [found] at resolved
      cases resolved
      exact ⟨original, rfl, rfl⟩

theorem Composed.repaired {pieces : Pieces ι α} (composed : arena.Composed pieces) :
    (arena.repaired repair).Composed { pieces with finish := Finish.Total } := by
  intro slot parser held
  rw [Arena.repaired, Array.getElem?_map, Option.map_eq_some_iff] at held
  obtain ⟨original, found, same⟩ := held
  obtain ⟨one, rfl, rfl⟩ := Option.map_eq_some_iff.mp same
  exact (composed slot one found).repaired repair

theorem Acyclic.repaired (acyclic : arena.Acyclic) : (arena.repaired repair).Acyclic := by
  have aliases (slot other : Nat) (stands : (arena.repaired repair).Aliases slot other) :
      arena.Aliases slot other := by
    obtain ⟨tag, parser, resolved, aliased⟩ := stands
    obtain ⟨original, found, rfl⟩ := exists_of_resolve_repaired repair resolved
    exact ⟨tag, original, found, (Parser.alias?_repaired repair original).symm.trans aliased⟩
  exact fun slot circle => acyclic slot (circle.lift id aliases)

end Arena

def Setting.repaired (repair : Result α) (setting : Setting ι α) : Setting ι α :=
  ⟨setting.input, setting.arena.repaired repair⟩

section Repaired

variable (repair : Result α)

def Pending.repaired : Pending ι α → Pending ι α
  | .finish complete => .finish (Finish.repaired repair complete)
  | .first other combine => .first (other.repaired repair) combine
  | .second symbol combine => .second symbol combine
  | .choosing next => .choosing fun symbol => (next symbol).repaired repair
  | .passing => .passing
  | .alternative tag alternatives rest =>
      .alternative tag (alternatives.map (Parser.repaired repair))
        (rest.map (Parser.repaired repair))
  | .iteration tag item limit taken => .iteration tag (item.repaired repair) limit taken
  | .firstItem item separator => .firstItem (item.repaired repair) (separator.repaired repair)
  | .nextItem item separator taken =>
      .nextItem (item.repaired repair) (separator.repaired repair) taken

def Move.repaired : Move ι α → Move ι α
  | .reply result => .reply result
  | .read symbol stop => .read symbol stop
  | .call parser pending => .call (parser.repaired repair) (pending.repaired repair)
  | .become events parser => .become events (parser.repaired repair)
  | .abort fault => .abort fault

def Frame.repaired : Frame ι α → Frame ι α
  | .active call kind => .active call kind
  | .waiting pending => .waiting (pending.repaired repair)

def Control.repaired : Control ι α → Control ι α
  | .call parser => .call (parser.repaired repair)
  | .body parser => .body (parser.repaired repair)
  | .move next => .move (next.repaired repair)
  | .answer outcome => .answer outcome

def Config.repaired (config : Config ι α) : Config ι α :=
  ⟨config.control.repaired repair, config.stack.map (Frame.repaired repair), config.state⟩

def Progress.repaired : Progress ι α → Progress ι α
  | .next config => .next (config.repaired repair)
  | .halt ending state => .halt ending state

end Repaired

/-! ## Steps -/

section Steps

variable (repair : Result α)

theorem choiceMismatch_repaired (tag : Option Tag) (alternatives : List (Parser ι α)) :
    choiceMismatch tag (alternatives.map (Parser.repaired repair)) =
      choiceMismatch tag alternatives := by
  simp only [choiceMismatch, List.any_map, List.map_map, Function.comp_def, Parser.tag_repaired]

theorem tryAlternatives_repaired (tag : Option Tag) (alternatives rest : List (Parser ι α)) :
    tryAlternatives tag (alternatives.map (Parser.repaired repair))
        (rest.map (Parser.repaired repair)) =
      (tryAlternatives tag alternatives rest).repaired repair := by
  cases rest with
  | nil => rw [List.map_nil, tryAlternatives, choiceMismatch_repaired]; rfl
  | cons parser rest => rfl

theorem endRepetition_repaired (tag : Option Tag) (item : Parser ι α) (limit : CountLimit)
    (taken : List (Symbol α)) (failure : Option Mismatch) :
    endRepetition tag (item.repaired repair) limit taken failure =
      endRepetition tag item limit taken failure := by
  simp only [endRepetition, Parser.tag_repaired]

theorem continueRepetition_repaired (tag : Option Tag) (item : Parser ι α) (limit : CountLimit)
    (taken : List (Symbol α)) :
    continueRepetition tag (item.repaired repair) limit taken =
      (continueRepetition tag item limit taken).repaired repair := by
  unfold continueRepetition
  split
  · rfl
  · rw [endRepetition_repaired]
    rfl

variable [Input ι]

theorem start_repaired (setting : Setting ι α) (state : State α) (parser : Parser ι α) :
    (parser.repaired repair).start (setting.repaired repair) state =
      (parser.start setting state).repaired repair := by
  cases parser with
  | terminal expectation probe =>
      -- A terminal does not look at the arena.
      change Parser.start setting state (.terminal expectation probe) = _
      simp only [Parser.start]
      split
      · rfl
      · rfl
      · split <;> rfl
  | repetition tag item limit => exact continueRepetition_repaired repair tag item limit []
  | choice tag alternatives =>
      rw [Parser.repaired, Parser.repairedAll_eq_map]
      exact tryAlternatives_repaired repair tag alternatives alternatives
  | retag tag inner => exact congrArg (Move.become []) (Parser.renamed_repaired repair tag inner)
  | recursive tag body =>
      exact congrArg (Move.call · .passing) (Parser.unfold_repaired repair tag body)
  | handle tag slot =>
      simp only [Parser.repaired, Parser.start, Setting.repaired, Arena.resolve_repaired]
      cases setting.arena.resolve tag slot <;> rfl
  | _ => rfl

omit [Input ι] in
/-- A waiting body goes on as its repair does, unless its finishing step faults. -/
theorem resume_repaired (pending : Pending ι α) (outcome : Outcome (Symbol α)) :
    (pending.repaired repair).resume outcome = (pending.resume outcome).repaired repair ∨
      ∃ fault, pending.resume outcome = .abort fault := by
  cases pending with
  | finish complete =>
      simp only [Pending.repaired, Pending.resume, Finish.repaired]
      cases complete (outcome.map Match.symbol) with
      | ok finished => exact .inl rfl
      | error fault => exact .inr ⟨fault, rfl⟩
  | alternative tag alternatives rest =>
      cases outcome with
      | ok matched => exact .inl rfl
      | error mismatch => exact .inl (tryAlternatives_repaired repair tag alternatives rest)
  | iteration tag item limit taken =>
      refine .inl ?_
      cases outcome with
      | error mismatch =>
          simp only [Pending.repaired, Pending.resume, endRepetition_repaired]
          rfl
      | ok matched =>
          simp only [Pending.repaired, Pending.resume, endRepetition_repaired,
            continueRepetition_repaired]
          split <;> rfl
  | nextItem item separator taken =>
      refine .inl ?_
      cases outcome with
      | error mismatch => rfl
      | ok matched =>
          simp only [Pending.repaired, Pending.resume]
          split <;> rfl
  | _ => cases outcome <;> exact .inl rfl

namespace Config

theorem beginCall_repaired (setting : Setting ι α) (parser : Parser ι α)
    (stack : List (Frame ι α)) (state : State α) :
    beginCall (setting.repaired repair) (parser.repaired repair)
        (stack.map (Frame.repaired repair)) state =
      (beginCall setting parser stack state).repaired repair := by
  have same : callAt (setting.repaired repair).input state.cursor (parser.repaired repair) =
      callAt setting.input state.cursor parser := by
    rw [callAt, Parser.tag_repaired]
    rfl
  simp only [beginCall, same, Parser.kind_repaired]
  split <;> rfl

omit [Input ι] in
theorem endBody_repaired (result : Result α) (stack : List (Frame ι α)) (state : State α) :
    endBody result (stack.map (Frame.repaired repair)) state =
      (endBody result stack state).repaired repair := by
  cases stack with
  | nil => rfl
  | cons frame stack =>
      cases frame with
      | waiting pending => rfl
      | active call kind =>
          simp only [List.map_cons, Frame.repaired, endBody]
          split <;> rfl

/-- A repaired configuration steps as the configuration does, unless a fault is next. -/
theorem step_repaired (setting : Setting ι α) (config : Config ι α) :
    (config.repaired repair).step (setting.repaired repair) =
        (config.step setting).repaired repair ∨
      (∃ next, (config.repaired repair).step (setting.repaired repair) = .next next) ∧
        ∃ fault stack state, config.step setting = .next ⟨.move (.abort fault), stack, state⟩ := by
  obtain ⟨control, stack, state⟩ := config
  cases control with
  | call parser => exact .inl (congrArg Progress.next (beginCall_repaired repair setting _ _ _))
  | body parser =>
      refine .inl (congrArg (fun move => Progress.next ⟨.move move, _, _⟩) ?_)
      exact start_repaired repair setting state parser
  | move next =>
      refine .inl ?_
      cases next with
      | reply result => exact endBody_repaired repair result stack state
      | read symbol stop => exact endBody_repaired repair _ stack _
      | _ => rfl
  | answer outcome =>
      cases stack with
      | nil => exact .inl rfl
      | cons frame stack =>
          cases frame with
          | active call kind => exact .inl rfl
          | waiting pending =>
              rcases resume_repaired repair pending outcome with same | ⟨fault, aborts⟩
              · exact .inl (congrArg (fun move => Progress.next ⟨.move move, _, _⟩) same)
              · exact .inr ⟨⟨_, rfl⟩, fault, stack, state,
                  congrArg (fun move => Progress.next ⟨.move move, _, _⟩) aborts⟩

theorem run_repaired (setting : Setting ι α) {steps : Nat} {config : Config ι α}
    {ending : Halt α × State α}
    (ended : run (setting.repaired repair) steps (config.repaired repair) = some ending) :
    run setting steps config = some ending ∨
      ∃ fault final, run setting steps config = some (.faulted fault, final) := by
  induction steps generalizing config with
  | zero => cases ended
  | succ steps ih =>
      rw [run_succ] at ended
      rw [run_succ]
      rcases step_repaired repair setting config with same |
        ⟨⟨next, goes⟩, fault, stack, state, aborts⟩
      · rw [same] at ended
        cases progress : config.step setting with
        | next config =>
            rw [progress] at ended
            exact ih ended
        | halt halt state =>
            rw [progress] at ended
            exact .inl ended
      · rw [goes] at ended
        obtain ⟨rest, rfl, -⟩ := endAfter_step_of_run ended
        rw [aborts]
        exact .inr ⟨fault, state, rfl⟩

end Config

/-- Where a call of the repaired parser ends, the call ends in the same way or faults. -/
theorem Ends.of_repaired {setting : Setting ι α} {parser : Parser ι α} {state final : State α}
    {halt : Halt α}
    (ends : Ends (setting.repaired repair) (.call (parser.repaired repair)) state halt final) :
    Ends setting (.call parser) state halt final ∨
      ∃ fault last, Ends setting (.call parser) state (.faulted fault) last := by
  obtain ⟨steps, ended⟩ := ends.run
  have started : ∀ outcome, (Control.call parser : Control ι α) ≠ .answer outcome := nofun
  let config : Config ι α := ⟨.call parser, [], state⟩
  have repaired : Config.run (setting.repaired repair) steps (config.repaired repair) =
      some (halt, final) := ended
  rcases Config.run_repaired repair setting repaired with same | ⟨fault, last, faulted⟩
  · exact .inl ((ends_iff_run started).mpr ⟨steps, same⟩)
  · exact .inr ⟨fault, last, (ends_iff_run started).mpr ⟨steps, faulted⟩⟩

end Steps

section Ending

variable [Input ι] [Readable ι]

def Pieces.overflowing (tags : Finset Tag) : Pieces ι α where
  terminal := Readable.IsTerminal
  finish := Finish.Regular
  tag := (· ∈ tags)
  event := Event.IsCounted

theorem Pieces.overflowing_within (tags : Finset Tag) :
    (Pieces.overflowing tags : Pieces ι α).Within .vocabulary where
  terminal := id
  finish := id
  tag _ := trivial
  event := id

variable {setting : Setting ι α} {parser : Parser ι α} {state : State α}

/-- A call of a finite grammar with a re-entrancy limit ends or overflows. -/
theorem call_ends_or_overflows (tags : Finset Tag)
    (arena : setting.arena.Composed (.overflowing tags)) (acyclic : setting.arena.Acyclic)
    (composed : parser.Composed (.overflowing tags))
    (sound : state.Sound setting.input) (limited : state.policy.limiter? ≠ none) :
    (∃ outcome final, Ends setting (.call parser) state (.answered outcome) final) ∨
      ∃ final, Ends setting (.call parser) state (.faulted .overflow) final := by
  obtain ⟨limiter, outermost⟩ := Option.ne_none_iff_exists'.mp limited
  -- Any result repairs the grammar, as nothing is claimed about the outcome.
  let repair : Result α := .error .empty
  have bounded : state.Bounded (setting.repaired repair).input tags
      (weight setting.input tags limiter state.cursor) :=
    ⟨sound, limiter, outermost, Nat.le_refl _⟩
  have arenaToo : (setting.repaired repair).arena.Composed (.over tags) := arena.repaired repair
  have composedToo : (parser.repaired repair).Composed (.over tags) := composed.repaired repair
  obtain ⟨outcome, final, ends⟩ :=
    grammar_call_ends arenaToo (acyclic.repaired repair) _ composedToo state bounded
  rcases Ends.of_repaired repair ends with same | ⟨fault, last, faulted⟩
  · exact .inl ⟨outcome, final, same⟩
  · have within := Pieces.overflowing_within (ι := ι) (α := α) tags
    have sort : fault = .overflow :=
      (faulted.call_sound (arena.mono within) (composed.mono within) sound).1
    rw [sort] at faulted
    exact .inr ⟨last, faulted⟩

omit [Readable ι] in
/-- Parsing faults if the call of the start parser does. -/
theorem Setting.parse_eq_faulted {fault : Fault} {final : State α}
    (faulted : Ends setting (.call parser) (.initial .standard) (.faulted fault) final) :
    ∃ steps, setting.parse steps parser = .faulted fault final := by
  obtain ⟨steps, ended⟩ := faulted.run
  refine ⟨steps, ?_⟩
  simp only [parse, runToEnd, run, runMatch, ended, Run.map, Run.andThen]

omit [Readable ι] in
/-- A parse does not end if the call of its start parser faults. -/
theorem Setting.parse_ne_done {fault : Fault} {final : State α}
    (faulted : Ends setting (.call parser) (.initial .standard) (.faulted fault) final)
    (steps : Nat) (result : Except ParseError (Symbol α)) (last : State α) :
    setting.parse steps parser ≠ .done result last := by
  intro done
  obtain ⟨one, middle, ran, -⟩ := Run.andThen_eq_done_iff.mp done
  obtain ⟨outcome, _, called, -⟩ := Run.andThen_eq_done_iff.mp ran
  cases ((runMatch_eq_done_iff.mp ⟨steps, called⟩).unique faulted).1

/-- Parsing with a finite grammar ends or overflows. -/
theorem Setting.parse_ends_or_overflows (tags : Finset Tag)
    (start : Readable.IsBoundary setting.input 0)
    (arena : setting.arena.Composed (.overflowing tags)) (acyclic : setting.arena.Acyclic)
    (composed : parser.Composed (.overflowing tags)) :
    (∃ steps result final, setting.parse steps parser = .done result final) ∨
      ∃ steps final, setting.parse steps parser = .faulted .overflow final ∧
        Ends setting (.call parser) (.initial .standard) (.faulted .overflow) final := by
  have sound : (State.initial .standard : State α).Sound setting.input :=
    ⟨start, Policy.standard_fresh.remembers setting.input⟩
  rcases call_ends_or_overflows tags arena acyclic composed sound nofun with
    ⟨outcome, middle, ends⟩ | ⟨final, ends⟩
  · refine .inl ?_
    cases outcome with
    | error mismatch =>
        obtain ⟨steps, first⟩ := runMatch_eq_done_iff.mpr ends
        refine ⟨steps, .error ⟨mismatch, middle.policy.farthestFailure⟩, middle, ?_⟩
        simp only [parse, runToEnd, run, first, Run.map, Run.andThen, Except.map]
    | ok matched =>
        have within := Pieces.overflowing_within (ι := ι) (α := α) tags
        obtain ⟨⟨fits, -⟩, -⟩ := ends.call_sound (arena.mono within) (composed.mono within) sound
        rcases Nat.eq_or_lt_of_le (Readable.le_size fits.2.2) with whole | part
        · obtain ⟨steps, final, done⟩ := parse_eq_ok_iff.mpr ⟨matched, middle, ends, rfl, whole⟩
          exact ⟨steps, _, final, done⟩
        · obtain ⟨steps, error, final, done⟩ := parse_eq_error ends part
          exact ⟨steps, _, final, done⟩
  · obtain ⟨steps, faulted⟩ := parse_eq_faulted ends
    exact .inr ⟨steps, final, faulted, ends⟩

end Ending

end Packrat
