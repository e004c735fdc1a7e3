import Packrat.Proofs.Discretion
import Packrat.Proofs.Reading
import Packrat.Proofs.Repetition

/-!
# Lists and their expansions

A list of items with separators in between can be written with an optional item, a sequence and
a repetition.  The expansion makes untagged calls that the list does without, and it does
everything else in the same way: the two loops call the same parser (`Setting.Loop`), and what
is run inside of untagged calls does not depend on how many of them there are.
-/

namespace Packrat

variable {ι α : Type}

/-- A list with its loop written out: maybe an item, and then separators with items. -/
def Parser.expandedList (item separator : Parser ι α) : Parser ι α :=
  (item.followedBy (separator.ignoreThen item).many).maybe

/-- The items that an expanded list has read; if it has read nothing, there are none. -/
def Symbol.flattened : Symbol α → List (Symbol α)
  | .present (.pair first (.list rest)) => first :: rest
  | _ => []

/-- The states agree in all but the cursor and what observers have seen. -/
structure State.Agrees (state other : State α) : Prop where
  tables : state.policy.SameTables other.policy
  journal : state.journal.filter (!·.isObservation) = other.journal.filter (!·.isObservation)

namespace State.Agrees

variable {state middle other : State α}

theorem symm (agrees : state.Agrees other) : other.Agrees state :=
  ⟨⟨agrees.tables.1.symm, agrees.tables.2.symm⟩, agrees.journal.symm⟩

theorem trans (agrees : state.Agrees middle) (further : middle.Agrees other) :
    state.Agrees other :=
  ⟨⟨agrees.tables.1.trans further.tables.1, agrees.tables.2.trans further.tables.2⟩,
    agrees.journal.trans further.journal⟩

theorem of_above {calls : List Call} (above : state.Above calls other) : state.Agrees other :=
  ⟨above.policy.tables, above.journal⟩

end State.Agrees

variable [Input ι] {setting : Setting ι α}

/-- The end of an untagged call is of importance to observers only. -/
theorem conclude_untagged {call : Call} (untagged : call.key? = none) (kind : Kind)
    (outcome : Outcome (Symbol α)) (state : State α) :
    (conclude call kind (outcome.sealedAs kind) state).1 = outcome ∧
      state.Agrees (conclude call kind (outcome.sealedAs kind) state).2 := by
  obtain ⟨tables, observed⟩ :=
    state.policy.leave_untagged_tables untagged (outcome.sealedAs kind)
  rw [conclude, Policy.leave_untagged _ untagged, settle_sealedAs]
  refine ⟨rfl, tables, ?_⟩
  change _ = (State.record _ _).journal.filter _
  rw [State.filter_record, observed]
  rfl

namespace Setting

variable {parser other : Parser ι α} {state stateToo middle : State α}
  {log : List (Parser ι α × Nat)}

theorem key?_callAt (untagged : parser.tag = none) (input : ι) (position : Nat) :
    (callAt input position parser).key? = none := by
  rw [Call.key?, callAt, untagged]
  rfl

theorem Enacts.untagged (untagged : parser.tag = none) {result : Result α}
    (enacts : setting.Enacts (.body parser) (setting.entered parser state) log
      (.replied result) middle) (forward : state.cursor ≤ middle.cursor) :
    ∃ final, setting.Enacts (.call parser) state ((parser, state.cursor) :: log)
      (.answered (.ofResult state.cursor middle.cursor result)) final ∧
      middle.Agrees final := by
  have missing := key?_callAt untagged setting.input state.cursor
  have enacted := enacts.executed (state.policy.enter_untagged missing)
    (sealResult_ofResult fun _ _ => forward)
  obtain ⟨returns, agrees⟩ := conclude_untagged missing parser.kind
    (.ofResult state.cursor middle.cursor result) middle
  rw [show (callAt setting.input state.cursor parser).position = state.cursor from rfl,
    returns] at enacted
  exact ⟨_, enacted, agrees⟩

theorem above_entered (above : state.Above [] stateToo) (untagged : parser.tag = none) :
    state.Above [] (setting.entered parser stateToo) where
  cursor := above.cursor
  policy := above.policy.enter_untagged (key?_callAt untagged setting.input stateToo.cursor)
  journal := by
    obtain ⟨-, observed⟩ := stateToo.policy.enter_untagged_tables
      (key?_callAt untagged setting.input stateToo.cursor)
    rw [entered, State.filter_record, entry, observed]
    exact above.journal

/-- Inside of an untagged call it is of no importance whether there is another. -/
theorem entered_above (deep : state.policy.Deep) (untagged : parser.tag = none)
    (untaggedToo : other.tag = none) :
    (setting.entered parser state).Above []
      (setting.entered other (setting.entered parser state)) :=
  above_entered
    ⟨rfl, deep.above_of_untagged (key?_callAt untagged setting.input state.cursor), rfl⟩ untaggedToo

end Setting

namespace Setting

variable {parser : Parser ι α} {pending pendingToo : List (Symbol α) → Pending ι α}
  {begun state other final : State α} {before : List (Match (Symbol α))}

/--
Two loops that call the same parser make the same runs.  What a loop has behind it is counted in
laps; the induction is on how the loop comes to its end.
-/
theorem Loop.enacts (arena : setting.arena.Discreet) (discreet : parser.Discreet)
    (loop : Loop parser pending) (loopToo : Loop parser pendingToo)
    (laps : setting.Laps parser .unlimited begun before state)
    {control : Control ι α} {halt : Halt α} {result : Result α}
    (ends : Ends setting control state halt final) (taken : List (Symbol α))
    (here : control = .move (.call parser (pending taken))) (replied : halt = .replied result)
    (above : state.Above [] other) (takenToo : List (Symbol α)) :
    ∃ further failure log last, final.Above [] last ∧
      setting.Repeats parser .unlimited begun (before ++ further) failure final ∧
      result = .ok (.list (taken.reverse ++ further.map Match.symbol)) ∧
      setting.Enacts (.move (.call parser (pending taken))) state log (.replied result) final ∧
      setting.Enacts (.move (.call parser (pendingToo takenToo))) other log
        (.replied (.ok (.list (takenToo.reverse ++ further.map Match.symbol)))) last := by
  have isOpen (count : Nat) : CountLimit.unlimited.Open count := trivial
  induction ends generalizing before taken takenToo other with
  | @resumed _ _ outcome state middle _ _ ran rest _ ih =>
      cases here
      obtain ⟨log, middleToo, states, one, two⟩ := ran.mirrored arena discreet nofun above
      cases outcome with
      | error mismatch =>
          rw [loop.missed] at rest
          cases rest
          cases replied
          refine ⟨[], some mismatch, log ++ [], middleToo, states, ?_, ?_, ?_, ?_⟩
          · rw [List.append_nil]
            exact .failed laps (isOpen _) ran
          · rw [List.map_nil, List.append_nil]
          · refine one.resumed ?_
            rw [loop.missed]
            exact .reply _ _
          · refine two.resumed ?_
            rw [loopToo.missed, List.map_nil, List.append_nil]
            exact .reply _ _
      | ok matched =>
          cases empty : matched.span.isEmpty with
          | true =>
              rw [loop.matched, if_pos empty] at rest
              cases rest
              cases replied
              refine ⟨[matched], none, log ++ [], middleToo, states,
                .empty laps (isOpen _) ran empty, ?_, ?_, ?_⟩
              · rw [List.reverse_cons, List.map_singleton]
              · refine one.resumed ?_
                rw [loop.matched, if_pos empty]
                exact .reply _ _
              · refine two.resumed ?_
                rw [loopToo.matched, if_pos empty, List.reverse_cons, List.map_singleton]
                exact .reply _ _
          | false =>
              have goesOn := loop.matched taken matched
              have goesOnToo := loopToo.matched takenToo matched
              rw [if_neg (Bool.eq_false_iff.mp empty)] at goesOn goesOnToo
              obtain ⟨further, failure, logToo, last, statesToo, stops, same, oneToo, twoToo⟩ :=
                ih (laps.lap (isOpen _) ran empty) (matched.symbol :: taken)
                  (congrArg Control.move goesOn) replied states (matched.symbol :: takenToo)
              refine ⟨matched :: further, failure, log ++ logToo, last, statesToo, ?_, ?_, ?_, ?_⟩
              · rw [List.append_cons]
                exact stops
              · rw [same, List.reverse_cons, List.append_assoc]
                rfl
              · refine one.resumed ?_
                rw [goesOn]
                exact oneToo
              · refine two.resumed ?_
                rw [goesOnToo]
                rw [List.reverse_cons, List.append_assoc] at twoToo
                exact twoToo
  | lost _ _ => cases replied
  | _ => cases here

end Setting

/-! ## The list and its expansion -/

namespace Setting

variable {item separator : Parser ι α} {state other inside insideToo : State α}

/-- The items that a list reads: none, or a first one and those of the laps that follow it. -/
inductive ReadsItems (setting : Setting ι α) (item separator : Parser ι α) (begun : State α) :
    List (Symbol α) → Nat → Prop where
  | none {mismatch : Mismatch} {after : State α} :
      Ends setting (.call item) begun (.answered (.error mismatch)) after →
      ReadsItems setting item separator begun [] begun.cursor
  | some {first : Match (Symbol α)} {middle last : State α} {laps : List (Match (Symbol α))}
      {failure : Option Mismatch} :
      Ends setting (.call item) begun (.answered (.ok first)) middle →
      setting.Repeats (separator.ignoreThen item) .unlimited middle laps failure last →
      Tiles begun.cursor (first :: laps) last.cursor →
      ReadsItems setting item separator begun (first.symbol :: laps.map Match.symbol) last.cursor

/--
What a list does inside of its call and its expansion inside of its own: the item fails on both
sides, or it matches and the two loops run.
-/
inductive ListCourse (setting : Setting ι α) (item separator : Parser ι α)
    (inside insideToo : State α) : Prop where
  | none {log : List (Parser ι α × Nat)} {mismatch : Mismatch} {last lastToo : State α} :
      last.Above [] lastToo →
      setting.Enacts (.call item) inside log (.answered (.error mismatch)) last →
      setting.Enacts (.call item) insideToo log (.answered (.error mismatch)) lastToo →
      ListCourse setting item separator inside insideToo
  | some {log logToo : List (Parser ι α × Nat)} {first : Match (Symbol α)}
      {laps : List (Match (Symbol α))} {failure : Option Mismatch}
      {middle middleToo last lastToo : State α} :
      middle.Above [] middleToo → last.Above [] lastToo →
      setting.Enacts (.call item) inside log (.answered (.ok first)) middle →
      setting.Enacts (.call item) insideToo log (.answered (.ok first)) middleToo →
      setting.Repeats (separator.ignoreThen item) .unlimited middle laps failure last →
      setting.Enacts (.move (continueList item separator [first.symbol])) middle logToo
        (.replied (.ok (.list (first.symbol :: laps.map Match.symbol)))) last →
      setting.Enacts (.move (continueRepetition none (separator.ignoreThen item) .unlimited []))
        (setting.entered (separator.ignoreThen item).many middleToo) logToo
        (.replied (.ok (.list (laps.map Match.symbol)))) lastToo →
      ListCourse setting item separator inside insideToo

variable (arena : setting.arena.Discreet) (discreet : item.Discreet)
  (discreetToo : separator.Discreet)

include arena discreet discreetToo

/-- A list that ends takes such a course. -/
theorem ListCourse.of_list {result : Result α} {last : State α}
    (ends : Ends setting (.body (item.list separator)) inside (.replied result) last)
    (above : inside.Above [] insideToo) :
    setting.ListCourse item separator inside insideToo := by
  cases ends with
  | body moved =>
  cases moved with
  | @resumed _ _ outcome _ middle _ _ ran rest =>
      obtain ⟨log, middleToo, states, one, two⟩ := ran.mirrored arena discreet nofun above
      cases outcome with
      | error mismatch => exact .none states one two
      | ok first =>
          have entered : middle.Above []
              (setting.entered (separator.ignoreThen item).many middleToo) :=
            above_entered states rfl
          obtain ⟨laps, failure, logToo, lastToo, statesToo, stops, rfl, oneToo, twoToo⟩ :=
            Loop.enacts arena (discreetToo.ignoreThen discreet) (loop_list item separator)
              (loop_many _) .start rest [first.symbol] rfl rfl entered []
          exact .some states statesToo one two stops oneToo twoToo

theorem list_ends_of_expanded {outcome : Outcome (Symbol α)} {last : State α}
    (ends : Ends setting (.call (item.followedBy (separator.ignoreThen item).many)) other
      (.answered outcome) last)
    (above : inside.Above []
      (setting.entered (item.followedBy (separator.ignoreThen item).many) other)) :
    ∃ result last, Ends setting (.body (item.list separator)) inside (.replied result) last := by
  obtain ⟨result, middle, ran, -, -⟩ := (ends_untagged_iff rfl).mp ⟨last, ends⟩
  cases ran with
  | body moved =>
  cases moved with
  | @resumed _ _ outcome _ middleToo _ _ ran rest =>
      obtain ⟨log, middle, states, -, one⟩ := ran.mirrored arena discreet nofun above.symm
      have first := one.ends (by simp)
      cases outcome with
      | error mismatch => exact ⟨_, middle, .body (.resumed first (.reply _ _))⟩
      | ok matched =>
          cases rest with
          | @resumed _ _ _ _ _ _ _ ran _ =>
              obtain ⟨result, lastToo, ran, -, -⟩ := (ends_untagged_iff rfl).mp ⟨_, ran⟩
              have entered : middle.Above []
                  (setting.entered (separator.ignoreThen item).many middleToo) :=
                above_entered states.symm rfl
              cases ran with
              | body moved =>
                  obtain ⟨laps, failure, logToo, last, -, -, -, -, looped⟩ :=
                    Loop.enacts arena (discreetToo.ignoreThen discreet) (loop_many _)
                      (loop_list item separator) .start moved [] rfl rfl entered.symm
                      [matched.symbol]
                  exact ⟨_, last, .body (.resumed first (looped.ends (by simp)))⟩

omit arena discreet discreetToo in
/-- The list and its expansion both match what the course has read, with the same calls. -/
theorem ListCourse.enacts
    (course : setting.ListCourse item separator (setting.entered (item.list separator) state)
      (setting.entered (item.followedBy (separator.ignoreThen item).many)
        (setting.entered (item.expandedList separator) state)))
    (covering : state.policy.Covering setting.input) :
    ∃ items symbol stop final finalToo first between rest,
      setting.ReadsItems item separator (setting.entered (item.list separator) state) items stop ∧
      setting.Enacts (.call (item.list separator)) state
        ((item.list separator, state.cursor) :: (first ++ rest))
        (.answered (.ok ⟨.list items, ⟨state.cursor, stop⟩⟩)) final ∧
      setting.Enacts (.call (item.expandedList separator)) state
        ((item.expandedList separator, state.cursor) ::
          (item.followedBy (separator.ignoreThen item).many, state.cursor) ::
          (first ++ (between ++ rest)))
        (.answered (.ok ⟨symbol, ⟨state.cursor, stop⟩⟩)) finalToo ∧
      symbol.flattened = items ∧ final.Agrees finalToo ∧
      ∀ call ∈ between, call.1 = (separator.ignoreThen item).many := by
  obtain ⟨covering, -⟩ :=
    covering.enter (callAt setting.input state.cursor (item.list separator))
  cases course with
  | @none log mismatch last lastToo above one two =>
      have ends := one.ends (by simp)
      have lands : last.cursor = state.cursor := ends.landing
      have landsToo : lastToo.cursor = state.cursor := above.cursor.symm.trans lands
      have listing : setting.Enacts (.body (item.list separator)) _ _ _ _ :=
        Enacts.body (one.resumed (.reply (.ok (.list [])) last))
      obtain ⟨final, listed, agrees⟩ := listing.untagged rfl (Nat.le_of_eq lands.symm)
      have pairing :
          setting.Enacts (.body (item.followedBy (separator.ignoreThen item).many)) _ _ _ _ :=
        Enacts.body (two.resumed (.reply (.error mismatch) lastToo))
      obtain ⟨middle, paired, agreesToo⟩ := pairing.untagged rfl (Nat.le_of_eq landsToo.symm)
      have stays : middle.cursor = state.cursor := (paired.ends (by simp)).landing
      have wrapping : setting.Enacts (.body (item.expandedList separator)) _ _ _ _ :=
        Enacts.body (paired.resumed (.reply (.ok .absent) middle))
      obtain ⟨finalToo, wrapped, agreesLast⟩ := wrapping.untagged rfl (Nat.le_of_eq stays.symm)
      rw [lands] at listed
      rw [stays, List.append_nil, List.append_nil] at wrapped
      exact ⟨[], .absent, state.cursor, final, finalToo, log, [], [], .none ends, listed,
        (List.append_nil log).symm ▸ wrapped, rfl,
        agrees.symm.trans ((State.Agrees.of_above above).trans (agreesToo.trans agreesLast)),
        nofun⟩
  | @some log logToo first laps failure middle middleToo last lastToo above aboveToo one two stops
      oneToo twoToo =>
      have ends := one.ends (by simp)
      obtain ⟨covers, ahead, covering⟩ := ends.covers trivial covering
      obtain ⟨starts, -⟩ := covers first rfl
      obtain ⟨tiles, -⟩ := stops.reads covering
      obtain ⟨-, aheadToo, -⟩ := (oneToo.ends (by simp)).covers trivial covering
      have lands : middle.cursor = first.span.stop := ends.landing
      have forward : state.cursor ≤ middle.cursor := ahead.forward
      have forwardToo : state.cursor ≤ last.cursor := forward.trans aheadToo.forward
      have same : middleToo.cursor = middle.cursor := above.cursor.symm
      have sameToo : lastToo.cursor = last.cursor := aboveToo.cursor.symm
      have listing : setting.Enacts (.body (item.list separator)) _ _ _ _ :=
        Enacts.body (one.resumed oneToo)
      obtain ⟨final, listed, agrees⟩ := listing.untagged rfl forwardToo
      have looping : setting.Enacts (.body (separator.ignoreThen item).many) _ _ _ _ :=
        Enacts.body twoToo
      obtain ⟨after, looped, agreesMany⟩ := looping.untagged rfl
        (same.trans_le (aheadToo.forward.trans_eq sameToo.symm))
      have landsMany : after.cursor = lastToo.cursor := (looped.ends (by simp)).landing
      have pairing :
          setting.Enacts (.body (item.followedBy (separator.ignoreThen item).many)) _ _ _ _ :=
        Enacts.body (two.resumed (looped.resumed
          (.reply (.ok (.pair first.symbol (.list (laps.map Match.symbol)))) after)))
      have forwardMany : state.cursor ≤ after.cursor := by
        rw [landsMany, sameToo]
        exact forwardToo
      obtain ⟨paired, pairs, agreesToo⟩ := pairing.untagged rfl forwardMany
      have landsPair : paired.cursor = after.cursor := (pairs.ends (by simp)).landing
      have wrapping : setting.Enacts (.body (item.expandedList separator)) _ _ _ _ :=
        Enacts.body (pairs.resumed (.reply
          (.ok (.present (.pair first.symbol (.list (laps.map Match.symbol))))) paired))
      obtain ⟨finalToo, wrapped, agreesLast⟩ :=
        wrapping.untagged rfl (forwardMany.trans_eq landsPair.symm)
      rw [landsPair, landsMany, sameToo] at wrapped
      simp only [List.append_nil] at wrapped
      refine ⟨_, _, last.cursor, final, finalToo, log,
        [((separator.ignoreThen item).many, middleToo.cursor)], logToo,
        .some ends stops ⟨starts, lands ▸ tiles⟩, listed, wrapped, rfl, ?_, ?_⟩
      · exact agrees.symm.trans ((State.Agrees.of_above aboveToo).trans
          (agreesMany.trans (agreesToo.trans agreesLast)))
      · intro call member
        rw [List.mem_singleton.mp member]

structure ReadsAlike (setting : Setting ι α) (item separator : Parser ι α) (state : State α)
    (outcome outcomeToo : Outcome (Symbol α)) (final finalToo : State α)
    (log logToo : List (Parser ι α × Nat)) : Prop where
  /-- Both have matched the same items up to the same position, to which the cursor has moved. -/
  items : ∃ items symbol stop,
    setting.ReadsItems item separator (setting.entered (item.list separator) state) items stop ∧
    outcome = .ok ⟨.list items, ⟨state.cursor, stop⟩⟩ ∧
    outcomeToo = .ok ⟨symbol, ⟨state.cursor, stop⟩⟩ ∧ symbol.flattened = items ∧
    final.cursor = stop ∧ finalToo.cursor = stop
  /-- Memo tables, counts of active calls and events are the same. -/
  remains : final.Agrees finalToo
  /-- Both have made the same calls, but for those of the parsers that make up the expansion. -/
  calls : ∃ first between rest,
    log = (item.list separator, state.cursor) :: (first ++ rest) ∧
    logToo = (item.expandedList separator, state.cursor) ::
      (item.followedBy (separator.ignoreThen item).many, state.cursor) ::
      (first ++ (between ++ rest)) ∧
    ∀ call ∈ between, call.1 = (separator.ignoreThen item).many

theorem ListCourse.of_ends (deep : state.policy.Deep)
    (ends : (∃ outcome final,
        Ends setting (.call (item.list separator)) state (.answered outcome) final) ∨
      ∃ outcome final,
        Ends setting (.call (item.expandedList separator)) state (.answered outcome) final) :
    setting.ListCourse item separator (setting.entered (item.list separator) state)
      (setting.entered (item.followedBy (separator.ignoreThen item).many)
        (setting.entered (item.expandedList separator) state)) := by
  have above : (setting.entered (item.list separator) state).Above []
      (setting.entered (item.followedBy (separator.ignoreThen item).many)
        (setting.entered (item.expandedList separator) state)) :=
    entered_above deep rfl rfl
  rcases ends with ⟨outcome, final, ends⟩ | ⟨outcome, final, ends⟩
  · obtain ⟨result, last, ran, -, -⟩ := (ends_untagged_iff rfl).mp ⟨final, ends⟩
    exact .of_list arena discreet discreetToo ran above
  · obtain ⟨result, last, ran, -, -⟩ := (ends_untagged_iff rfl).mp ⟨final, ends⟩
    cases ran with
    | body moved =>
    cases moved with
    | @resumed _ _ _ _ _ _ _ ran _ =>
        obtain ⟨result, last, listed⟩ :=
          list_ends_of_expanded arena discreet discreetToo ran above
        exact .of_list arena discreet discreetToo listed above

end Setting

/-! ## Lists whose runs end -/

namespace Setting

variable {config : Config ι α} {parser first second item separator : Parser ι α}
  {pending : List (Symbol α) → Pending ι α} {state : State α} {stack : List (Frame ι α)}

/-- A call of an untagged parser ends if its body does. -/
theorem untagged_ends (untagged : parser.tag = none)
    (covering : state.policy.Covering setting.input)
    (ends : ∃ result last, Ends setting (.body parser) (setting.entered parser state)
      (.replied result) last) :
    ∃ outcome final, Ends setting (.call parser) state (.answered outcome) final := by
  obtain ⟨result, last, ends⟩ := ends
  obtain ⟨covering, -⟩ := covering.enter (callAt setting.input state.cursor parser)
  obtain ⟨-, ahead, -⟩ := ends.covers trivial covering
  obtain ⟨final, ends⟩ :=
    (ends_untagged_iff untagged).mpr ⟨result, last, ends, fun _ _ => ahead.forward, rfl⟩
  exact ⟨_, final, ends⟩

theorem RunsEnd.ignoreThen (covering : config.Covering setting.input)
    (one : setting.RunsEnd config first) (other : setting.RunsEnd config second) :
    setting.RunsEnd config (first.ignoreThen second) := by
  intro stack state reached
  suffices ∃ outcome final, Ends setting (.call (first.ignoreThen second)) state
      (.answered outcome) final by
    obtain ⟨outcome, final, ends⟩ := this
    obtain ⟨steps, done⟩ := runMatch_eq_done_iff.mpr ends
    exact ⟨steps, outcome, final, done⟩
  refine untagged_ends rfl (covering.reaches reached).policy ?_
  obtain ⟨frame, begun⟩ := reached.enters rfl
  have called := (begun.tail rfl).tail rfl
  obtain ⟨outcome, middle, ran⟩ := one.ends called
  cases outcome with
  | error mismatch => exact ⟨_, middle, .body (.resumed ran (.reply _ _))⟩
  | ok matched =>
      have calledToo := (Config.Reaches.resumes ran called).tail rfl
      obtain ⟨outcome, last, ranToo⟩ := other.ends calledToo
      cases outcome with
      | error mismatch => exact ⟨_, last, .body (.resumed ran (.resumed ranToo (.reply _ _)))⟩
      | ok matchedToo => exact ⟨_, last, .body (.resumed ran (.resumed ranToo (.reply _ _)))⟩

/--
A loop ends if all runs of its parser do.  The induction is on what is left of the input, which
every run makes smaller after which the loop goes on.
-/
theorem Loop.ends (loop : Loop parser pending) (covering : config.Covering setting.input)
    (runs : setting.RunsEnd config parser) (taken : List (Symbol α))
    (reached : Config.Reaches setting config
      ⟨.move (.call parser (pending taken)), stack, state⟩) :
    ∃ result last, Ends setting (.move (.call parser (pending taken))) state
      (.replied result) last := by
  induction left : Input.remaining setting.input state.cursor using Nat.strongRecOn
    generalizing state taken with
  | ind left ih =>
    have called := reached.tail rfl
    obtain ⟨outcome, after, ran⟩ := runs.ends called
    have resumed := Config.Reaches.resumes ran called
    suffices ∃ result last, Ends setting (.move ((pending taken).resume outcome)) after
        (.replied result) last by
      obtain ⟨result, last, ends⟩ := this
      exact ⟨result, last, .resumed ran ends⟩
    cases outcome with
    | error mismatch =>
        rw [loop.missed]
        exact ⟨_, _, .reply _ _⟩
    | ok matched =>
        obtain ⟨covers, ahead, -⟩ := ran.covers trivial (covering.reaches reached).policy
        rw [loop.matched] at resumed ⊢
        split
        · exact ⟨_, _, .reply _ _⟩
        · next consumes =>
            rw [if_neg consumes] at resumed
            have lands : after.cursor = matched.span.stop := ran.landing
            have moved : state.cursor ≠ after.cursor := by
              rw [lands, ← (covers matched rfl).1]
              simpa [Span.isEmpty] using consumes
            have shrinks := ahead.remaining_add
            have forward := ahead.forward
            exact ih _ (by omega) _ resumed rfl

/-- A list ends if all runs of its items and of its separators do. -/
theorem list_ends (covering : state.policy.Covering setting.input)
    (items : setting.RunsEnd ⟨.call (item.list separator), [], state⟩ item)
    (separators : setting.RunsEnd ⟨.call (item.list separator), [], state⟩ separator) :
    ∃ outcome final, Ends setting (.call (item.list separator)) state (.answered outcome)
      final := by
  have start : Config.Covering setting.input ⟨.call (item.list separator), [], state⟩ :=
    ⟨covering, trivial, .empty⟩
  refine untagged_ends rfl covering ?_
  have begun : Config.Reaches setting ⟨.call (item.list separator), [], state⟩
      ⟨.call (item.list separator), [], state⟩ := .refl
  obtain ⟨frame, begun⟩ := begun.enters rfl
  have called := (begun.tail rfl).tail rfl
  obtain ⟨outcome, middle, ran⟩ := items.ends called
  cases outcome with
  | error mismatch => exact ⟨_, middle, .body (.resumed ran (.reply _ _))⟩
  | ok matched =>
      obtain ⟨result, last, looped⟩ := (loop_list item separator).ends start
        (.ignoreThen start separators items) [matched.symbol] (Config.Reaches.resumes ran called)
      exact ⟨result, last, .body (.resumed ran looped)⟩

end Setting

theorem Lives.deep {input : ι} {policy : Policy α} {arena : Arena ι α} {parser : Parser ι α}
    {history : List (Deed α)} {moment : Moment ι α}
    (lives : Lives input (.birth policy arena parser) history moment) (fresh : policy.Fresh) :
    moment.policy.Deep := by
  refine lives.keeps (fun _ policy _ => policy.Deep) (Policy.deep_of_fresh fresh) ?_
  intro _ policy _ _ _ _ deep turn
  cases turn with
  | quiet => exact deep
  | answered _ _ => exact deep.enter _
  | started _ _ => exact deep.enter _
  | ended _ => exact deep.leave _ _

open Setting

/--
A list and its expansion do the same under any policies, at any moment of an engine.  If all runs
of items and separators end, then the list does; the list ends exactly if the expansion does; and
then both have matched the same items up to the same position and have left the same behind,
after the same calls of items and separators.  What the items and the separators see of the
policies may not depend on untagged calls.
-/
theorem list_agrees_with_expansion (setting : Setting ι α) (arena : setting.arena.Discreet)
    {item separator : Parser ι α} (discreet : item.Discreet) (discreetToo : separator.Discreet)
    {policy : Policy α} (fresh : policy.Fresh) {arenaToo : Arena ι α} {parser : Parser ι α}
    {history : List (Deed α)} {moment : Moment ι α}
    (lives : Lives setting.input (.birth policy arenaToo parser) history moment) :
    (setting.RunsEnd ⟨.call (item.list separator), [], moment.config.state⟩ item →
      setting.RunsEnd ⟨.call (item.list separator), [], moment.config.state⟩ separator →
      ∃ steps outcome final, setting.runMatch steps (item.list separator) moment.config.state =
        .done outcome final) ∧
    ((∃ steps outcome final, setting.runMatch steps (item.list separator) moment.config.state =
        .done outcome final) ↔
      ∃ steps outcome final,
        setting.runMatch steps (item.expandedList separator) moment.config.state =
          .done outcome final) ∧
    ∀ steps outcome final stepsToo outcomeToo finalToo,
      setting.runMatch steps (item.list separator) moment.config.state = .done outcome final →
      setting.runMatch stepsToo (item.expandedList separator) moment.config.state =
        .done outcomeToo finalToo →
      setting.ReadsAlike item separator moment.config.state outcome outcomeToo final finalToo
        (Config.callLog setting steps ⟨.call (item.list separator), [], moment.config.state⟩)
        (Config.callLog setting stepsToo
          ⟨.call (item.expandedList separator), [], moment.config.state⟩) := by
  have covering := (lives.covering fresh).policy
  have deep : moment.config.state.policy.Deep := lives.deep fresh
  have course := ListCourse.of_ends arena discreet discreetToo deep
  refine ⟨?_, ⟨?_, ?_⟩, ?_⟩
  · intro items separators
    obtain ⟨outcome, final, ends⟩ := list_ends covering items separators
    obtain ⟨steps, done⟩ := runMatch_eq_done_iff.mpr ends
    exact ⟨steps, outcome, final, done⟩
  · rintro ⟨steps, outcome, final, done⟩
    have ends := runMatch_eq_done_iff.mp ⟨steps, done⟩
    obtain ⟨_, _, _, _, _, _, _, _, -, -, enacts, -⟩ :=
      (course (.inl ⟨outcome, final, ends⟩)).enacts covering
    obtain ⟨steps, done⟩ := runMatch_eq_done_iff.mpr (enacts.ends (by simp))
    exact ⟨steps, _, _, done⟩
  · rintro ⟨steps, outcome, final, done⟩
    have ends := runMatch_eq_done_iff.mp ⟨steps, done⟩
    obtain ⟨_, _, _, _, _, _, _, _, -, enacts, -⟩ :=
      (course (.inr ⟨outcome, final, ends⟩)).enacts covering
    obtain ⟨steps, done⟩ := runMatch_eq_done_iff.mpr (enacts.ends (by simp))
    exact ⟨steps, _, _, done⟩
  · intro steps outcome final stepsToo outcomeToo finalToo done doneToo
    have ends := runMatch_eq_done_iff.mp ⟨steps, done⟩
    have endsToo := runMatch_eq_done_iff.mp ⟨stepsToo, doneToo⟩
    obtain ⟨items, symbol, stop, _, _, first, between, rest, reads, one, two, flat, agrees,
      between⟩ := (course (.inl ⟨outcome, final, ends⟩)).enacts covering
    have log := one.callLog done
    have logToo := two.callLog doneToo
    obtain ⟨same, rfl⟩ := ends.unique (one.ends (by simp))
    obtain ⟨sameToo, rfl⟩ := endsToo.unique (two.ends (by simp))
    cases same
    cases sameToo
    exact ⟨⟨items, symbol, stop, reads, rfl, rfl, flat, ends.landing, endsToo.landing⟩, agrees,
      first, _, rest, log, logToo, between⟩

theorem list_agrees_with_expansion_letters : ∃ steps symbol final,
    (Setting.mk #['a', ',', 'a'] .empty).runMatch steps ((letter 'a').expandedList (letter ','))
      (.initial (.tracer .empty)) = .done (.ok ⟨symbol, ⟨0, 3⟩⟩) final ∧
    symbol.flattened = [.character 'a', .character 'a'] := by
  have discreet (c : Char) : (letter c).Discreet := .terminal _ _
  have arena : (Arena.empty : Arena (Array Char) Unit).Discreet :=
    Arena.Composed.discreet (Arena.empty_composed .unrestricted)
  have fresh : (Policy.tracer .empty : Policy Unit).Fresh := rfl
  have lives : Lives #['a', ',', 'a'] (.birth (.tracer .empty) .empty (letter 'a')) []
      (.birth (.tracer .empty) .empty (letter 'a')) := .here
  have listed : ∃ final, (Setting.mk #['a', ',', 'a'] .empty).runMatch 60
      ((letter 'a').list (letter ',')) (.initial (.tracer .empty)) =
        .done (.ok ⟨.list [.character 'a', .character 'a'], ⟨0, 3⟩⟩) final := by
    cbv
    exact ⟨_, rfl⟩
  obtain ⟨final, done⟩ := listed
  obtain ⟨-, endsToo, alike⟩ := list_agrees_with_expansion
    (Setting.mk #['a', ',', 'a'] .empty) arena (discreet 'a') (discreet ',') fresh lives
  obtain ⟨steps, outcome, finalToo, doneToo⟩ := endsToo.mp ⟨60, _, final, done⟩
  obtain ⟨items, symbol, stop, -, same, rfl, flat, -, -⟩ :=
    (alike _ _ _ _ _ _ done doneToo).items
  cases same
  exact ⟨steps, symbol, finalToo, doneToo, flat⟩

end Packrat
