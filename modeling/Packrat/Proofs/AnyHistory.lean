import Packrat.Proofs.Derivation
import Packrat.Proofs.History
import Packrat.Proofs.Termination

/-!
# Any earlier runs

Of a grammar in which tags name parsers any rules may have been run on a standard engine, also
rules that are left recursive through one another and remember wrong answers.  What settles is
answered rightly all the same: it needs no rule that does not settle, and so it meets none of
their answers in the memo table.
-/

namespace Packrat

variable {ι α : Type} [Input ι]

omit [Input ι] in
/-- A tagged call that the policies do not answer makes its key active once more. -/
theorem Policy.IsStandard.enter_unanswered {policy : Policy α} {limiter : DepthLimiter}
    {memo : Memoizer α} (standard : policy.IsStandard limiter memo) {call : Call} {key : Key}
    (tagged : call.key? = some key) (unanswered : (policy.enter call).answer = none) :
    (policy.enter call).policy.IsStandard (limiter.opened key) memo := by
  cases refuses : limiter.refuses key call.remaining with
  | true => cases (standard.enter_refused tagged refuses).1.symm.trans unanswered
  | false =>
      cases found : memo.find? key with
      | none => exact (standard.enter_open tagged refuses found).2
      | some outcome =>
          cases (standard.enter_remembered tagged refuses found).1.symm.trans unanswered

omit [Input ι] in
theorem Policy.IsStandard.leave_elsewhere {policy : Policy α} {limiter : DepthLimiter}
    {memo : Memoizer α} (standard : policy.IsStandard limiter memo) {call : Call} {key : Key}
    (tagged : call.key? = some key) (outcome : Outcome (Sealed α)) :
    ∃ further table, (policy.leave call outcome).policy.IsStandard further table ∧
      ∀ other, other ≠ key → table.find? other = memo.find? other := by
  cases stores : Memoizer.stores (memo.find? key) outcome with
  | true =>
      obtain ⟨-, further, left⟩ := standard.leave_stored tagged stores
      refine ⟨further, _, left, fun other different => ?_⟩
      rw [Memoizer.find?_insert, if_neg different.symm]
  | false =>
      obtain ⟨-, further, left⟩ := standard.leave_kept tagged stores
      exact ⟨further, memo, left, fun _ _ => rfl⟩

section Serving

variable {setting : Setting ι α} {names : Tag → Parser ι α} {within runs : Parser ι α → Prop}
  {control : Control ι α} {state final : State α} {halt : Halt α}

/-- A chain serves if no more calls are active than before and it remembers nothing wrong. -/
theorem Policy.IsStandard.serving {policy other : Policy α}
    {limiter further : DepthLimiter} {memo table : Memoizer α}
    (standard : policy.IsStandard limiter memo) (idle : limiter.Idle (setting.Settles names))
    (standardToo : other.IsStandard further table) (balanced : policy.Balanced other)
    (follows : table.Follows names (setting.Settles names)) : other.Serving setting names := by
  refine ⟨further, table, standardToo, fun key outcome settles => ?_, follows⟩
  rw [standard.depth_eq standardToo balanced, idle key outcome settles]

variable {parser : Parser ι α}

/-- A call that the policies answer leaves a serving chain. -/
theorem answered_serving (serving : state.policy.Serving setting names)
    {answer : Outcome (Sealed α)} (answered : (setting.entry parser state).answer = some answer) :
    (settle (callAt setting.input state.cursor parser) parser.kind answer
      (setting.entered parser state)).2.policy.Serving setting names := by
  obtain ⟨limiter, memo, standard, idle, follows⟩ := serving
  obtain ⟨further, entered⟩ := standard.enter (callAt setting.input state.cursor parser)
  have standardToo : (settle (callAt setting.input state.cursor parser) parser.kind answer
      (setting.entered parser state)).2.policy.IsStandard further memo := by
    rw [settle_policy]
    exact entered
  exact standard.serving idle standardToo (Ends.answered answered).balances follows

/-- A call of a key that settles leaves a serving chain. -/
theorem settled_serving {key : Key} {outcome made : Outcome (Symbol α)}
    (serving : state.policy.Serving setting names) (settles : setting.Settles names key outcome)
    (tagged : parser.tag = some key.tag) (named : parser.core = names key.tag)
    (here : state.cursor = key.position)
    (ends : Ends setting (.call parser) state (.answered made) final) :
    final.policy.Serving setting names := by
  obtain ⟨limiter, memo, standard, idle, follows⟩ := serving
  obtain ⟨memoToo, last, limiterToo, served, -, standardToo, gains⟩ :=
    setting.settles_serves names settles tagged named here standard idle follows
  obtain ⟨-, rfl⟩ := ends.unique served
  refine standard.serving idle standardToo served.balances (follows.gains ?_ gains)
  exact fun _ _ _ first second => first.unique second

/-- A call of a key that does not settle leaves a serving chain if its body does. -/
theorem unsettled_serving {key : Key} (never : ∀ outcome, ¬ setting.Settles names key outcome)
    (serving : state.policy.Serving setting names) (tagged : parser.tag = some key.tag)
    (here : state.cursor = key.position) {middle : State α} {result : Result α}
    {outcome : Outcome (Sealed α)} (unanswered : (setting.entry parser state).answer = none)
    (ran : Ends setting (.body parser) (setting.entered parser state) (.replied result) middle)
    (sealed : sealResult (callAt setting.input state.cursor parser) parser.kind middle.cursor
      result = .ok outcome)
    (keeps : (setting.entered parser state).policy.Serving setting names →
      middle.policy.Serving setting names) :
    (conclude (callAt setting.input state.cursor parser) parser.kind outcome
      middle).2.policy.Serving setting names := by
  obtain ⟨limiter, memo, standard, idle, follows⟩ := serving
  have keyed : (callAt setting.input state.cursor parser).key? = some key := by
    rw [Key.callAt_eq setting.input tagged here, Key.key?_call]
  have entered : (setting.entered parser state).policy.IsStandard (limiter.opened key) memo :=
    standard.enter_unanswered keyed unanswered
  obtain ⟨limiterMid, memoMid, standardMid, -, followsMid⟩ :=
    keeps ⟨_, memo, entered, idle.opened never, follows⟩
  obtain ⟨further, table, left, same⟩ := standardMid.leave_elsewhere keyed outcome
  rw [← conclude_policy _ parser.kind] at left
  refine standard.serving idle left (Ends.executed unanswered ran sealed).balances ?_
  intro other made settles
  have different : other ≠ key := by
    rintro rfl
    exact never made settles
  rw [same other different]
  exact followsMid other made settles

/-- An untagged call leaves a serving chain if its body does. -/
theorem untagged_serving (serving : state.policy.Serving setting names)
    (untagged : parser.tag = none) {middle : State α} {outcome : Outcome (Sealed α)}
    (keeps : (setting.entered parser state).policy.Serving setting names →
      middle.policy.Serving setting names) :
    (conclude (callAt setting.input state.cursor parser) parser.kind outcome
      middle).2.policy.Serving setting names := by
  have missing : (callAt setting.input state.cursor parser).key? = none := by
    rw [Call.key?, callAt, untagged]
    rfl
  obtain ⟨limiter, memo, standard, idle, follows⟩ := serving
  obtain ⟨limiterMid, memoMid, standardMid, rest⟩ :=
    keeps ⟨limiter, memo, (standard.enter_untagged missing).2, idle, follows⟩
  rw [conclude_policy]
  exact ⟨limiterMid, memoMid, (standardMid.leave_untagged missing outcome).2, rest⟩

/-- Whatever runs in a grammar leaves behind a chain under which what settles is served. -/
theorem Ends.serving (grammar : setting.Grammar names within runs)
    (ends : Ends setting control state halt final) (covered : control.Leads within runs)
    (serving : state.policy.Serving setting names) (unfaulted : ∀ fault, halt ≠ .faulted fault) :
    final.policy.Serving setting names := by
  induction ends with
  | reply result state => exact serving
  | read symbol stop state => exact serving
  | become _ ih => exact ih covered serving unfaulted
  | body _ ih => exact ih (grammar.starts covered _) serving unfaulted
  | @resumed _ pending outcome _ _ _ _ _ _ callIh moveIh =>
      exact moveIh ((Pending.resume_over grammar.following covered.2 outcome).leads grammar.wider)
        (callIh covered.1 serving nofun) unfaulted
  | answered answer => exact answered_serving serving answer
  | @executed parser state middle result outcome unanswered ran sealed ih =>
      have keeps (serves : (setting.entered parser state).policy.Serving setting names) :
          middle.policy.Serving setting names := ih (grammar.wider covered) serves nofun
      cases tagged : parser.tag with
      | none => exact untagged_serving serving tagged keeps
      | some tag =>
          have named := grammar.named covered tagged
          by_cases settles : ∃ made, setting.Settles names ⟨state.cursor, tag⟩ made
          · obtain ⟨made, settles⟩ := settles
            exact settled_serving serving settles tagged named rfl (.executed unanswered ran sealed)
          · exact unsettled_serving (not_exists.mp settles) serving tagged rfl unanswered ran sealed
              keeps
  | abort fault state => exact absurd rfl (unfaulted fault)
  | lost => exact absurd rfl (unfaulted _)
  | unsealed => exact absurd rfl (unfaulted _)
  | broken => exact absurd rfl (unfaulted _)

end Serving

/-! ## Runs of a grammar -/

/-- The policies that a sequence of runs of a grammar leaves behind on a standard engine. -/
inductive LeftByRuns (setting : Setting ι α) (within : Parser ι α → Prop) : Policy α → Prop where
  | fresh : LeftByRuns setting within .standard
  | run {parser : Parser ι α} {state final : State α} {steps : Nat} {outcome : Outcome (Symbol α)} :
      LeftByRuns setting within state.policy → within parser →
      setting.runMatch steps parser state = .done outcome final →
      LeftByRuns setting within final.policy

theorem LeftByRuns.serving {setting : Setting ι α} {names : Tag → Parser ι α}
    {within runs : Parser ι α → Prop} (grammar : setting.Grammar names within runs)
    {policy : Policy α} (left : LeftByRuns setting within policy) :
    policy.Serving setting names := by
  induction left with
  | fresh => exact Policy.standard_serving
  | run _ covered done ih =>
      exact (Setting.runMatch_eq_done_iff.mp ⟨_, done⟩).serving grammar covered ih nofun

/--
After any runs of a grammar in which tags name parsers, running a parser whose calls settle has
the outcome that it has at the same position on a fresh standard engine.
-/
theorem runMatch_never_stale (setting : Setting ι α) (names : Tag → Parser ι α)
    (within runs : Parser ι α → Prop) (grammar : setting.Grammar names within runs)
    (policy : Policy α) (left : LeftByRuns setting within policy) (parser : Parser ι α)
    (position : Nat) (journal : List Event) (outcome : Outcome (Symbol α))
    (settles : setting.SettlesOn names parser position outcome) :
    (∃ steps final, setting.runMatch steps parser ⟨position, policy, journal⟩ =
      .done outcome final ∧ final.cursor = outcome.landing position) ∧
    ∃ steps final, setting.runMatch steps parser ⟨position, .standard, []⟩ =
      .done outcome final ∧ final.cursor = outcome.landing position :=
  have serving := left.serving grammar
  ⟨settles.runs serving journal, settles.runs Policy.standard_serving []⟩

section Letters

/-- A rule that tries a way back to itself first and then matches nothing. -/
def away : Parser (Array Char) Unit := .handle ⟨"away"⟩ 0

def wayBack : Parser (Array Char) Unit := .handle ⟨"back"⟩ 1

def leftLetters : Parser (Array Char) Unit := .recursive ⟨"letters"⟩ letters

/-- One letter, with rules that are left recursive through one another. -/
def oneLetter : Setting (Array Char) Unit :=
  ⟨#['a'], .ofParsers [.oneOf [wayBack, .empty], .deferred away]⟩

def nameOf (tag : Tag) : Parser (Array Char) Unit :=
  if tag = ⟨"away"⟩ then away else if tag = ⟨"back"⟩ then wayBack else leftLetters

inductive Called : Parser (Array Char) Unit → Prop where
  | away : Called away
  | wayBack : Called wayBack
  | empty : Called .empty
  | leftLetters : Called leftLetters
  | unfolded : Called (Parser.unfold ⟨"letters"⟩ letters)
  | letter : Called (letter 'a')
  | both {first second : Parser (Array Char) Unit}
      (combine : Symbol Unit → Symbol Unit → Symbol Unit) :
      Called first → Called second → Called (.both first second combine)

theorem called_grammar : oneLetter.Grammar nameOf Called fun parser =>
    Called parser ∨ parser = .oneOf [wayBack, .empty] ∨ parser = .deferred away where
  following first second := .both _ first second
  wider := .inl
  starts := by
    have back : ∀ parser ∈ [wayBack, .empty], Called parser := by
      simp only [List.forall_mem_cons, List.not_mem_nil, false_implies, implies_true, and_true]
      exact ⟨.wayBack, .empty⟩
    have longer : ∀ parser ∈ [.followedBy leftLetters (letter 'a'), letter 'a'],
        Called parser := by
      simp only [List.forall_mem_cons, List.not_mem_nil, false_implies, implies_true, and_true]
      exact ⟨.both _ .leftLetters .letter, .letter⟩
    rintro parser (one | rfl | rfl) state
    · cases one with
      | away => exact .inr (.inl rfl)
      | wayBack => exact .inr (.inr rfl)
      | empty => trivial
      | leftLetters => exact ⟨.unfolded, trivial⟩
      | unfolded => exact (tryAlternatives_over longer).leads .inl
      | letter => exact (Parser.start_terminal_over oneLetter state _ _).leads .inl
      | both combine first second => exact ⟨first, second⟩
    · exact (tryAlternatives_over back).leads .inl
    · exact ⟨.away, trivial⟩
  uniform := by
    rintro parser (one | rfl | rfl) state other same
    · cases one with
      | letter => simp only [letter, Parser.just, Parser.oneToken, Parser.start, same]
      | _ => rfl
    · rfl
    · rfl
  named := by
    intro parser tag one tagged
    cases one with
    | empty => cases tagged
    | letter => cases tagged
    | unfolded => cases tagged
    | both => cases tagged
    | _ =>
        cases tagged
        rfl

variable {allowed : Answering (Array Char) Unit}

theorem letter_matches : oneLetter.Matches allowed (letter 'a') 0 (.character 'a') 1 := by
  have read : oneLetter.Matches allowed (letter 'a') 0 (.character 'a') (0 + 1) :=
    .terminal rfl (Nat.le_refl 1)
  exact read

theorem letter_misses : oneLetter.Misses allowed (letter 'a') 1 := .terminal rfl

theorem letters_reads
    (misses : oneLetter.Misses allowed (.followedBy leftLetters (letter 'a')) 0) :
    oneLetter.Reads allowed (nameOf ⟨"letters"⟩) 0 (.character 'a') 1 := by
  refine .recursive (.choice [_] rfl ?_ letter_matches)
  simp only [List.mem_singleton, forall_eq]
  exact misses

/-- The letters settle on the only letter. -/
theorem letters_settle : oneLetter.SettlesOk nameOf ⟨"letters"⟩ 0 (.character 'a') 1 := by
  let key : Key := ⟨0, ⟨"letters"⟩⟩
  have first : oneLetter.Grows nameOf (oneLetter.Settles nameOf) key 0
      (.ok ⟨.character 'a', ⟨0, 1⟩⟩) :=
    .first (letters_reads (.both_first (.of_refused key rfl rfl))).round
  have seed : oneLetter.Matches (.named nameOf (answeredWith key
      (.ok ⟨.character 'a', ⟨0, 1⟩⟩) (oneLetter.Settles nameOf)))
      leftLetters 0 (.character 'a') 1 := .of_seed key rfl rfl (Nat.zero_le 1)
  have round := (letters_reads (.both_second seed letter_misses)).round
  exact ⟨.of_grows (first.add round (Outcome.grow_self _) 1), Nat.zero_le 1⟩

/-- After the letter the rules that are left recursive through one another end all the same. -/
theorem away_ends : ∃ steps outcome middle,
    oneLetter.runMatch steps away ⟨1, .standard, []⟩ = .done outcome middle := by
  let tags : Finset Tag := {⟨"away"⟩, ⟨"back"⟩}
  have composed : away.Composed (.over tags) := .handle 0 (by simp [Pieces.over, tags])
  have arena : oneLetter.arena.Composed (.over tags) := by
    refine Arena.ofParsers_composed fun parser member => ?_
    simp only [List.mem_cons, List.not_mem_nil, or_false] at member
    rcases member with rfl | rfl
    · refine .choice nofun fun parser member => ?_
      simp only [List.mem_cons, List.not_mem_nil, or_false] at member
      rcases member with rfl | rfl
      · exact .handle 1 (by simp [Pieces.over, tags])
      · exact .answer _
    · exact composed.deferred fun blind => blind.total
  have acyclic : oneLetter.arena.Acyclic := by
    refine Arena.acyclic_of_alias_eq_none fun slot parser held => ?_
    have member := Arena.mem_of_held held
    simp only [List.mem_cons, List.not_mem_nil, or_false] at member
    rcases member with rfl | rfl
    · rfl
    · rfl
  let state : State Unit := ⟨1, .standard, []⟩
  have bounded : state.Bounded oneLetter.input tags (weight oneLetter.input tags .empty 1) :=
    ⟨⟨Nat.le_refl 1, Policy.standard_fresh.remembers _⟩, .empty, rfl, Nat.le_refl _⟩
  obtain ⟨outcome, middle, ends⟩ := grammar_call_ends arena acyclic _ composed _ bounded
  obtain ⟨steps, done⟩ := Setting.runMatch_eq_done_iff.mpr ends
  exact ⟨steps, outcome, middle, done⟩

/--
After a run of rules that are left recursive through one another, the left recursive letters
match as on a fresh engine.
-/
theorem runMatch_never_stale_letters : ∃ steps outcome middle,
    oneLetter.runMatch steps away ⟨1, .standard, []⟩ = .done outcome middle ∧
    (∃ stepsToo final, oneLetter.runMatch stepsToo leftLetters ⟨0, middle.policy, []⟩ =
      .done (.ok ⟨.character 'a', ⟨0, 1⟩⟩) final) ∧
    ∃ stepsToo final, oneLetter.runMatch stepsToo leftLetters (.initial .standard) =
      .done (.ok ⟨.character 'a', ⟨0, 1⟩⟩) final := by
  obtain ⟨steps, outcome, middle, done⟩ := away_ends
  obtain ⟨⟨stepsToo, final, again, -⟩, stepsFresh, finalFresh, fresh, -⟩ :=
    runMatch_never_stale oneLetter nameOf Called _ called_grammar middle.policy
      (.run .fresh .away done) leftLetters 0 [] _ (letters_settle.settlesOn rfl rfl)
  exact ⟨steps, outcome, middle, done, ⟨stepsToo, final, again⟩, stepsFresh, finalFresh, fresh⟩

end Letters

end Packrat
