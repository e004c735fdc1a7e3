import Packrat.Proofs.NaturalSemantics

/-!
# Evaluation relative to answers

`Yields` evaluates a control without policies, where the calls of tagged parsers have the
outcomes that a relation allows and all other calls are executed.  What a rule does can so
be described one rule at a time.  The relation decides what is described: what rules do
without policies, what they settle on under the standard chain, or a property that all
outcomes of a rule have.

The second half of the module evaluates the vocabulary: what a body replies and how a call
is answered, for every shape of a parser.
-/

namespace Packrat

variable {ι α : Type}

/-- Which outcomes the calls of tagged parsers at positions may have. -/
abbrev Answering (ι α : Type) := Parser ι α → Nat → Outcome (Symbol α) → Prop

def Outcome.ofResult (position stop : Nat) : Result α → Outcome (Symbol α)
  | .ok symbol => .ok ⟨symbol, ⟨position, stop⟩⟩
  | .error mismatch => .error mismatch

variable [Input ι]

/--
A control that starts at a position ends in some way at another position, where tagged calls
have allowed outcomes.  A body may not start differently under different policies.
-/
inductive Yields (setting : Setting ι α) (allowed : Answering ι α) :
    Control ι α → Nat → Halt α → Nat → Prop where
  | reply {position : Nat} (result : Result α) :
      Yields setting allowed (.move (.reply result)) position (.replied result) position
  | read {position : Nat} (symbol : Symbol α) (stop : Nat) :
      Yields setting allowed (.move (.read symbol stop)) position (.replied (.ok symbol)) stop
  | become {position stop : Nat} {events : List Event} {parser : Parser ι α} {halt : Halt α} :
      Yields setting allowed (.body parser) position halt stop →
      Yields setting allowed (.move (.become events parser)) position halt stop
  | body {position stop : Nat} {parser : Parser ι α} {move : Move ι α} {halt : Halt α} :
      (∀ policy journal, parser.start setting ⟨position, policy, journal⟩ = move) →
      Yields setting allowed (.move move) position halt stop →
      Yields setting allowed (.body parser) position halt stop
  | resumed {position middle stop : Nat} {parser : Parser ι α} {pending : Pending ι α}
      {outcome : Outcome (Symbol α)} {halt : Halt α} :
      Yields setting allowed (.call parser) position (.answered outcome) middle →
      Yields setting allowed (.move (pending.resume outcome)) middle halt stop →
      Yields setting allowed (.move (.call parser pending)) position halt stop
  | answered {position : Nat} {parser : Parser ι α} {outcome : Outcome (Symbol α)} :
      parser.tag ≠ none → allowed parser position outcome →
      Yields setting allowed (.call parser) position (.answered outcome)
        (outcome.landing position)
  | executed {position stop : Nat} {parser : Parser ι α} {result : Result α} :
      parser.tag = none →
      Yields setting allowed (.body parser) position (.replied result) stop →
      (∀ symbol, result = .ok symbol → position ≤ stop) →
      Yields setting allowed (.call parser) position
        (.answered (.ofResult position stop result))
        ((Outcome.ofResult position stop result).landing position)

namespace Yields

variable {setting : Setting ι α} {allowed more : Answering ι α} {position stop : Nat}
  {control : Control ι α} {halt : Halt α}

/-- More outcomes may be allowed. -/
theorem mono (yields : Yields setting allowed control position halt stop)
    (wider : ∀ parser place outcome, allowed parser place outcome → more parser place outcome) :
    Yields setting more control position halt stop := by
  induction yields with
  | reply result => exact .reply result
  | read symbol stop => exact .read symbol stop
  | become _ ih => exact .become ih
  | body starts _ ih => exact .body starts ih
  | resumed _ _ callIh moveIh => exact .resumed callIh moveIh
  | answered tagged allows => exact .answered tagged (wider _ _ _ allows)
  | executed untagged _ forward ih => exact .executed untagged ih forward

/-- An evaluation ends in one way only if the relation allows one outcome only. -/
theorem unique (functional : ∀ parser place outcome other, allowed parser place outcome →
      allowed parser place other → outcome = other)
    (yields : Yields setting allowed control position halt stop) {haltToo : Halt α} {last : Nat}
    (yieldsToo : Yields setting allowed control position haltToo last) :
    halt = haltToo ∧ stop = last := by
  induction yields generalizing haltToo last with
  | reply result =>
      cases yieldsToo
      exact ⟨rfl, rfl⟩
  | read symbol stop =>
      cases yieldsToo
      exact ⟨rfl, rfl⟩
  | become _ ih =>
      cases yieldsToo with
      | become yieldsToo => exact ih yieldsToo
  | body starts _ ih =>
      cases yieldsToo with
      | body startsToo yieldsToo =>
          have same := (starts .identity []).symm.trans (startsToo .identity [])
          rw [← same] at yieldsToo
          exact ih yieldsToo
  | resumed _ _ callIh moveIh =>
      cases yieldsToo with
      | resumed calledToo movedToo =>
          obtain ⟨same, rfl⟩ := callIh calledToo
          cases same
          exact moveIh movedToo
  | answered tagged allows =>
      cases yieldsToo with
      | answered _ allowsToo =>
          rw [functional _ _ _ _ allows allowsToo]
          exact ⟨rfl, rfl⟩
      | executed untagged _ _ => exact absurd untagged tagged
  | executed untagged _ _ ih =>
      cases yieldsToo with
      | answered tagged _ => exact absurd untagged tagged
      | executed _ bodyToo _ =>
          obtain ⟨same, rfl⟩ := ih bodyToo
          cases same
          exact ⟨rfl, rfl⟩

/-- An evaluation uses finitely many outcomes, so a bound on all of them exists. -/
theorem exists_level (levels : Nat → Answering ι α)
    (rising : ∀ {low high}, low ≤ high → ∀ parser place outcome,
      levels low parser place outcome → levels high parser place outcome)
    (yields : Yields setting
      (fun parser place outcome => ∃ level, levels level parser place outcome)
      control position halt stop) :
    ∃ level, Yields setting (levels level) control position halt stop := by
  induction yields with
  | reply result => exact ⟨0, .reply result⟩
  | read symbol stop => exact ⟨0, .read symbol stop⟩
  | become _ ih =>
      obtain ⟨level, yields⟩ := ih
      exact ⟨level, .become yields⟩
  | body starts _ ih =>
      obtain ⟨level, yields⟩ := ih
      exact ⟨level, .body starts yields⟩
  | resumed _ _ callIh moveIh =>
      obtain ⟨level, called⟩ := callIh
      obtain ⟨levelToo, moved⟩ := moveIh
      exact ⟨max level levelToo, .resumed (called.mono (rising (Nat.le_max_left _ _)))
        (moved.mono (rising (Nat.le_max_right _ _)))⟩
  | answered tagged allows =>
      obtain ⟨level, allows⟩ := allows
      exact ⟨level, .answered tagged allows⟩
  | executed untagged _ forward ih =>
      obtain ⟨level, yields⟩ := ih
      exact ⟨level, .executed untagged yields forward⟩

end Yields

/-! ## Calls and bodies -/

namespace Setting

def Answers (setting : Setting ι α) (allowed : Answering ι α) (parser : Parser ι α)
    (position : Nat) (outcome : Outcome (Symbol α)) : Prop :=
  Yields setting allowed (.call parser) position (.answered outcome) (outcome.landing position)

/-- The body of the parser, run from the position, replies with the result at another position. -/
def Replies (setting : Setting ι α) (allowed : Answering ι α) (parser : Parser ι α)
    (position : Nat) (result : Result α) (stop : Nat) : Prop :=
  Yields setting allowed (.body parser) position (.replied result) stop

end Setting

section Vocabulary

variable {setting : Setting ι α} {allowed : Answering ι α} {parser inner : Parser ι α}
  {position stop : Nat} {outcome : Outcome (Symbol α)} {result : Result α} {symbol : Symbol α}
  {mismatch : Mismatch}

/-- A call has an allowed outcome if it is tagged and the outcome of its body otherwise. -/
theorem Yields.of_call {halt : Halt α}
    (yields : Yields setting allowed (.call parser) position halt stop) :
    ∃ outcome, halt = .answered outcome ∧ stop = outcome.landing position ∧
      (parser.tag ≠ none ∧ allowed parser position outcome ∨
        parser.tag = none ∧ ∃ result last, setting.Replies allowed parser position result last ∧
          (∀ symbol, result = .ok symbol → position ≤ last) ∧
          outcome = .ofResult position last result) := by
  cases yields with
  | answered tagged allows => exact ⟨_, rfl, rfl, .inl ⟨tagged, allows⟩⟩
  | executed untagged replies forward =>
      exact ⟨_, rfl, rfl, .inr ⟨untagged, _, _, replies, forward, rfl⟩⟩

/-- A call ends where its outcome says. -/
theorem Yields.call_iff {halt : Halt α} :
    Yields setting allowed (.call parser) position halt stop ↔
      ∃ outcome, halt = .answered outcome ∧ stop = outcome.landing position ∧
        setting.Answers allowed parser position outcome := by
  constructor
  · intro yields
    obtain ⟨outcome, rfl, rfl, -⟩ := yields.of_call
    exact ⟨outcome, rfl, rfl, yields⟩
  · rintro ⟨outcome, rfl, rfl, answers⟩
    exact answers

theorem Yields.move_call_iff {pending : Pending ι α} {halt : Halt α} :
    Yields setting allowed (.move (.call parser pending)) position halt stop ↔
      ∃ outcome, setting.Answers allowed parser position outcome ∧
        Yields setting allowed (.move (pending.resume outcome)) (outcome.landing position) halt
          stop := by
  constructor
  · intro yields
    cases yields with
    | resumed called moved =>
        obtain ⟨_, same, rfl, answers⟩ := call_iff.mp called
        cases same
        exact ⟨_, answers, moved⟩
  · rintro ⟨outcome, answers, moved⟩
    exact .resumed answers moved

theorem Yields.move_reply_iff {halt : Halt α} :
    Yields setting allowed (.move (.reply result)) position halt stop ↔
      halt = .replied result ∧ stop = position := by
  constructor
  · intro yields
    cases yields
    exact ⟨rfl, rfl⟩
  · rintro ⟨rfl, rfl⟩
    exact .reply result

theorem Yields.move_finished_iff {finished : Except Fault (Result α)} :
    Yields setting allowed (.move (.ofFinished finished)) position (.replied result) stop ↔
      finished = .ok result ∧ stop = position := by
  cases finished with
  | error fault =>
      constructor
      · intro yields
        cases yields
      · rintro ⟨same, -⟩
        cases same
  | ok other =>
      rw [Move.ofFinished, move_reply_iff, Halt.replied.injEq, Except.ok.injEq]
      exact and_congr_left fun _ => eq_comm

theorem Yields.body_iff_of_becomes {other : Parser ι α} {events : List Event} {halt : Halt α}
    (becomes : ∀ state, parser.start setting state = .become events other) :
    Yields setting allowed (.body parser) position halt stop ↔
      Yields setting allowed (.body other) position halt stop := by
  constructor
  · intro yields
    cases yields with
    | body starts yields =>
        cases (starts .identity []).symm.trans (becomes _)
        cases yields with
        | become yields => exact yields
  · intro yields
    exact .body (fun _ _ => becomes _) (.become yields)

namespace Setting

/-- A call of a tagged parser has an allowed outcome. -/
theorem answers_tagged_iff (tagged : parser.tag ≠ none) :
    setting.Answers allowed parser position outcome ↔ allowed parser position outcome := by
  constructor
  · intro answers
    obtain ⟨_, same, -, ⟨-, allows⟩ | ⟨untagged, -⟩⟩ := Yields.of_call answers
    · cases same
      exact allows
    · exact absurd untagged tagged
  · exact .answered tagged

/-- A call of an untagged parser has the outcome of its body. -/
theorem answers_untagged_iff (untagged : parser.tag = none) :
    setting.Answers allowed parser position outcome ↔
      ∃ result stop, setting.Replies allowed parser position result stop ∧
        (∀ symbol, result = .ok symbol → position ≤ stop) ∧
        outcome = .ofResult position stop result := by
  constructor
  · intro answers
    obtain ⟨_, same, -, ⟨tagged, -⟩ | ⟨-, executed⟩⟩ := Yields.of_call answers
    · exact absurd untagged tagged
    · cases same
      exact executed
  · rintro ⟨result, stop, replies, forward, rfl⟩
    exact .executed untagged replies forward

theorem answers_ok_iff (untagged : parser.tag = none) {matched : Match (Symbol α)} :
    setting.Answers allowed parser position (.ok matched) ↔
      setting.Replies allowed parser position (.ok matched.symbol) matched.span.stop ∧
        matched.span.start = position ∧ position ≤ matched.span.stop := by
  rw [answers_untagged_iff untagged]
  constructor
  · rintro ⟨result, stop, replies, forward, same⟩
    cases result with
    | error mismatch => cases same
    | ok symbol =>
        cases same
        exact ⟨replies, rfl, forward symbol rfl⟩
  · rintro ⟨replies, rfl, forward⟩
    exact ⟨_, _, replies, fun _ _ => forward, rfl⟩

theorem answers_error_iff (untagged : parser.tag = none) :
    setting.Answers allowed parser position (.error mismatch) ↔
      ∃ stop, setting.Replies allowed parser position (.error mismatch) stop := by
  rw [answers_untagged_iff untagged]
  constructor
  · rintro ⟨result, stop, replies, -, same⟩
    cases result with
    | ok symbol => cases same
    | error other =>
        cases same
        exact ⟨stop, replies⟩
  · rintro ⟨stop, replies⟩
    exact ⟨_, stop, replies, nofun, rfl⟩

theorem replies_iff_of_start (move : Move ι α)
    (starts : ∀ policy journal, parser.start setting ⟨position, policy, journal⟩ = move) :
    setting.Replies allowed parser position result stop ↔
      Yields setting allowed (.move move) position (.replied result) stop := by
  constructor
  · intro replies
    cases replies with
    | body startsToo yields =>
        rw [← (startsToo .identity []).symm.trans (starts .identity [])]
        exact yields
  · exact .body starts

theorem replies_terminal_ok_iff {expectation : String} {probe : Probe ι α} :
    setting.Replies allowed (.terminal expectation probe) position (.ok symbol) stop ↔
      ∃ length, probe setting.input position = .ok (some (symbol, length)) ∧
        position + length ≤ Input.size setting.input ∧ stop = position + length := by
  rw [replies_iff_of_start (Parser.start setting ⟨position, .identity, []⟩
    (.terminal expectation probe)) fun _ _ => rfl]
  cases found : probe setting.input position with
  | error fault =>
      simp only [Parser.start, found, reduceCtorEq, false_and, exists_false, iff_false]
      intro yields
      cases yields
  | ok reading =>
      cases reading with
      | none =>
          simp only [Parser.start, found, Yields.move_reply_iff, Halt.replied.injEq, reduceCtorEq,
            Except.ok.injEq, false_and, exists_false]
      | some pair =>
          obtain ⟨other, length⟩ := pair
          simp only [Parser.start, found, Except.ok.injEq, Option.some.injEq, Prod.mk.injEq]
          constructor
          · intro yields
            split at yields
            · next inside =>
                cases yields
                exact ⟨length, ⟨rfl, rfl⟩, inside, rfl⟩
            · cases yields
          · rintro ⟨_, ⟨rfl, rfl⟩, inside, rfl⟩
            rw [if_pos inside]
            exact .read _ _

theorem replies_terminal_error {expectation : String} {probe : Probe ι α}
    (missed : probe setting.input position = .ok none) :
    setting.Replies allowed (.terminal expectation probe) position
      (.error (.expected none expectation)) position := by
  rw [replies_iff_of_start (Parser.start setting ⟨position, .identity, []⟩
    (.terminal expectation probe)) fun _ _ => rfl]
  simp only [Parser.start, missed]
  exact .reply _

theorem replies_wrap_iff {tag : Option Tag} {kind : Option Kind} {finish : Finish α} :
    setting.Replies allowed (.wrap tag kind inner finish) position result stop ↔
      ∃ outcome, setting.Answers allowed inner position outcome ∧
        finish (outcome.map Match.symbol) = .ok result ∧ stop = outcome.landing position := by
  rw [replies_iff_of_start _ fun _ _ => rfl]
  simp only [Yields.move_call_iff, Pending.resume, Yields.move_finished_iff]

theorem replies_both_ok_iff {first second : Parser ι α}
    {combine : Symbol α → Symbol α → Symbol α} :
    setting.Replies allowed (.both first second combine) position (.ok symbol) stop ↔
      ∃ one two, setting.Answers allowed first position (.ok one) ∧
        setting.Answers allowed second one.span.stop (.ok two) ∧
        symbol = combine one.symbol two.symbol ∧ stop = two.span.stop := by
  rw [replies_iff_of_start _ fun _ _ => rfl, Yields.move_call_iff]
  constructor
  · rintro ⟨outcome, answers, yields⟩
    cases outcome with
    | error mismatch => cases (Yields.move_reply_iff.mp yields).1
    | ok one =>
        obtain ⟨other, answersToo, yields⟩ := Yields.move_call_iff.mp yields
        cases other with
        | error mismatch => cases (Yields.move_reply_iff.mp yields).1
        | ok two =>
            obtain ⟨same, rfl⟩ := Yields.move_reply_iff.mp yields
            cases same
            exact ⟨one, two, answers, answersToo, rfl, rfl⟩
  · rintro ⟨one, two, answers, answersToo, rfl, rfl⟩
    exact ⟨.ok one, answers, Yields.move_call_iff.mpr ⟨.ok two, answersToo, .reply _⟩⟩

theorem replies_both_first {first second : Parser ι α}
    {combine : Symbol α → Symbol α → Symbol α}
    (fails : setting.Answers allowed first position (.error mismatch)) :
    setting.Replies allowed (.both first second combine) position (.error mismatch) position :=
  (replies_iff_of_start (.call first (.first second combine)) fun _ _ => rfl).mpr <|
    .resumed fails (.reply _)

theorem replies_both_second {first second : Parser ι α}
    {combine : Symbol α → Symbol α → Symbol α} {one : Match (Symbol α)}
    (answers : setting.Answers allowed first position (.ok one))
    (fails : setting.Answers allowed second one.span.stop (.error mismatch)) :
    setting.Replies allowed (.both first second combine) position (.error mismatch)
      one.span.stop :=
  (replies_iff_of_start (.call first (.first second combine)) fun _ _ => rfl).mpr <|
    .resumed answers (.resumed fails (.reply _))

theorem replies_recursive_iff {tag : Tag} {body : Parser ι α} :
    setting.Replies allowed (.recursive tag body) position result stop ↔
      ∃ outcome, setting.Answers allowed (Parser.unfold tag body) position outcome ∧
        result = outcome.map Match.symbol ∧ stop = outcome.landing position := by
  rw [replies_iff_of_start _ fun _ _ => rfl]
  simp only [Yields.move_call_iff, Pending.resume, Yields.move_reply_iff,
    Halt.replied.injEq]

theorem replies_handle_iff {tag : Tag} {slot : Nat}
    (resolved : setting.arena.resolve tag slot = .ok parser) :
    setting.Replies allowed (.handle tag slot) position result stop ↔
      setting.Replies allowed parser position result stop := by
  refine Yields.body_iff_of_becomes (fun _ => ?_ : ∀ _, _ = Move.become [] parser)
  simp only [Parser.start, resolved]

theorem yields_alternatives_ok_iff {tag : Option Tag}
    {alternatives rest : List (Parser ι α)} :
    Yields setting allowed (.move (tryAlternatives tag alternatives rest)) position
        (.replied (.ok symbol)) stop ↔
      ∃ before parser after matched, rest = before ++ parser :: after ∧
        (∀ other ∈ before, ∃ mismatch, setting.Answers allowed other position (.error mismatch)) ∧
        setting.Answers allowed parser position (.ok matched) ∧ symbol = matched.symbol ∧
        stop = matched.span.stop := by
  induction rest with
  | nil =>
      simp only [tryAlternatives, Yields.move_reply_iff, Halt.replied.injEq, reduceCtorEq,
        false_and, List.nil_eq, List.append_eq_nil_iff, and_false, exists_false]
  | cons parser rest ih =>
      rw [tryAlternatives, Yields.move_call_iff]
      constructor
      · rintro ⟨outcome, answers, yields⟩
        cases outcome with
        | ok matched =>
            obtain ⟨same, rfl⟩ := Yields.move_reply_iff.mp yields
            cases same
            exact ⟨[], parser, rest, matched, rfl, nofun, answers, rfl, rfl⟩
        | error mismatch =>
            obtain ⟨before, found, after, matched, rfl, fail, rest⟩ := ih.mp yields
            refine ⟨parser :: before, found, after, matched, rfl, fun other member => ?_, rest⟩
            rcases List.mem_cons.mp member with rfl | member
            · exact ⟨mismatch, answers⟩
            · exact fail other member
      · rintro ⟨before, found, after, matched, split, fail, answers, rfl, rfl⟩
        cases before with
        | nil =>
            cases split
            exact ⟨.ok matched, answers, .reply _⟩
        | cons other before =>
            cases split
            obtain ⟨mismatch, fails⟩ := fail parser List.mem_cons_self
            refine ⟨.error mismatch, fails, ih.mpr ⟨before, found, after, matched, rfl, ?_,
              answers, rfl, rfl⟩⟩
            exact fun one member => fail one (List.mem_cons_of_mem _ member)

theorem yields_alternatives_error {tag : Option Tag} {alternatives rest : List (Parser ι α)}
    (fail : ∀ other ∈ rest, ∃ mismatch, setting.Answers allowed other position (.error mismatch)) :
    Yields setting allowed (.move (tryAlternatives tag alternatives rest)) position
      (.replied (.error (choiceMismatch tag alternatives))) position := by
  induction rest with
  | nil => exact .reply _
  | cons parser rest ih =>
      obtain ⟨mismatch, fails⟩ := fail parser List.mem_cons_self
      exact Yields.move_call_iff.mpr ⟨.error mismatch, fails,
        ih fun other member => fail other (List.mem_cons_of_mem _ member)⟩

theorem replies_choice_ok_iff {tag : Option Tag} {alternatives : List (Parser ι α)} :
    setting.Replies allowed (.choice tag alternatives) position (.ok symbol) stop ↔
      ∃ before parser after matched, alternatives = before ++ parser :: after ∧
        (∀ other ∈ before, ∃ mismatch, setting.Answers allowed other position (.error mismatch)) ∧
        setting.Answers allowed parser position (.ok matched) ∧ symbol = matched.symbol ∧
        stop = matched.span.stop :=
  (replies_iff_of_start _ fun _ _ => rfl).trans yields_alternatives_ok_iff

theorem replies_choice_error {tag : Option Tag} {alternatives : List (Parser ι α)}
    (fail : ∀ other ∈ alternatives,
      ∃ mismatch, setting.Answers allowed other position (.error mismatch)) :
    setting.Replies allowed (.choice tag alternatives) position
      (.error (choiceMismatch tag alternatives)) position :=
  (replies_iff_of_start _ fun _ _ => rfl).mpr (yields_alternatives_error fail)

end Setting

end Vocabulary

end Packrat
