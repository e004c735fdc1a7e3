import Packrat.Proofs.Reading
import Packrat.Proofs.SettledCalls

/-!
# What earlier runs leave behind

Where all runs call keys that settle, it does not matter what was run on a standard engine
before: a run ends as it does on a fresh engine.  This covers every grammar that is left
recursive in single rules only.

Rules that are left recursive through one another need not settle, and for them it does
matter.  While one of them is refused, the others run and remember what the refusal has led
them to, and this stays in the memo table.
-/

namespace Packrat

variable {ι α : Type} [Input ι]

/-- A call is answered on the ground of what the keys settle on. -/
def Setting.SettlesOn (setting : Setting ι α) (names : Tag → Parser ι α) (parser : Parser ι α)
    (position : Nat) (outcome : Outcome (Symbol α)) : Prop :=
  setting.Answers (.named names (setting.Settles names)) parser position outcome

/-- The policies that a sequence of such runs leaves behind on a standard engine. -/
inductive LeftSettled (setting : Setting ι α) (names : Tag → Parser ι α) : Policy α → Prop where
  | fresh : LeftSettled setting names .standard
  | run {parser : Parser ι α} {state final : State α} {steps : Nat}
      {expected outcome : Outcome (Symbol α)} :
      LeftSettled setting names state.policy →
      setting.SettlesOn names parser state.cursor expected →
      setting.runMatch steps parser state = .done outcome final →
      LeftSettled setting names final.policy

/-- A standard chain under which whatever settles is served. -/
def Policy.Serving (setting : Setting ι α) (names : Tag → Parser ι α) (policy : Policy α) : Prop :=
  ∃ limiter memo, policy.IsStandard limiter memo ∧ limiter.Idle (setting.Settles names) ∧
    memo.Follows names (setting.Settles names)

section Runs

variable {setting : Setting ι α} {names : Tag → Parser ι α} {parser : Parser ι α}
  {state : State α} {outcome : Outcome (Symbol α)}

theorem Policy.standard_serving : (standard : Policy α).Serving setting names :=
  ⟨.empty, .empty, ⟨.empty, rfl⟩, fun key _ _ => DepthLimiter.depth_empty key,
    Memoizer.follows_empty⟩

/-- Such a call is performed under a serving chain, and the chain serves again afterwards. -/
theorem Setting.SettlesOn.ends (settles : setting.SettlesOn names parser state.cursor outcome)
    (serving : state.policy.Serving setting names) :
    ∃ final, Ends setting (.call parser) state (.answered outcome) final ∧
      final.cursor = outcome.landing state.cursor ∧ final.policy.Serving setting names := by
  obtain ⟨limiter, memo, standard, idle, follows⟩ := serving
  let ready (limiter : DepthLimiter) (memo : Memoizer α) : Prop :=
    limiter.Idle (setting.Settles names) ∧ memo.Follows names (setting.Settles names)
  have functional (key : Key) (one two : Outcome (Symbol α)) (first : setting.Settles names key one)
      (second : setting.Settles names key two) : one = two := first.unique second
  have keeps {limiter limiterToo : DepthLimiter} {memo memoToo : Memoizer α}
      (prepared : ready limiter memo) (same : ∀ key, limiterToo.depth key = limiter.depth key)
      (gains : memo.Gains names (setting.Settles names) memoToo) : ready limiterToo memoToo :=
    ⟨fun key made given => by rw [same, prepared.1 key made given],
      prepared.2.gains functional gains⟩
  obtain ⟨memoToo, ⟨final, limiterToo, ends, stops, standardToo, gains⟩, -⟩ :=
    Yields.performs (fun _ _ _ => True) ⟨0, ⟨""⟩⟩ keeps
      (fun {_ _ _ _ _ _} ⟨tag, tagged, named, settles⟩ here standard ⟨idle, follows⟩ => by
        obtain ⟨memoToo, performs⟩ :=
          setting.settles_serves names settles tagged named here standard idle follows
        exact ⟨memoToo, performs, fun _ => trivial⟩)
      settles rfl standard ⟨idle, follows⟩
  have kept := keeps ⟨idle, follows⟩ (standard.depth_eq standardToo ends.balances) gains
  exact ⟨final, ends, stops, limiterToo, memoToo, standardToo, kept.1, kept.2⟩

/-- Such a call ends on a fresh engine. -/
theorem Setting.SettlesOn.ends_fresh {position : Nat}
    (settles : setting.SettlesOn names parser position outcome) : ∃ final,
    Ends setting (.call parser) ⟨position, .standard, []⟩ (.answered outcome) final := by
  let fresh : State α := ⟨position, .standard, []⟩
  have here : setting.SettlesOn names parser fresh.cursor outcome := settles
  obtain ⟨final, ends, -⟩ := here.ends Policy.standard_serving
  exact ⟨final, ends⟩

/-- A call of a rule that settles has the outcome that it settles on. -/
theorem Setting.SettlesOk.settlesOn {tag : Tag} {position stop : Nat} {symbol : Symbol α}
    (settles : setting.SettlesOk names tag position symbol stop) (tagged : parser.tag = some tag)
    (named : parser.core = names tag) :
    setting.SettlesOn names parser position (.ok ⟨symbol, ⟨position, stop⟩⟩) :=
  (Matches.of_given tagged named settles.1 settles.2).1

theorem Setting.SettlesOn.runs {position : Nat} {policy : Policy α}
    (settles : setting.SettlesOn names parser position outcome)
    (serving : policy.Serving setting names) (journal : List Event) :
    ∃ steps final, setting.runMatch steps parser ⟨position, policy, journal⟩ =
      .done outcome final ∧ final.cursor = outcome.landing position := by
  let state : State α := ⟨position, policy, journal⟩
  have here : setting.SettlesOn names parser state.cursor outcome := settles
  have ready : state.policy.Serving setting names := serving
  obtain ⟨final, ends, stops, -⟩ := here.ends ready
  obtain ⟨steps, done⟩ := Setting.runMatch_eq_done_iff.mpr ends
  exact ⟨steps, final, done, stops⟩

theorem LeftSettled.serving {policy : Policy α} (left : LeftSettled setting names policy) :
    policy.Serving setting names := by
  induction left with
  | fresh => exact Policy.standard_serving
  | run _ settles done ih =>
      obtain ⟨final, ends, -, serving⟩ := settles.ends ih
      have endsToo := Setting.runMatch_eq_done_iff.mp ⟨_, done⟩
      rw [(endsToo.unique ends).2]
      exact serving

end Runs

/-! ## Rules that are left recursive through one another -/

section Detours

/-- A rule that tries a detour first and then matches nothing. -/
def outward : Parser Text Unit := .handle ⟨"outward"⟩ 0

/-- A detour back to the rule. -/
def detour : Parser Text Unit := .handle ⟨"detour"⟩ 1

def detours : Setting Text Unit :=
  ⟨.ofString "", .ofParsers [.oneOf [detour, .empty], .deferred outward]⟩

def detourNames (tag : Tag) : Parser Text Unit := if tag = ⟨"outward"⟩ then outward else detour

def atStart (name : String) : Key := ⟨0, ⟨name⟩⟩

def refusedAtStart (name : String) : Outcome (Symbol Unit) :=
  .error (DepthLimiter.refusal ⟨0, some ⟨name⟩, 0⟩)

def nothingAtStart : Outcome (Symbol Unit) := .ok ⟨.unit, ⟨0, 0⟩⟩

variable {state middle : State Unit} {limiter : DepthLimiter} {memo : Memoizer Unit}

/-- The body of the detour ends as the call of the rule does. -/
theorem detour_body {outcome : Outcome (Symbol Unit)}
    (called : Ends detours (.call outward) state (.answered outcome) middle) :
    Ends detours (.body detour) state (.replied (outcome.map Match.symbol)) middle :=
  .body (.become (.body (.resumed called (.reply _ _))))

/-- The body of the rule matches nothing if the detour fails. -/
theorem outward_body {mismatch : Mismatch}
    (called : Ends detours (.call detour) state (.answered (.error mismatch)) middle)
    (here : middle.cursor = 0) (standard : middle.policy.IsStandard limiter memo) :
    ∃ final limiterToo memoToo, Ends detours (.body outward) state (.replied (.ok .unit)) final ∧
      final.cursor = 0 ∧ final.policy.IsStandard limiterToo memoToo ∧
      ∀ key, memoToo.find? key = memo.find? key := by
  have nothing : Yields detours (fun _ _ _ => False) (.body .empty) 0 (.replied (.ok .unit)) 0 :=
    .body (fun _ _ => rfl) (.reply _)
  have matched : detours.Answers (fun _ _ _ => False) .empty 0 nothingAtStart :=
    .executed rfl nothing fun _ _ => Nat.le_refl 0
  have rest : Yields detours (fun _ _ _ => False)
      (.move (tryAlternatives none [detour, .empty] [.empty])) 0 (.replied (.ok .unit)) 0 :=
    .resumed matched (.reply _)
  obtain ⟨memoToo, final, limiterToo, ends, stops, standardToo, gains⟩ :
      ∃ memoToo, detours.Performs detourNames (fun _ _ => False) _ middle memo _ 0 memoToo :=
    (rest.performs (fun _ _ _ => True) (atStart "outward") (fun _ _ _ => trivial)
      (fun given => given.elim) here standard trivial).imp fun _ => And.left
  exact ⟨final, limiterToo, memoToo, .body (.become (.body (.resumed called ends))), stops,
    standardToo, fun key => gains.find?_eq fun _ given => given⟩

/--
While the rule is active and cannot be called again, the detour fails, and what it remembers is
the refusal.
-/
theorem detour_refused (here : state.cursor = 0) (standard : state.policy.IsStandard limiter memo)
    (active : limiter.depth (atStart "outward") = 1) (idle : limiter.depth (atStart "detour") = 0)
    (missing : memo.find? (atStart "detour") = none) :
    ∃ final limiterToo memoToo,
      Ends detours (.call detour) state (.answered (refusedAtStart "outward")) final ∧
      final.cursor = 0 ∧ final.policy.IsStandard limiterToo memoToo ∧
      memoToo.find? (atStart "detour") = some ((refusedAtStart "outward").sealedAs .general) ∧
      ∀ other, other ≠ atStart "detour" → memoToo.find? other = memo.find? other := by
  obtain ⟨unanswered, entered⟩ :=
    entered_open detours detour (atStart "detour") rfl here standard (Nat.le_of_eq idle) missing
  have beyond : 0 < (limiter.opened (atStart "detour")).depth (atStart "outward") := by
    rw [DepthLimiter.depth_opened, active]
    exact Nat.succ_pos _
  obtain ⟨middle, limiterMid, refused, stops, standardMid, -⟩ :
      detours.Performs detourNames (fun _ _ => False) (.call outward)
        (detours.entered detour state) memo (.answered (refusedAtStart "outward")) 0 memo :=
    performs_refused (atStart "outward") rfl here entered beyond
  obtain ⟨final, limiterToo, memoToo, rest⟩ := (detour_body refused).of_executed
    (atStart "detour") nothingAtStart rfl (show detour.core = detourNames ⟨"detour"⟩ from rfl) here
    unanswered nofun standardMid (.inl ⟨missing, rfl⟩)
  exact ⟨final, limiterToo, memoToo, rest⟩

/-- While the detour is active and cannot be called again, the rule matches nothing. -/
theorem outward_matches (here : state.cursor = 0) (standard : state.policy.IsStandard limiter memo)
    (active : limiter.depth (atStart "detour") = 1) (idle : limiter.depth (atStart "outward") = 0)
    (missing : memo.find? (atStart "outward") = none) :
    ∃ final limiterToo memoToo,
      Ends detours (.call outward) state (.answered nothingAtStart) final ∧
      final.cursor = 0 ∧ final.policy.IsStandard limiterToo memoToo ∧
      memoToo.find? (atStart "outward") = some (nothingAtStart.sealedAs .general) ∧
      ∀ other, other ≠ atStart "outward" → memoToo.find? other = memo.find? other := by
  obtain ⟨unanswered, entered⟩ :=
    entered_open detours outward (atStart "outward") rfl here standard (Nat.le_of_eq idle) missing
  have beyond : 0 < (limiter.opened (atStart "outward")).depth (atStart "detour") := by
    rw [DepthLimiter.depth_opened, active]
    exact Nat.succ_pos _
  obtain ⟨middle, limiterMid, refused, stops, standardMid, -⟩ :
      detours.Performs detourNames (fun _ _ => False) (.call detour)
        (detours.entered outward state) memo (.answered (refusedAtStart "detour")) 0 memo :=
    performs_refused (atStart "detour") rfl here entered beyond
  obtain ⟨last, limiterLast, memoLast, ran, lands, standardLast, same⟩ :=
    outward_body refused stops standardMid
  obtain ⟨final, limiterToo, memoToo, ends, stops, standardToo, stored, kept⟩ :=
    ran.of_executed (atStart "outward") nothingAtStart rfl
      (show outward.core = detourNames ⟨"outward"⟩ from rfl) here unanswered
      (fun _ _ => Nat.zero_le _) standardLast (.inl ⟨(same _).trans missing, by rw [lands]⟩)
  exact ⟨final, limiterToo, memoToo, ends, stops, standardToo, stored, fun other different =>
    (kept other different).trans (same other)⟩

theorem standard_initial : (State.initial .standard : State Unit).policy.IsStandard .empty .empty :=
  ⟨.empty, rfl⟩

theorem granted_initial (name : String) : DepthLimiter.empty.depth (atStart name) ≤ 0 :=
  Nat.le_of_eq (DepthLimiter.depth_empty _)

theorem opened_initial (name : String) :
    (DepthLimiter.empty.opened (atStart name)).depth (atStart name) = 1 := by
  rw [DepthLimiter.depth_opened, if_pos rfl, DepthLimiter.depth_empty]

theorem detour_ends :
    ∃ final, Ends detours (.call detour) (.initial .standard) (.answered nothingAtStart) final := by
  obtain ⟨unanswered, entered⟩ := entered_open detours detour (atStart "detour") rfl rfl
    standard_initial (granted_initial "detour") (Memoizer.find?_empty _)
  have idle : (DepthLimiter.empty.opened (atStart "detour")).depth (atStart "outward") = 0 := by
    rw [DepthLimiter.depth_opened, DepthLimiter.depth_empty]
    rfl
  obtain ⟨middle, limiter, memo, called, stops, standard, -, kept⟩ :=
    outward_matches rfl entered (opened_initial "detour") idle (Memoizer.find?_empty _)
  have missing : memo.find? (atStart "detour") = none :=
    (kept _ (by decide)).trans (Memoizer.find?_empty _)
  obtain ⟨final, -, -, ends, -⟩ := (detour_body called).of_executed
    (atStart "detour") nothingAtStart rfl (show detour.core = detourNames ⟨"detour"⟩ from rfl) rfl
    unanswered (fun _ _ => Nat.zero_le _) standard (.inl ⟨missing, by rw [stops]⟩)
  exact ⟨final, ends⟩

theorem outward_ends : ∃ after limiter memo,
    Ends detours (.call outward) (.initial .standard) (.answered nothingAtStart) after ∧
    after.cursor = 0 ∧ after.policy.IsStandard limiter memo ∧
    memo.find? (atStart "detour") =
      some ((refusedAtStart "outward").sealedAs (detourNames ⟨"detour"⟩).kind) := by
  obtain ⟨unanswered, entered⟩ := entered_open detours outward (atStart "outward") rfl rfl
    standard_initial (granted_initial "outward") (Memoizer.find?_empty _)
  have idle : (DepthLimiter.empty.opened (atStart "outward")).depth (atStart "detour") = 0 := by
    rw [DepthLimiter.depth_opened, DepthLimiter.depth_empty]
    rfl
  obtain ⟨middle, limiter, memo, called, stops, standard, stored, kept⟩ :=
    detour_refused rfl entered (opened_initial "outward") idle (Memoizer.find?_empty _)
  obtain ⟨last, limiterLast, memoLast, ran, lands, standardLast, same⟩ :=
    outward_body called stops standard
  have missing : memoLast.find? (atStart "outward") = none :=
    (same _).trans ((kept _ (by decide)).trans (Memoizer.find?_empty _))
  obtain ⟨after, limiterToo, memoToo, ends, here, standardToo, -, keptToo⟩ := ran.of_executed
    (atStart "outward") nothingAtStart rfl (show outward.core = detourNames ⟨"outward"⟩ from rfl)
    rfl unanswered (fun _ _ => Nat.zero_le _) standardLast (.inl ⟨missing, by rw [lands]⟩)
  exact ⟨after, limiterToo, memoToo, ends, here, standardToo,
    (keptToo _ (by decide)).trans ((same _).trans stored)⟩

/--
Run on a fresh engine, the detour matches nothing.  After a run of the rule that has matched
nothing itself, the detour is answered with the refusal of a call that was active then.
-/
theorem runMatch_stale :
    (∃ steps final, detours.runMatch steps detour (.initial .standard) =
      .done (.ok ⟨.unit, ⟨0, 0⟩⟩) final) ∧
    ∃ steps middle, detours.runMatch steps outward (.initial .standard) =
        .done (.ok ⟨.unit, ⟨0, 0⟩⟩) middle ∧ middle.cursor = 0 ∧
      ∃ stepsToo final, detours.runMatch stepsToo detour middle =
        .done (.error (DepthLimiter.refusal ⟨0, some ⟨"outward"⟩, 0⟩)) final := by
  constructor
  · obtain ⟨final, ends⟩ := detour_ends
    obtain ⟨steps, done⟩ := Setting.runMatch_eq_done_iff.mpr ends
    exact ⟨steps, final, done⟩
  · obtain ⟨after, limiter, memo, ends, here, standard, found⟩ := outward_ends
    -- What the detour has remembered is still there, and it is not active any more.
    have inactive : limiter.depth (atStart "detour") ≤ 0 := by
      rw [standard_initial.depth_eq standard ends.balances]
      exact granted_initial "detour"
    obtain ⟨final, -, answered, -⟩ :
        detours.Performs detourNames (fun _ _ => False) (.call detour) after memo
          (.answered (refusedAtStart "outward")) 0 memo :=
      performs_remembered rfl (show detour.core = detourNames ⟨"detour"⟩ from rfl) here standard
        inactive found
    obtain ⟨steps, done⟩ := Setting.runMatch_eq_done_iff.mpr ends
    obtain ⟨stepsToo, doneToo⟩ := Setting.runMatch_eq_done_iff.mpr answered
    exact ⟨steps, after, done, here, stepsToo, final, doneToo⟩

end Detours

end Packrat
