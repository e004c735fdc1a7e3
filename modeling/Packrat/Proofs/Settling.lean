import Packrat.Proofs.RelativeEvaluation
import Packrat.Proofs.SeedGrowing
import Packrat.Proofs.Transparency

/-!
# Settling

A rule settles at a position if growing its seed there needs no other rule than those that
have settled themselves.  Only the rule itself may be left recursive: it may call itself at
the position, but no rule that it calls there may come back to it.  What a rule settles on
is determined without any policies, and on a standard engine every call of the rule is
answered with it, whatever was run on the engine before.

The heights bound how deep settlings are nested.  A rule that is active on the engine does
not settle below the height at which it does, so that the rules it needs never meet it.
-/

namespace Packrat

variable {ι α : Type}

theorem settle_sealedAs (call : Call) (kind : Kind) (outcome : Outcome (Symbol α))
    (state : State α) :
    settle call kind (outcome.sealedAs kind) state =
      (outcome, state.moveTo (outcome.landing call.position)) := by
  cases outcome with
  | error mismatch => rfl
  | ok matched =>
      change (if kind = kind then _ else _) = _
      rw [if_pos rfl]
      rfl

theorem sealResult_ofResult {call : Call} {kind : Kind} {stop : Nat} {result : Result α}
    (forward : ∀ symbol, result = .ok symbol → call.position ≤ stop) :
    sealResult call kind stop result =
      .ok ((Outcome.ofResult call.position stop result).sealedAs kind) := by
  cases result with
  | error mismatch => rfl
  | ok symbol =>
      rw [sealResult, Span.between, if_pos (forward symbol rfl)]
      rfl

theorem forward_of_sealResult {call : Call} {kind : Kind} {stop : Nat} {result : Result α}
    {outcome : Outcome (Sealed α)} (sealed : sealResult call kind stop result = .ok outcome) :
    ∀ symbol, result = .ok symbol → call.position ≤ stop := by
  rintro symbol rfl
  by_contra backward
  rw [sealResult, Span.between, if_neg backward] at sealed
  cases sealed

/-! ## Settling -/

/-- The calls of tagged parsers whose tags name them, where an outcome is given for the key. -/
def Answering.named (names : Tag → Parser ι α) (given : Key → Outcome (Symbol α) → Prop) :
    Answering ι α :=
  fun parser position outcome =>
    ∃ tag, parser.tag = some tag ∧ parser.core = names tag ∧ given ⟨position, tag⟩ outcome

/-- One key has an answer, and the others have what is given for them. -/
def answeredWith (key : Key) (answer : Outcome (Symbol α))
    (others : Key → Outcome (Symbol α) → Prop) (other : Key) (outcome : Outcome (Symbol α)) :
    Prop :=
  if other = key then outcome = answer else others other outcome

def unansweredAt (key : Key) (others : Key → Outcome (Symbol α) → Prop) (other : Key)
    (outcome : Outcome (Symbol α)) : Prop :=
  other ≠ key ∧ others other outcome

variable [Input ι]

def Key.call (input : ι) (key : Key) : Call :=
  ⟨key.position, some key.tag, Input.remaining input key.position⟩

namespace Setting

/-- What the body that a key names makes, where the calls of the keys have given outcomes. -/
def Round (setting : Setting ι α) (names : Tag → Parser ι α)
    (given : Key → Outcome (Symbol α) → Prop) (key : Key) (made : Outcome (Symbol α)) : Prop :=
  ∃ result stop, setting.Replies (.named names given) (names key.tag) key.position result stop ∧
    (∀ symbol, result = .ok symbol → key.position ≤ stop) ∧
    made = .ofResult key.position stop result

/--
The seed of a key after some rounds of growing.  In the first round the calls of the key are
refused, and in every other round they are answered with the seed.
-/
inductive Grows (setting : Setting ι α) (names : Tag → Parser ι α)
    (others : Key → Outcome (Symbol α) → Prop) (key : Key) : Nat → Outcome (Symbol α) → Prop where
  | first {made : Outcome (Symbol α)} :
      setting.Round names
        (answeredWith key (.error (DepthLimiter.refusal (key.call setting.input))) others) key
        made →
      Grows setting names others key 0 made
  | next {rounds : Nat} {current made : Outcome (Symbol α)} :
      Grows setting names others key rounds current →
      setting.Round names (answeredWith key current others) key made →
      Grows setting names others key (rounds + 1) (current.grow made)

def SettlesWithin (setting : Setting ι α) (names : Tag → Parser ι α) :
    Nat → Key → Outcome (Symbol α) → Prop
  | 0 => fun _ _ => False
  | height + 1 => fun key =>
      setting.Grows names (setting.SettlesWithin names height) key
        (Input.remaining setting.input key.position)

def Settles (setting : Setting ι α) (names : Tag → Parser ι α) (key : Key)
    (outcome : Outcome (Symbol α)) : Prop :=
  ∃ height, setting.SettlesWithin names height key outcome

section Monotone

variable {setting : Setting ι α} {names : Tag → Parser ι α}
  {given more others : Key → Outcome (Symbol α) → Prop} {key : Key} {made : Outcome (Symbol α)}

theorem Round.mono (round : setting.Round names given key made)
    (wider : ∀ other outcome, given other outcome → more other outcome) :
    setting.Round names more key made := by
  obtain ⟨result, stop, replies, forward, same⟩ := round
  refine ⟨result, stop, Yields.mono replies ?_, forward, same⟩
  rintro parser place outcome ⟨tag, tagged, named, allowed⟩
  exact ⟨tag, tagged, named, wider _ _ allowed⟩

omit [Input ι] in
theorem answeredWith_mono {answer : Outcome (Symbol α)}
    (wider : ∀ other outcome, given other outcome → more other outcome) (other : Key)
    (outcome : Outcome (Symbol α)) (answered : answeredWith key answer given other outcome) :
    answeredWith key answer more other outcome := by
  unfold answeredWith at answered ⊢
  split
  · next same => rwa [if_pos same] at answered
  · next different =>
      rw [if_neg different] at answered
      exact wider other outcome answered

theorem Grows.mono {rounds : Nat} {seed : Outcome (Symbol α)}
    (grows : setting.Grows names given key rounds seed)
    (wider : ∀ other outcome, given other outcome → more other outcome) :
    setting.Grows names more key rounds seed := by
  induction grows with
  | first round => exact .first (round.mono (answeredWith_mono wider))
  | next _ round ih => exact .next ih (round.mono (answeredWith_mono wider))

theorem SettlesWithin.mono {low high : Nat} (le : low ≤ high) (key : Key)
    (outcome : Outcome (Symbol α)) (settles : setting.SettlesWithin names low key outcome) :
    setting.SettlesWithin names high key outcome := by
  induction low generalizing high key outcome with
  | zero => exact settles.elim
  | succ low ih =>
      cases high with
      | zero => cases le
      | succ high =>
          exact Grows.mono settles fun other made => ih (Nat.le_of_succ_le_succ le) other made

end Monotone

section Unique

variable {setting : Setting ι α} {names : Tag → Parser ι α}
  {given others : Key → Outcome (Symbol α) → Prop} {key : Key}

theorem Round.unique
    (functional : ∀ other one two, given other one → given other two → one = two)
    {made madeToo : Outcome (Symbol α)} (round : setting.Round names given key made)
    (roundToo : setting.Round names given key madeToo) : made = madeToo := by
  obtain ⟨result, stop, replies, -, rfl⟩ := round
  obtain ⟨resultToo, stopToo, repliesToo, -, rfl⟩ := roundToo
  have allowedOnce : ∀ parser place one two, Answering.named names given parser place one →
      Answering.named names given parser place two → one = two := by
    rintro parser place one two ⟨tag, tagged, -, first⟩ ⟨tagToo, taggedToo, -, second⟩
    cases tagged.symm.trans taggedToo
    exact functional _ _ _ first second
  obtain ⟨same, rfl⟩ := Yields.unique allowedOnce replies repliesToo
  cases same
  rfl

omit [Input ι] in
theorem answeredWith_unique
    (functional : ∀ other one two, others other one → others other two → one = two)
    (answer : Outcome (Symbol α)) (other : Key) (one two : Outcome (Symbol α))
    (first : answeredWith key answer others other one)
    (second : answeredWith key answer others other two) : one = two := by
  unfold answeredWith at first second
  split at first
  · next same =>
      rw [if_pos same] at second
      rw [first, second]
  · next different =>
      rw [if_neg different] at second
      exact functional _ _ _ first second

theorem Grows.unique
    (functional : ∀ other one two, others other one → others other two → one = two)
    {rounds : Nat} {seed seedToo : Outcome (Symbol α)}
    (grows : setting.Grows names others key rounds seed)
    (growsToo : setting.Grows names others key rounds seedToo) : seed = seedToo := by
  induction grows generalizing seedToo with
  | first round =>
      cases growsToo with
      | first roundToo => exact round.unique (answeredWith_unique functional _) roundToo
  | next _ round ih =>
      cases growsToo with
      | next growsToo roundToo =>
          cases ih growsToo
          rw [round.unique (answeredWith_unique functional _) roundToo]

theorem SettlesWithin.unique {height : Nat} (key : Key) (one two : Outcome (Symbol α))
    (settles : setting.SettlesWithin names height key one)
    (settlesToo : setting.SettlesWithin names height key two) : one = two := by
  induction height generalizing key one two with
  | zero => exact settles.elim
  | succ height ih => exact Grows.unique ih settles settlesToo

theorem Settles.unique {one two : Outcome (Symbol α)} (settles : setting.Settles names key one)
    (settlesToo : setting.Settles names key two) : one = two := by
  obtain ⟨height, settles⟩ := settles
  obtain ⟨heightToo, settlesToo⟩ := settlesToo
  exact SettlesWithin.unique key one two
    (settles.mono (Nat.le_max_left _ _)) (settlesToo.mono (Nat.le_max_right _ _))

/-- If the body never asks for the key, then growing ends at once. -/
theorem Grows.eq_of_unasked
    (functional : ∀ other one two, others other one → others other two → one = two)
    {rounds : Nat} {seed made : Outcome (Symbol α)}
    (grows : setting.Grows names others key rounds seed)
    (unasked : setting.Round names (unansweredAt key others) key made) : seed = made := by
  have always (answer : Outcome (Symbol α)) :
      setting.Round names (answeredWith key answer others) key made := by
    refine unasked.mono fun other outcome given => ?_
    rw [answeredWith, if_neg given.1]
    exact given.2
  induction grows with
  | first round => exact round.unique (answeredWith_unique functional _) (always _)
  | next _ round ih =>
      rw [ih, round.unique (answeredWith_unique functional _) (always _), Outcome.grow_self]

end Unique

section Building

variable {setting : Setting ι α} {names : Tag → Parser ι α}
  {others : Key → Outcome (Symbol α) → Prop} {key : Key} {seed made : Outcome (Symbol α)}

/-- A round uses finitely many outcomes, so a bound on all of them exists. -/
theorem Round.exists_level {answer : Outcome (Symbol α)}
    {levels : Nat → Key → Outcome (Symbol α) → Prop}
    (rising : ∀ {low high}, low ≤ high → ∀ other outcome, levels low other outcome →
      levels high other outcome)
    (round : setting.Round names
      (answeredWith key answer fun other outcome => ∃ level, levels level other outcome) key made) :
    ∃ level, setting.Round names (answeredWith key answer (levels level)) key made := by
  obtain ⟨result, stop, replies, forward, same⟩ := round
  obtain ⟨level, replies⟩ := Yields.exists_level
    (fun level => .named names (answeredWith key answer (levels level)))
    (fun le parser place outcome ⟨tag, tagged, named, given⟩ =>
      ⟨tag, tagged, named, answeredWith_mono (rising le) _ _ given⟩)
    (Yields.mono replies fun parser place outcome ⟨tag, tagged, named, given⟩ => by
      unfold answeredWith at given
      split at given
      · next equal => exact ⟨0, tag, tagged, named, by rw [answeredWith, if_pos equal, given]⟩
      · next different =>
          obtain ⟨level, given⟩ := given
          exact ⟨level, tag, tagged, named, by rwa [answeredWith, if_neg different]⟩)
  exact ⟨level, result, stop, replies, forward, same⟩

theorem Grows.exists_level {levels : Nat → Key → Outcome (Symbol α) → Prop}
    (rising : ∀ {low high}, low ≤ high → ∀ other outcome, levels low other outcome →
      levels high other outcome) {rounds : Nat}
    (grows : setting.Grows names (fun other outcome => ∃ level, levels level other outcome) key
      rounds seed) :
    ∃ level, setting.Grows names (levels level) key rounds seed := by
  induction grows with
  | first round =>
      obtain ⟨level, round⟩ := round.exists_level rising
      exact ⟨level, .first round⟩
  | next _ round ih =>
      obtain ⟨level, grows⟩ := ih
      obtain ⟨levelToo, round⟩ := round.exists_level rising
      exact ⟨max level levelToo, .next (grows.mono (rising (Nat.le_max_left _ _)))
        (round.mono (answeredWith_mono (rising (Nat.le_max_right _ _))))⟩

/-- A key settles on its seed after as many rounds as elements are left. -/
theorem Settles.of_grows (grows : setting.Grows names (setting.Settles names) key
    (Input.remaining setting.input key.position) seed) : setting.Settles names key seed := by
  obtain ⟨height, grows⟩ := grows.exists_level SettlesWithin.mono
  exact ⟨height + 1, grows⟩

/-- After a round that does not grow the seed no further round does. -/
theorem Grows.add {rounds : Nat} (grows : setting.Grows names others key rounds seed)
    (round : setting.Round names (answeredWith key seed others) key made)
    (stable : seed.grow made = seed) (extra : Nat) :
    setting.Grows names others key (rounds + extra) seed := by
  induction extra with
  | zero => exact grows
  | succ extra ih =>
      have next := Grows.next ih round
      rwa [stable] at next

/-- A key that its own body does not ask for settles on what the body makes. -/
theorem Settles.of_unasked
    (round : setting.Round names (unansweredAt key (setting.Settles names)) key made) :
    setting.Settles names key made := by
  have always (answer : Outcome (Symbol α)) :
      setting.Round names (answeredWith key answer (setting.Settles names)) key made := by
    refine round.mono fun other outcome given => ?_
    rw [answeredWith, if_neg given.1]
    exact given.2
  have grows := (Grows.first (always _)).add (always made) made.grow_self
    (Input.remaining setting.input key.position)
  rw [Nat.zero_add] at grows
  exact .of_grows grows

end Building

end Setting

end Packrat
