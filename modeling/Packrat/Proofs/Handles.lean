import Mathlib.Data.List.Nodup
import Packrat.Proofs.PlainEvaluation
import Packrat.Proofs.PolicyLaws

/-!
# Handles

A declaration issues a handle, which stands for one slot of the arena from then on.  A history
lists what is done with an arena: handles are issued, parsers are offered through them, runs take
place and the arena is dropped, in any order.  `Arena.Takes` says what each of these dealings does
to the arena, and `Arena.HasSeen` relates an arena to its history.

The slots of an arena reflect its history: every issued handle has a slot of its own, and while
the arena lives the slot holds the first parser that was offered through the handle.  Every
dealing keeps this (`Arena.Reflects.takes`), so it holds after every history
(`Arena.HasSeen.reflects`).  `handles_are_written_once` says what follows for defining, resolving
and running handles.
-/

namespace Packrat

variable {τ ι α : Type}

/--
A declared handle: the type of its symbols, the tag that it is called under and its slot.  A copy
of a handle is equal to the handle.
-/
structure Handle (τ : Type) where
  type : τ
  tag : Tag
  slot : Nat
  deriving DecidableEq

def Handle.parser (handle : Handle τ) : Parser ι α := .handle handle.tag handle.slot

/-- Something that is done with an arena. -/
inductive Dealing (τ ι α : Type) where
  | declared (handle : Handle τ)
  /-- A parser is offered through a handle, and refused if there is an error. -/
  | offered (handle : Handle τ) (parser : Parser ι α) (refusal : Option DefinitionError)
  /-- A run, or a part of one, leads from one configuration to another. -/
  | ran (input : ι) (first last : Config ι α)
  | dropped

namespace Dealing

def issue? : Dealing τ ι α → Option (Handle τ)
  | declared handle => some handle
  | _ => none

def offer? [DecidableEq τ] (handle : Handle τ) : Dealing τ ι α → Option (Parser ι α)
  | offered other parser _ => if other = handle then some parser else none
  | _ => none

theorem offer?_of_ne [DecidableEq τ] {handle other : Handle τ} {parser : Parser ι α}
    {refusal : Option DefinitionError} (apart : other ≠ handle) :
    (offered other parser refusal).offer? handle = none :=
  if_neg apart

end Dealing

def issued (history : List (Dealing τ ι α)) : List (Handle τ) := history.filterMap Dealing.issue?

def offers [DecidableEq τ] (handle : Handle τ) (history : List (Dealing τ ι α)) :
    List (Parser ι α) :=
  history.filterMap (Dealing.offer? handle)

/--
What a dealing does to an arena if the given handles were issued before.  Runs only read the
arena.
-/
inductive Arena.Takes [Input ι] (handles : List (Handle τ)) (arena : Arena ι α) :
    Dealing τ ι α → Arena ι α → Prop where
  | declare (type : τ) (tag : Tag) :
      Takes handles arena (.declared ⟨type, tag, arena.declare.1⟩) arena.declare.2
  | define {handle : Handle τ} {parser : Parser ι α} {arenaToo : Arena ι α} :
      handle ∈ handles → arena.define handle.slot parser = .ok arenaToo →
      Takes handles arena (.offered handle parser none) arenaToo
  | refuse {handle : Handle τ} {parser : Parser ι α} {error : DefinitionError} :
      handle ∈ handles → arena.define handle.slot parser = .error error →
      Takes handles arena (.offered handle parser (some error)) arena
  | run {input : ι} {first last : Config ι α} :
      Config.Reaches ⟨input, arena⟩ first last → Takes handles arena (.ran input first last) arena
  | drop : Takes handles arena .dropped arena.drop

/-- The arena has the history; the latest dealing comes first. -/
inductive Arena.HasSeen [Input ι] : Arena ι α → List (Dealing τ ι α) → Prop where
  | nothing : HasSeen .empty []
  | next {arena arenaToo : Arena ι α} {history : List (Dealing τ ι α)} {dealing : Dealing τ ι α} :
      HasSeen arena history → arena.Takes (issued history) dealing arenaToo →
      HasSeen arenaToo (dealing :: history)

namespace Arena

variable {arena arenaToo : Arena ι α} {tag : Tag} {slot : Nat} {parser held : Parser ι α}

theorem define_of_dropped (gone : arena.alive = false) :
    arena.define slot parser = .error .arenaDropped := by
  rw [define, gone]
  rfl

theorem define_of_vacant (lives : arena.alive = true) (vacant : arena.slots[slot]? = some none) :
    arena.define slot parser =
      .ok { arena with slots := arena.slots.setIfInBounds slot (some parser) } := by
  simp only [define, lives, vacant, if_true]

theorem define_of_occupied (lives : arena.alive = true)
    (occupied : arena.slots[slot]? = some (some held)) :
    arena.define slot parser = .error .redefined := by
  simp only [define, lives, occupied, if_true]

theorem eq_of_define (defined : arena.define slot parser = .ok arenaToo) :
    arena.alive = true ∧ arena.slots[slot]? = some none ∧
      arenaToo = { arena with slots := arena.slots.setIfInBounds slot (some parser) } := by
  unfold define at defined
  split at defined
  · next lives =>
      split at defined
      · next vacant =>
          cases defined
          exact ⟨lives, vacant, rfl⟩
      · cases defined
  · cases defined

theorem resolve_of_dropped (gone : arena.alive = false) :
    arena.resolve tag slot =
      .error (.expected (some tag) "a rule whose arena is still alive") := by
  rw [resolve, gone]
  rfl

theorem resolve_of_vacant (lives : arena.alive = true) (vacant : arena.slots[slot]? = some none) :
    arena.resolve tag slot =
      .error (.expected (some tag) "a defined rule (declared but never defined)") := by
  simp only [resolve, lives, vacant, if_true]

theorem resolve_of_occupied (lives : arena.alive = true)
    (occupied : arena.slots[slot]? = some (some held)) : arena.resolve tag slot = .ok held := by
  simp only [resolve, lives, occupied, if_true]

end Arena

/-! ## Slots and histories -/

section Histories

variable {arena arenaToo : Arena ι α} {history : List (Dealing τ ι α)} {dealing : Dealing τ ι α}
  {handle : Handle τ}

theorem mem_issued_cons (member : handle ∈ issued history) (dealing : Dealing τ ι α) :
    handle ∈ issued (dealing :: history) := by
  obtain ⟨one, earlier, issues⟩ := List.mem_filterMap.mp member
  exact List.mem_filterMap.mpr ⟨one, .tail _ earlier, issues⟩

theorem dropped_not_mem_cons (lasting : dealing ≠ .dropped) :
    .dropped ∉ dealing :: history ↔ .dropped ∉ history := by
  rw [List.mem_cons, not_or, and_iff_right lasting.symm]

variable [DecidableEq τ]

theorem offers_cons (handle : Handle τ) (dealing : Dealing τ ι α)
    (history : List (Dealing τ ι α)) :
    offers handle (dealing :: history) =
      (dealing.offer? handle).toList ++ offers handle history := by
  unfold offers
  rw [List.filterMap_cons]
  cases dealing.offer? handle <;> rfl

theorem getLast?_offers_cons
    (settled : dealing.offer? handle = none ∨ offers handle history ≠ []) :
    (offers handle (dealing :: history)).getLast? = (offers handle history).getLast? := by
  rw [offers_cons, List.getLast?_append]
  rcases settled with unoffered | offered
  · rw [unoffered, Option.toList_none, List.getLast?_nil, Option.or_none]
  · rw [List.getLast?_eq_some_getLast offered, Option.some_or]

namespace Arena

/-- The slots of an arena are as its history says. -/
structure Reflects (arena : Arena ι α) (history : List (Dealing τ ι α)) : Prop where
  inside : ∀ handle ∈ issued history, handle.slot < arena.slots.size
  apart : ((issued history).map Handle.slot).Nodup
  through : ∀ handle parser refusal, .offered handle parser refusal ∈ history →
    handle ∈ issued history
  alive : arena.alive = true ↔ .dropped ∉ history
  holds : .dropped ∉ history → ∀ handle ∈ issued history,
    arena.slots[handle.slot]? = some (offers handle history).getLast?

namespace Reflects

theorem nothing : (empty : Arena ι α).Reflects ([] : List (Dealing τ ι α)) where
  inside := nofun
  apart := .nil
  through := nofun
  alive := ⟨fun _ => nofun, fun _ => rfl⟩
  holds _ := nofun

/-- Issued handles with one slot are one handle. -/
theorem eq_of_slot (reflects : arena.Reflects history) {other : Handle τ}
    (issuedToo : other ∈ issued history) (member : handle ∈ issued history)
    (same : other.slot = handle.slot) : other = handle :=
  List.inj_on_of_nodup_map reflects.apart issuedToo member same

theorem offers_of_unissued (reflects : arena.Reflects history)
    (unissued : handle ∉ issued history) : offers handle history = [] := by
  refine List.filterMap_eq_nil_iff.mpr fun dealing member => ?_
  cases dealing with
  | offered other parser refusal =>
      refine if_neg fun same => unissued ?_
      rw [← same]
      exact reflects.through other parser refusal member
  | _ => rfl

theorem through_cons (reflects : arena.Reflects history)
    (latest : ∀ handle parser refusal, dealing = .offered handle parser refusal →
      handle ∈ issued history) (handle : Handle τ) (parser : Parser ι α)
    (refusal : Option DefinitionError)
    (member : .offered handle parser refusal ∈ dealing :: history) :
    handle ∈ issued (dealing :: history) := by
  rcases List.mem_cons.mp member with same | member
  · exact mem_issued_cons (latest handle parser refusal same.symm) dealing
  · exact mem_issued_cons (reflects.through handle parser refusal member) dealing

/-- A declaration issues a vacant slot that no other handle has. -/
theorem declare (reflects : arena.Reflects history) (fresh : handle.slot = arena.slots.size) :
    arena.declare.2.Reflects (.declared handle :: history) := by
  have beyond {one : Handle τ} (member : one ∈ issued history) : one.slot ≠ handle.slot :=
    fresh ▸ Nat.ne_of_lt (reflects.inside one member)
  have lasting : Dealing.declared handle ≠ (.dropped : Dealing τ ι α) := nofun
  refine ⟨fun one member => ?_, ?_, reflects.through_cons nofun,
    reflects.alive.trans (dropped_not_mem_cons lasting).symm, fun lives one member => ?_⟩
  · rw [show arena.declare.2.slots.size = arena.slots.size + 1 from Array.size_push _]
    rcases List.mem_cons.mp member with rfl | member
    · exact Nat.lt_succ_of_le (Nat.le_of_eq fresh)
    · exact Nat.lt_succ_of_lt (reflects.inside one member)
  · refine List.nodup_cons.mpr ⟨fun member => ?_, reflects.apart⟩
    obtain ⟨one, member, same⟩ := List.mem_map.mp member
    exact beyond member same
  · rw [getLast?_offers_cons (.inl rfl)]
    change (arena.slots.push none)[one.slot]? = _
    rcases List.mem_cons.mp member with rfl | member
    · rw [reflects.offers_of_unissued fun member => beyond member rfl, fresh]
      exact Array.getElem?_push_size
    · rw [Array.getElem?_push, if_neg (fresh ▸ beyond member)]
      exact reflects.holds ((dropped_not_mem_cons lasting).mp lives) one member

/-- An offer that is accepted fills the slot of its handle and no other slot. -/
theorem define (reflects : arena.Reflects history) (member : handle ∈ issued history)
    {parser : Parser ι α} (defined : arena.define handle.slot parser = .ok arenaToo) :
    arenaToo.Reflects (.offered handle parser none :: history) := by
  obtain ⟨lives, vacant, rfl⟩ := eq_of_define defined
  have lasting : Dealing.offered handle parser none ≠ .dropped := nofun
  refine ⟨fun one memberToo => ?_, reflects.apart, reflects.through_cons ?_,
    reflects.alive.trans (dropped_not_mem_cons lasting).symm, fun lives one memberToo => ?_⟩
  · rw [Array.size_setIfInBounds]
    exact reflects.inside one memberToo
  · rintro one other refusal ⟨⟩
    exact member
  · have before := reflects.holds ((dropped_not_mem_cons lasting).mp lives) one memberToo
    rw [Array.getElem?_setIfInBounds]
    by_cases same : handle = one
    · subst same
      have first : offers handle history = [] :=
        List.getLast?_eq_none_iff.mp (Option.some.inj (before.symm.trans vacant))
      rw [if_pos rfl, if_pos (reflects.inside handle memberToo), offers_cons, first,
        Dealing.offer?, if_pos rfl]
      rfl
    -- The slot of another handle is another slot, and the offer is none of its own.
    · have apart : handle.slot ≠ one.slot := fun shared =>
        same (reflects.eq_of_slot member memberToo shared)
      rw [if_neg apart, getLast?_offers_cons (.inl (Dealing.offer?_of_ne same))]
      exact before

theorem offered_of_refused (reflects : arena.Reflects history) (lives : .dropped ∉ history)
    (member : handle ∈ issued history) {parser : Parser ι α} {error : DefinitionError}
    (refused : arena.define handle.slot parser = .error error) : offers handle history ≠ [] := by
  intro unoffered
  have vacant := reflects.holds lives handle member
  rw [unoffered] at vacant
  rw [define_of_vacant (reflects.alive.mpr lives) vacant] at refused
  cases refused

theorem unchanged (reflects : arena.Reflects history) (unissuing : dealing.issue? = none)
    (lasting : dealing ≠ .dropped)
    (through : ∀ handle parser refusal, dealing = .offered handle parser refusal →
      handle ∈ issued history)
    (settled : .dropped ∉ history → ∀ handle ∈ issued history,
      dealing.offer? handle = none ∨ offers handle history ≠ []) :
    arena.Reflects (dealing :: history) := by
  have same : issued (dealing :: history) = issued history := List.filterMap_cons_none unissuing
  refine ⟨?_, ?_, reflects.through_cons through,
    reflects.alive.trans (dropped_not_mem_cons lasting).symm, ?_⟩
  · rw [same]
    exact reflects.inside
  · rw [same]
    exact reflects.apart
  · intro lives one member
    rw [same] at member
    rw [dropped_not_mem_cons lasting] at lives
    rw [getLast?_offers_cons (settled lives one member)]
    exact reflects.holds lives one member

theorem drop (reflects : arena.Reflects history) : arena.drop.Reflects (.dropped :: history) where
  inside := reflects.inside
  apart := reflects.apart
  through := reflects.through_cons nofun
  alive := ⟨nofun, fun lives => absurd List.mem_cons_self lives⟩
  holds lives := absurd List.mem_cons_self lives

/-- Every dealing keeps the slots as the history says. -/
theorem takes [Input ι] (reflects : arena.Reflects history)
    (takes : arena.Takes (issued history) dealing arenaToo) :
    arenaToo.Reflects (dealing :: history) := by
  cases takes with
  | declare type tag => exact reflects.declare rfl
  | define member defined => exact reflects.define member defined
  | @refuse handle parser error member refused =>
      refine reflects.unchanged rfl nofun ?_ fun lives one _ => ?_
      · rintro one other refusal ⟨⟩
        exact member
      -- What a living arena refuses comes too late to be the first offer.
      · by_cases same : handle = one
        · exact .inr (same ▸ reflects.offered_of_refused lives member refused)
        · exact .inl (Dealing.offer?_of_ne same)
  | run _ => exact reflects.unchanged rfl nofun nofun fun _ _ _ => .inl rfl
  | drop => exact reflects.drop

/-- A handle of a living arena finds the first parser that was offered through it. -/
theorem resolve_eq (reflects : arena.Reflects history) (lives : .dropped ∉ history)
    (member : handle ∈ issued history) :
    arena.resolve handle.tag handle.slot =
      (offers handle history).getLast?.elim
        (.error (.expected (some handle.tag) "a defined rule (declared but never defined)"))
        .ok := by
  have content := reflects.holds lives handle member
  cases first : (offers handle history).getLast? with
  | none =>
      rw [first] at content
      exact resolve_of_vacant (reflects.alive.mpr lives) content
  | some parser =>
      rw [first] at content
      exact resolve_of_occupied (reflects.alive.mpr lives) content

theorem resolve_eq_ok (reflects : arena.Reflects history) (lives : .dropped ∉ history)
    (member : handle ∈ issued history) {parser : Parser ι α}
    (first : (offers handle history).getLast? = some parser) :
    arena.resolve handle.tag handle.slot = .ok parser := by
  rw [reflects.resolve_eq lives member, first]
  rfl

/-- After the first offer every other one is refused. -/
theorem define_redefined (reflects : arena.Reflects history) (lives : .dropped ∉ history)
    (member : handle ∈ issued history) {parser : Parser ι α}
    (first : (offers handle history).getLast? = some parser) (other : Parser ι α) :
    arena.define handle.slot other = .error .redefined := by
  have occupied := reflects.holds lives handle member
  rw [first] at occupied
  exact define_of_occupied (reflects.alive.mpr lives) occupied

/-- The first offer is accepted, and the handle finds what was offered. -/
theorem define_accepted (reflects : arena.Reflects history) (lives : .dropped ∉ history)
    (member : handle ∈ issued history) (unoffered : offers handle history = [])
    (parser : Parser ι α) :
    ∃ arenaToo, arena.define handle.slot parser = .ok arenaToo ∧
      arenaToo.resolve handle.tag handle.slot = .ok parser := by
  have vacant := reflects.holds lives handle member
  rw [unoffered] at vacant
  have defined : arena.define handle.slot parser = .ok _ :=
    define_of_vacant (reflects.alive.mpr lives) vacant
  have lasting : Dealing.offered handle parser none ≠ .dropped := nofun
  have first : (offers handle (.offered handle parser none :: history)).getLast? =
      some parser := by
    rw [offers_cons, unoffered, Dealing.offer?, if_pos rfl]
    rfl
  exact ⟨_, defined, (reflects.define member defined).resolve_eq_ok
    ((dropped_not_mem_cons lasting).mpr lives) member first⟩

theorem alive_eq_false (reflects : arena.Reflects history) (gone : .dropped ∈ history) :
    arena.alive = false :=
  Bool.eq_false_iff.mpr fun lives => reflects.alive.mp lives gone

/-- What a handle finds changes only with its first offer and with the end of the arena. -/
theorem resolve_kept [Input ι] (reflects : arena.Reflects history)
    (takes : arena.Takes (issued history) dealing arenaToo) (lasting : dealing ≠ .dropped)
    (member : handle ∈ issued history)
    (settled : dealing.offer? handle = none ∨ offers handle history ≠ []) :
    arenaToo.resolve handle.tag handle.slot = arena.resolve handle.tag handle.slot := by
  have reflectsToo := reflects.takes takes
  by_cases gone : .dropped ∈ history
  · rw [resolve_of_dropped (reflectsToo.alive_eq_false (.tail _ gone)),
      resolve_of_dropped (reflects.alive_eq_false gone)]
  · rw [reflectsToo.resolve_eq ((dropped_not_mem_cons lasting).mpr gone)
        (mem_issued_cons member dealing),
      reflects.resolve_eq gone member, getLast?_offers_cons settled]

end Reflects

/-- The slots of an arena are as its history says, whatever the history is. -/
theorem HasSeen.reflects [Input ι] (seen : arena.HasSeen history) : arena.Reflects history := by
  induction seen with
  | nothing => exact .nothing
  | next _ takes ih => exact ih.takes takes

end Arena

end Histories

/-! ## Running handles -/

namespace Policy

variable {policy : Policy α} {call : Call}

/-- Nothing is remembered and no call is active; failures may have been traced. -/
structure IsEmpty (policy : Policy α) : Prop where
  unremembered : policy.Remembers fun memo => ∀ key, memo.find? key = none
  idle : policy.Limits fun limiter => ∀ key, limiter.depth key = 0

theorem Fresh.isEmpty (fresh : policy.Fresh) : policy.IsEmpty where
  unremembered := remembers_of_fresh Memoizer.find?_empty fresh
  idle := limits_of_fresh DepthLimiter.depth_empty fresh

theorem leave_of_unremembered
    (unremembered : policy.Remembers fun memo => ∀ key, memo.find? key = none)
    (made : Outcome (Sealed α)) : (policy.leave call made).outcome = made := by
  induction policy generalizing made with
  | identity => rfl
  | recorder name => rfl
  | tracer state => cases made <;> rfl
  | depthLimiter state =>
      rw [leave]
      split <;> rfl
  | memoizer memo =>
      rw [leave]
      split
      · rfl
      · next key _ => simp only [unremembered key, Memoizer.stores, Option.all_none, if_true]
  | chain outer inner outerIh innerIh =>
      change (outer.leave call (inner.leave call made).outcome).outcome = made
      rw [outerIh unremembered.1, innerIh unremembered.2]

theorem IsEmpty.passes (empty : policy.IsEmpty) (call : Call) :
    (policy.enter call).answer = none ∧
      ∀ made, ((policy.enter call).policy.leave call made).outcome = made := by
  have granted : policy.Limits fun limiter => ∀ key, call.key? = some key →
      limiter.refuses key call.remaining = true → False := by
    refine empty.idle.imp fun limiter idle key _ refuses => ?_
    rw [DepthLimiter.refuses, idle key, decide_eq_true_eq] at refuses
    exact Nat.not_lt_zero _ refuses
  -- No outcome fits, so there is none that the memo tables or the limits could answer with.
  obtain ⟨unremembered, unanswered⟩ :=
    enter_remembers (fun _ => False)
      (fun {memo key outcome} (unknown : ∀ key, memo.find? key = none) _ found => by
        rw [unknown key] at found
        cases found)
      (fun _ _ => False.elim) empty.unremembered granted
  exact ⟨Option.eq_none_iff_forall_ne_some.mpr unanswered, leave_of_unremembered unremembered⟩

end Policy

section Runs

variable [Input ι] {setting : Setting ι α} {handle : Handle τ}

/--
On an engine whose policies are empty, a run of the handle fails with the mismatch and leaves the
cursor where it is.
-/
def Setting.Rejects (setting : Setting ι α) (handle : Handle τ) (mismatch : Mismatch) : Prop :=
  ∀ state : State α, state.policy.IsEmpty → ∃ steps final,
    setting.run steps handle.parser state = .done (.error mismatch) final ∧
      final.cursor = state.cursor

theorem Setting.rejects_of_resolve {mismatch : Mismatch}
    (unresolved : setting.arena.resolve handle.tag handle.slot = .error mismatch) :
    setting.Rejects handle mismatch := by
  intro state empty
  let called : Parser ι α := handle.parser
  let call := callAt setting.input state.cursor called
  let entered := setting.entered called state
  let made : Outcome (Sealed α) := .error mismatch
  obtain ⟨unanswered, returns⟩ := empty.passes call
  have replies : Ends setting (.body called) entered (.replied (.error mismatch)) entered := by
    refine .body ?_
    simp only [called, Handle.parser, Parser.start, unresolved]
    exact .reply _ _
  have sealed : sealResult call called.kind entered.cursor (.error mismatch) = .ok made := rfl
  obtain ⟨steps, done⟩ := Setting.runMatch_eq_done_iff.mpr (.executed unanswered replies sealed)
  rw [conclude_sealed sealed (returns _)] at done
  exact ⟨steps, _, congrArg (Run.map · _) done, rfl⟩

/-- The body of a handle does what the body of its parser does, two steps later. -/
theorem Setting.runBody_handle {parser : Parser ι α}
    (resolved : setting.arena.resolve handle.tag handle.slot = .ok parser) (steps : Nat)
    (state : State α) :
    setting.runBody (steps + 2) handle.parser state = setting.runBody steps parser state := by
  have becomes : (handle.parser : Parser ι α).start setting state = .become [] parser := by
    simp only [Handle.parser, Parser.start, resolved]
  have same : Config.run setting (steps + 2) ⟨.body handle.parser, [], state⟩ =
      Config.run setting steps ⟨.body parser, [], state⟩ := by
    change Config.run setting (steps + 1) ⟨.move (handle.parser.start setting state), [], state⟩ = _
    rw [becomes]
    rfl
  rw [runBody, same, runBody]

end Runs

section Handles

variable [DecidableEq τ] [Input ι] {arena : Arena ι α} {history : List (Dealing τ ι α)}

/--
Whatever is done with an arena, every issued handle has a slot of its own, and all that was
offered to this slot was offered through the handle, so that it has the type of the handle.  While
the arena lives, the parser of a handle is the first that was offered through it, and another one
is refused; before the first offer a run of the handle is a mismatch.  When the arena is dropped,
runs of all its handles are mismatches and all offers are refused.  What a handle finds changes
with the first offer through it and with the end of the arena, and with nothing else.
-/
theorem handles_are_written_once (seen : arena.HasSeen history) :
    ((issued history).map Handle.slot).Nodup ∧
    ∀ handle ∈ issued history,
      (∀ other parser refusal, .offered other parser refusal ∈ history →
        other.slot = handle.slot → other = handle) ∧
      (.dropped ∉ history →
        (∀ parser, (offers handle history).getLast? = some parser →
          arena.resolve handle.tag handle.slot = .ok parser ∧
          (∀ input steps state, Setting.runBody ⟨input, arena⟩ (steps + 2) handle.parser state =
            Setting.runBody ⟨input, arena⟩ steps parser state) ∧
          ∀ other, arena.define handle.slot other = .error .redefined) ∧
        (offers handle history = [] →
          (∀ parser, ∃ arenaToo, arena.define handle.slot parser = .ok arenaToo ∧
            arenaToo.resolve handle.tag handle.slot = .ok parser) ∧
          ∀ input, Setting.Rejects ⟨input, arena⟩ handle
            (.expected (some handle.tag) "a defined rule (declared but never defined)"))) ∧
      (.dropped ∈ history →
        (∀ parser, arena.define handle.slot parser = .error .arenaDropped) ∧
        ∀ input, Setting.Rejects ⟨input, arena⟩ handle
          (.expected (some handle.tag) "a rule whose arena is still alive")) ∧
      ∀ dealing arenaToo, arena.Takes (issued history) dealing arenaToo → dealing ≠ .dropped →
        dealing.offer? handle = none ∨ offers handle history ≠ [] →
        arenaToo.resolve handle.tag handle.slot = arena.resolve handle.tag handle.slot := by
  have reflects := seen.reflects
  refine ⟨reflects.apart, fun handle member => ⟨?_, fun lives => ⟨?_, ?_⟩, fun gone => ?_, ?_⟩⟩
  · intro other parser refusal offered
    exact reflects.eq_of_slot (reflects.through other parser refusal offered) member
  · intro parser first
    have resolved := reflects.resolve_eq_ok lives member first
    exact ⟨resolved, fun input => Setting.runBody_handle resolved,
      reflects.define_redefined lives member first⟩
  · intro unoffered
    have unresolved := reflects.resolve_eq lives member
    rw [unoffered] at unresolved
    exact ⟨reflects.define_accepted lives member unoffered,
      fun input => Setting.rejects_of_resolve unresolved⟩
  · have dead := reflects.alive_eq_false gone
    exact ⟨fun parser => Arena.define_of_dropped dead,
      fun input => Setting.rejects_of_resolve (Arena.resolve_of_dropped dead)⟩
  · intro dealing arenaToo takes lasting
    exact reflects.resolve_kept takes lasting member

end Handles

section Values

def textValue : Handle Kind := ⟨.text, ⟨"value"⟩, 0⟩

def generalValue : Handle Kind := ⟨.general, ⟨"value"⟩, 1⟩

/-- The second handle is defined by the first, which has no definition, and offered another one. -/
def valueHistory : List (Dealing Kind (Array Char) Unit) :=
  [.offered generalValue .empty (some .redefined), .offered generalValue textValue.parser none,
    .declared generalValue, .declared textValue]

/-- An arena with both handles, before and after it is dropped. -/
theorem handles_are_written_once_values :
    ∃ arena : Arena (Array Char) Unit, arena.HasSeen valueHistory ∧
      arena.resolve ⟨"value"⟩ 1 = .ok textValue.parser ∧
      arena.define 1 .empty = .error .redefined ∧
      (∃ steps final, Setting.run ⟨#['a'], arena⟩ steps textValue.parser (.initial .standard) =
          .done (.error (.expected (some ⟨"value"⟩)
            "a defined rule (declared but never defined)")) final ∧
        final.cursor = 0) ∧
      arena.drop.HasSeen (.dropped :: valueHistory) ∧
      arena.drop.define 1 .empty = .error .arenaDropped ∧
      ∃ steps final, Setting.run ⟨#['a'], arena.drop⟩ steps generalValue.parser
          (.initial .standard) =
          .done (.error (.expected (some ⟨"value"⟩) "a rule whose arena is still alive")) final ∧
        final.cursor = 0 := by
  let declared : Arena (Array Char) Unit := Arena.empty.declare.2.declare.2
  have issuing : declared.HasSeen [.declared generalValue, .declared textValue] :=
    .next (.next .nothing (.declare Kind.text ⟨"value"⟩)) (.declare Kind.general ⟨"value"⟩)
  have defining : declared.Takes [generalValue, textValue]
      (.offered generalValue textValue.parser none) ⟨#[none, some textValue.parser], true⟩ :=
    .define List.mem_cons_self rfl
  have seen : Arena.HasSeen _ valueHistory :=
    (issuing.next defining).next (.refuse List.mem_cons_self rfl)
  have seenToo := seen.next .drop
  have lives : .dropped ∉ valueHistory := by simp [valueHistory]
  have first : (offers generalValue valueHistory).getLast? = some textValue.parser := rfl
  have unoffered : offers textValue valueHistory = [] := rfl
  have empty : (State.initial .standard : State Unit).policy.IsEmpty :=
    Policy.standard_fresh.isEmpty
  obtain ⟨-, handles⟩ := handles_are_written_once seen
  obtain ⟨-, handlesToo⟩ := handles_are_written_once seenToo
  obtain ⟨-, defined, -⟩ := handles generalValue List.mem_cons_self
  obtain ⟨-, undefined, -⟩ := handles textValue (.tail _ List.mem_cons_self)
  obtain ⟨-, -, dropped, -⟩ := handlesToo generalValue List.mem_cons_self
  obtain ⟨resolved, -, refused⟩ := (defined lives).1 _ first
  obtain ⟨-, rejects⟩ := (undefined lives).2 unoffered
  obtain ⟨refusedToo, rejectsToo⟩ := dropped List.mem_cons_self
  exact ⟨_, seen, resolved, refused _, rejects _ _ empty, seenToo, refusedToo _,
    rejectsToo _ _ empty⟩

end Values

end Packrat
