import Packrat.Machine
import Packrat.Parser.OverTokens

/-!
# Composed parsers

A parser is composed of terminals, finishing steps, tags and recorded events.  `Composed`
says that all of them are admitted, however deep they lie, and that no body inspects the
policies.  Being composed is preserved by the vocabulary, when a recursive parser is
unfolded, when a parser is renamed, and by everything that a body does.
-/

namespace Packrat

variable {ι α : Type}

/-- A finishing step that breaks no rule at all. -/
def Finish.Total (complete : Finish α) : Prop :=
  ∀ result, ∃ finished, complete result = .ok finished

/-- A finishing step that breaks no rule and does not look at the mismatch. -/
structure Finish.Blind (complete : Finish α) : Prop where
  total : Finish.Total complete
  blind : (∀ mismatch, ∃ other, complete (.error mismatch) = .ok (.error other)) ∨
    ∃ symbol, ∀ mismatch, complete (.error mismatch) = .ok (.ok symbol)

namespace Finish.Blind

theorem of_fails {change : Result α → Result α}
    (fails : ∀ mismatch, ∃ other, change (.error mismatch) = .error other) :
    Finish.Blind fun result => .ok (change result) where
  total _ := ⟨_, rfl⟩
  blind := .inl fun mismatch => by
    obtain ⟨other, fails⟩ := fails mismatch
    exact ⟨other, by rw [fails]⟩

theorem onSymbol (f : Symbol α → Symbol α) : Finish.Blind (Parser.onSymbol f) :=
  of_fails fun mismatch => ⟨mismatch, rfl⟩

theorem onMismatch (f : Mismatch → Mismatch) : Finish.Blind (Parser.onMismatch f : Finish α) :=
  of_fails fun mismatch => ⟨f mismatch, rfl⟩

theorem keep : Finish.Blind (.ok : Finish α) :=
  of_fails fun mismatch => ⟨mismatch, rfl⟩

end Finish.Blind

def Event.IsCounted (event : Event) : Prop := ∃ counter, event = .executed counter

/-- What the pieces of a parser may be. -/
structure Pieces (ι α : Type) where
  terminal : String → Probe ι α → Prop
  finish : Finish α → Prop
  tag : Tag → Prop
  event : Event → Prop

structure Pieces.Within (one other : Pieces ι α) : Prop where
  terminal : ∀ {expectation probe}, one.terminal expectation probe →
    other.terminal expectation probe
  finish : ∀ {finish}, one.finish finish → other.finish finish
  tag : ∀ {tag}, one.tag tag → other.tag tag
  event : ∀ {event}, one.event event → other.event event

namespace Parser

/-- All pieces of a parser are admitted, and no body inspects the policies. -/
inductive Composed (pieces : Pieces ι α) : Parser ι α → Prop where
  | terminal {expectation : String} {probe : Probe ι α} :
      pieces.terminal expectation probe → Composed pieces (.terminal expectation probe)
  | answer (look : Nat → Result α) : Composed pieces (.answer look)
  | wrap {tag : Option Tag} {kind : Option Kind} {inner : Parser ι α} {finish : Finish α} :
      (∀ name ∈ tag, pieces.tag name) → Composed pieces inner → pieces.finish finish →
      Composed pieces (.wrap tag kind inner finish)
  | both {first second : Parser ι α} (combine : Symbol α → Symbol α → Symbol α) :
      Composed pieces first → Composed pieces second →
      Composed pieces (.both first second combine)
  | andThen {first : Parser ι α} {next : Symbol α → Parser ι α} :
      Composed pieces first → (∀ symbol, Composed pieces (next symbol)) →
      Composed pieces (.andThen first next)
  | repetition {tag : Option Tag} {item : Parser ι α} (limit : CountLimit) :
      (∀ name ∈ tag, pieces.tag name) → Composed pieces item →
      Composed pieces (.repetition tag item limit)
  | separated {tag : Option Tag} {item separator : Parser ι α} :
      (∀ name ∈ tag, pieces.tag name) → Composed pieces item → Composed pieces separator →
      Composed pieces (.separated tag item separator)
  | choice {tag : Option Tag} {alternatives : List (Parser ι α)} :
      (∀ name ∈ tag, pieces.tag name) → (∀ parser ∈ alternatives, Composed pieces parser) →
      Composed pieces (.choice tag alternatives)
  | retag {tag : Tag} {inner : Parser ι α} :
      pieces.tag tag → Composed pieces inner → Composed pieces (.retag tag inner)
  | recording {events : List Event} {inner : Parser ι α} :
      (∀ event ∈ events, pieces.event event) → Composed pieces inner →
      Composed pieces (.recording events inner)
  | recursive {tag : Tag} {body : Parser ι α} :
      pieces.tag tag → Composed pieces body → Composed pieces (.recursive tag body)
  | self (depth : Nat) : Composed pieces (.self depth)
  | handle {tag : Tag} (slot : Nat) : pieces.tag tag → Composed pieces (.handle tag slot)

theorem replaceSelfAll_eq_map (replacement : Parser ι α) (depth : Nat)
    (parsers : List (Parser ι α)) :
    replaceSelfAll replacement depth parsers = parsers.map (replaceSelf replacement depth) := by
  induction parsers with
  | nil => rfl
  | cons parser rest ih => rw [replaceSelfAll, ih, List.map_cons]

namespace Composed

variable {pieces other : Pieces ι α}

/-- What is composed of some pieces is composed of more pieces. -/
theorem mono (within : pieces.Within other) {parser : Parser ι α}
    (composed : Composed pieces parser) : Composed other parser := by
  induction composed with
  | terminal admitted => exact .terminal (within.terminal admitted)
  | answer look => exact .answer look
  | wrap named _ admitted ih =>
      exact .wrap (fun name given => within.tag (named name given)) ih (within.finish admitted)
  | both combine _ _ firstIh secondIh => exact .both combine firstIh secondIh
  | andThen _ _ firstIh nextIh => exact .andThen firstIh nextIh
  | repetition limit named _ ih =>
      exact .repetition limit (fun name given => within.tag (named name given)) ih
  | separated named _ _ itemIh separatorIh =>
      exact .separated (fun name given => within.tag (named name given)) itemIh separatorIh
  | choice named _ ih => exact .choice (fun name given => within.tag (named name given)) ih
  | retag admitted _ ih => exact .retag (within.tag admitted) ih
  | recording recorded _ ih =>
      exact .recording (fun event member => within.event (recorded event member)) ih
  | recursive admitted _ ih => exact .recursive (within.tag admitted) ih
  | self depth => exact .self depth
  | handle slot admitted => exact .handle slot (within.tag admitted)

theorem replaceSelf {replacement parser : Parser ι α} (composed : Composed pieces replacement)
    (body : Composed pieces parser) (depth : Nat) :
    Composed pieces (Parser.replaceSelf replacement depth parser) := by
  induction body generalizing depth with
  | terminal admitted => exact .terminal admitted
  | answer look => exact .answer look
  | wrap named _ admitted ih => exact .wrap named (ih depth) admitted
  | both combine _ _ firstIh secondIh => exact .both combine (firstIh depth) (secondIh depth)
  | andThen _ _ firstIh nextIh =>
      exact .andThen (firstIh depth) fun symbol => nextIh symbol depth
  | repetition limit named _ ih => exact .repetition limit named (ih depth)
  | separated named _ _ itemIh separatorIh =>
      exact .separated named (itemIh depth) (separatorIh depth)
  | choice named _ ih =>
      rw [Parser.replaceSelf, replaceSelfAll_eq_map]
      refine .choice named ?_
      intro parser member
      obtain ⟨alternative, memberToo, rfl⟩ := List.mem_map.mp member
      exact ih alternative memberToo depth
  | retag admitted _ ih => exact .retag admitted (ih depth)
  | recording recorded _ ih => exact .recording recorded (ih depth)
  | recursive admitted _ ih => exact .recursive admitted (ih (depth + 1))
  | self level =>
      rw [Parser.replaceSelf]
      split
      · exact composed
      · exact .self level
  | handle slot admitted => exact .handle slot admitted

theorem unfold {tag : Tag} {body : Parser ι α}
    (composed : Composed pieces (.recursive tag body)) :
    Composed pieces (Parser.unfold tag body) := by
  cases composed with
  | recursive admitted inner => exact replaceSelf (.recursive admitted inner) inner 0

theorem renamed {tag : Tag} (admitted : pieces.tag tag) {parser : Parser ι α}
    (composed : Composed pieces parser) : Composed pieces (parser.renamed tag) := by
  induction composed with
  | recursive _ body _ => exact .recursive admitted body
  | retag _ _ ih => exact ih
  | terminal given => exact .terminal given
  | answer look => exact .answer look
  | wrap named inner given _ => exact .wrap named inner given
  | both combine first second _ _ => exact .both combine first second
  | andThen first next _ _ => exact .andThen first next
  | repetition limit named item _ => exact .repetition limit named item
  | separated named item separator _ _ => exact .separated named item separator
  | choice named alternatives _ => exact .choice named alternatives
  | recording recorded inner _ => exact .recording recorded inner
  | self depth => exact .self depth
  | handle slot given => exact .handle slot given

theorem ignoreThen {first second : Parser ι α} (composed : Composed pieces first)
    (composedToo : Composed pieces second) : Composed pieces (first.ignoreThen second) :=
  .both _ composed composedToo

/-! The vocabulary composes parsers from composed ones where all blind steps are admitted. -/

section Vocabulary

variable (admits : ∀ {complete : Finish α}, complete.Blind → pieces.finish complete)
  {parser : Parser ι α} (composed : Composed pieces parser)

include admits composed

theorem mapTo (kind : Kind) (f : Symbol α → Symbol α) :
    Composed pieces (parser.mapTo kind f) :=
  .wrap nofun composed (admits (.onSymbol f))

theorem map (f : Symbol α → Symbol α) : Composed pieces (parser.map f) :=
  composed.mapTo admits .general f

theorem tryMap (f : Symbol α → Result α) : Composed pieces (parser.tryMap f) :=
  .wrap nofun composed (admits (.of_fails fun mismatch => ⟨mismatch, rfl⟩))

theorem mapError (f : Mismatch → Mismatch) : Composed pieces (parser.mapError f) :=
  .wrap nofun composed (admits (.onMismatch f))

theorem labelled {tag : Tag} (admitted : pieces.tag tag) :
    Composed pieces (parser.labelled tag) := by
  refine .wrap (fun name given => ?_) composed (admits (.onMismatch _))
  cases given
  exact admitted

theorem rule {tag : Tag} (admitted : pieces.tag tag) : Composed pieces (parser.rule tag) := by
  refine .wrap (fun name given => ?_) composed (admits .keep)
  cases given
  exact admitted

theorem deferred : Composed pieces parser.deferred :=
  .wrap nofun composed (admits .keep)

theorem maybe : Composed pieces parser.maybe := by
  refine .wrap nofun composed (admits ⟨fun result => ?_, .inr ⟨.absent, fun _ => rfl⟩⟩)
  cases result with
  | error mismatch => exact ⟨_, rfl⟩
  | ok symbol => exact ⟨_, rfl⟩

theorem skip : Composed pieces parser.skip :=
  .wrap nofun composed (admits ⟨fun _ => ⟨_, rfl⟩, .inr ⟨.unit, fun _ => rfl⟩⟩)

end Vocabulary

end Composed

end Parser

def Arena.Composed (pieces : Pieces ι α) (arena : Arena ι α) : Prop :=
  ∀ (slot : Nat) (parser : Parser ι α), arena.slots[slot]? = some (some parser) →
    parser.Composed pieces

theorem Arena.Composed.mono {pieces other : Pieces ι α} {arena : Arena ι α}
    (composed : arena.Composed pieces) (within : pieces.Within other) : arena.Composed other :=
  fun slot parser held => (composed slot parser held).mono within

theorem Arena.empty_composed (pieces : Pieces ι α) : (empty : Arena ι α).Composed pieces := by
  intro slot parser held
  cases held

theorem Arena.held_of_resolve {arena : Arena ι α} {tag : Tag} {slot : Nat}
    {parser : Parser ι α} (resolved : arena.resolve tag slot = .ok parser) :
    arena.slots[slot]? = some (some parser) := by
  unfold resolve at resolved
  split at resolved
  · split at resolved
    · next held =>
        cases resolved
        exact held
    · cases resolved
  · cases resolved

theorem Arena.Composed.resolve {pieces : Pieces ι α} {arena : Arena ι α}
    (composed : arena.Composed pieces) {tag : Tag} {slot : Nat} {parser : Parser ι α}
    (resolved : arena.resolve tag slot = .ok parser) : parser.Composed pieces :=
  composed slot parser (held_of_resolve resolved)

theorem Arena.mem_of_held {parsers : List (Parser ι α)} {slot : Nat} {parser : Parser ι α}
    (held : (ofParsers parsers).slots[slot]? = some (some parser)) : parser ∈ parsers := by
  have member := Array.mem_of_getElem? held
  rw [ofParsers, List.mem_toArray, List.mem_map] at member
  obtain ⟨one, member, same⟩ := member
  cases same
  exact member

theorem Arena.ofParsers_composed {pieces : Pieces ι α} {parsers : List (Parser ι α)}
    (all : ∀ parser ∈ parsers, parser.Composed pieces) : (ofParsers parsers).Composed pieces :=
  fun _ parser held => all parser (mem_of_held held)

/-! ## What bodies do -/

def Pending.Over (within : Parser ι α → Prop) (finishing : Finish α → Prop) :
    Pending ι α → Prop
  | .finish complete => finishing complete
  | .first other _ => within other
  | .second _ _ => True
  | .choosing next => ∀ symbol, within (next symbol)
  | .passing => True
  | .alternative _ _ rest => ∀ parser ∈ rest, within parser
  | .iteration _ item _ _ => within item
  | .firstItem item separator => within item ∧ within separator
  | .nextItem item separator _ => within item ∧ within separator

def Move.Over (within : Parser ι α → Prop) (finishing : Finish α → Prop)
    (recording : Event → Prop) : Move ι α → Prop
  | .call parser pending => within parser ∧ pending.Over within finishing
  | .become events parser => within parser ∧ ∀ event ∈ events, recording event
  | _ => True

def Control.Over (within : Parser ι α → Prop) (finishing : Finish α → Prop)
    (recording : Event → Prop) : Control ι α → Prop
  | .call parser => within parser
  | .body parser => within parser
  | .move next => next.Over within finishing recording
  | .answer _ => True

section Over

variable {within : Parser ι α → Prop} {finishing : Finish α → Prop}
  {recording : Event → Prop}

theorem tryAlternatives_over {tag : Option Tag} {alternatives rest : List (Parser ι α)}
    (all : ∀ parser ∈ rest, within parser) :
    (tryAlternatives tag alternatives rest).Over within finishing recording := by
  cases rest with
  | nil => trivial
  | cons parser rest =>
      exact ⟨all parser List.mem_cons_self, fun other member =>
        all other (List.mem_cons_of_mem parser member)⟩

theorem continueRepetition_over {tag : Option Tag} {item : Parser ι α} {limit : CountLimit}
    {taken : List (Symbol α)} (one : within item) :
    (continueRepetition tag item limit taken).Over within finishing recording := by
  unfold continueRepetition
  split
  · exact ⟨one, one⟩
  · trivial

/-- A waiting body goes on with the parsers that it waits with. -/
theorem Pending.resume_over
    (following : ∀ {first second}, within first → within second →
      within (first.ignoreThen second))
    {pending : Pending ι α} (covered : pending.Over within finishing)
    (outcome : Outcome (Symbol α)) :
    (pending.resume outcome).Over within finishing recording := by
  cases pending with
  | finish complete =>
      rw [Pending.resume]
      cases complete (outcome.map Match.symbol) <;> trivial
  | first other combine =>
      cases outcome with
      | ok matched => exact ⟨covered, trivial⟩
      | error mismatch => trivial
  | second symbol combine => cases outcome <;> trivial
  | choosing next =>
      cases outcome with
      | ok matched => exact ⟨covered matched.symbol, trivial⟩
      | error mismatch => trivial
  | passing => trivial
  | alternative tag alternatives rest =>
      cases outcome with
      | ok matched => trivial
      | error mismatch => exact tryAlternatives_over covered
  | iteration tag item limit taken =>
      cases outcome with
      | ok matched =>
          simp only [Pending.resume]
          split
          · trivial
          · exact continueRepetition_over covered
      | error mismatch => trivial
  | firstItem item separator =>
      cases outcome with
      | ok matched => exact ⟨following covered.2 covered.1, covered⟩
      | error mismatch => trivial
  | nextItem item separator taken =>
      cases outcome with
      | ok matched =>
          simp only [Pending.resume]
          split
          · trivial
          · exact ⟨following covered.2 covered.1, covered⟩
      | error mismatch => trivial

end Over

variable [Input ι]

theorem Parser.start_terminal_over {within : Parser ι α → Prop} {finishing : Finish α → Prop}
    {recording : Event → Prop} (setting : Setting ι α) (state : State α) (expectation : String)
    (probe : Probe ι α) :
    (Parser.start setting state (.terminal expectation probe)).Over within finishing
      recording := by
  simp only [Parser.start]
  split
  · trivial
  · trivial
  · split <;> trivial

/-- The body of a composed parser starts with composed parsers. -/
theorem Parser.Composed.start {pieces : Pieces ι α} {setting : Setting ι α}
    (arena : setting.arena.Composed pieces) {parser : Parser ι α}
    (composed : parser.Composed pieces) (state : State α) :
    (parser.start setting state).Over (Parser.Composed pieces) pieces.finish pieces.event := by
  cases composed with
  | terminal _ => exact Parser.start_terminal_over setting state _ _
  | answer look => trivial
  | wrap _ inner admitted => exact ⟨inner, admitted⟩
  | both combine first second => exact ⟨first, second⟩
  | andThen first next => exact ⟨first, next⟩
  | repetition limit _ item => exact continueRepetition_over item
  | separated _ item separator => exact ⟨item, item, separator⟩
  | choice _ alternatives => exact tryAlternatives_over alternatives
  | retag admitted inner => exact ⟨inner.renamed admitted, nofun⟩
  | recording recorded inner => exact ⟨inner, recorded⟩
  | recursive admitted body =>
      exact ⟨Parser.Composed.unfold (.recursive admitted body), trivial⟩
  | self depth => trivial
  | handle slot admitted =>
      simp only [Parser.start]
      split
      · next resolved => exact ⟨arena.resolve resolved, nofun⟩
      · trivial

/-- A body that does not inspect the policies starts in one way wherever the cursor is the same. -/
theorem Parser.Composed.start_congr {pieces : Pieces ι α} {setting : Setting ι α}
    {parser : Parser ι α} (composed : parser.Composed pieces) {state other : State α}
    (same : state.cursor = other.cursor) :
    parser.start setting state = parser.start setting other := by
  cases composed with
  | _ => simp only [Parser.start, same]

def letter (c : Char) : Parser (Array Char) Unit := .just Char.toString .character c

/-- The body of a recursive parser that reads the letters `a`, nested to the left. -/
def letters : Parser (Array Char) Unit :=
  .oneOf [.followedBy (.self 0) (letter 'a'), letter 'a']

theorem letters_composed {pieces : Pieces (Array Char) Unit}
    (admitted : ∀ c, (letter c).Composed pieces) : letters.Composed pieces := by
  refine .choice nofun fun parser member => ?_
  cases member with
  | head => exact .both _ (.self 0) (admitted 'a')
  | tail _ member =>
      rw [List.mem_singleton.mp member]
      exact admitted 'a'

end Packrat
