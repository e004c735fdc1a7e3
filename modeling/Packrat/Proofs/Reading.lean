import Packrat.Proofs.Settling

/-!
# What parsers read

A parser either matches from a position, with a symbol and up to another position, or it
misses there.  The lemmas of this module follow the vocabulary: they say when a composed
parser matches or misses, given what its parts do.  A body reads or fails, and a call of an
untagged parser matches or misses as its body does.  The calls of tagged parsers are answered,
and where the answers are those of settled keys, a key settles on what its body reads.
-/

namespace Packrat

variable {ι α : Type} [Input ι]

namespace Setting

/-- The body of the parser reads a symbol between two positions. -/
def Reads (setting : Setting ι α) (allowed : Answering ι α) (parser : Parser ι α)
    (position : Nat) (symbol : Symbol α) (stop : Nat) : Prop :=
  setting.Replies allowed parser position (.ok symbol) stop ∧ position ≤ stop

def Fails (setting : Setting ι α) (allowed : Answering ι α) (parser : Parser ι α)
    (position : Nat) : Prop :=
  ∃ mismatch stop, setting.Replies allowed parser position (.error mismatch) stop

/-- A call of the parser matches a symbol between two positions. -/
def Matches (setting : Setting ι α) (allowed : Answering ι α) (parser : Parser ι α)
    (position : Nat) (symbol : Symbol α) (stop : Nat) : Prop :=
  setting.Answers allowed parser position (.ok ⟨symbol, ⟨position, stop⟩⟩) ∧ position ≤ stop

def Misses (setting : Setting ι α) (allowed : Answering ι α) (parser : Parser ι α)
    (position : Nat) : Prop :=
  ∃ mismatch, setting.Answers allowed parser position (.error mismatch)

section Vocabulary

variable {setting : Setting ι α} {allowed : Answering ι α} {parser inner first second : Parser ι α}
  {position middle stop : Nat} {symbol other : Symbol α}

theorem Reads.matches (reads : setting.Reads allowed parser position symbol stop)
    (untagged : parser.tag = none) : setting.Matches allowed parser position symbol stop :=
  ⟨(answers_ok_iff untagged).mpr ⟨reads.1, rfl, reads.2⟩, reads.2⟩

theorem Fails.misses (fails : setting.Fails allowed parser position)
    (untagged : parser.tag = none) : setting.Misses allowed parser position := by
  obtain ⟨mismatch, fails⟩ := fails
  exact ⟨mismatch, (answers_error_iff untagged).mpr fails⟩

theorem Reads.terminal {expectation : String} {probe : Probe ι α} {length : Nat}
    (found : probe setting.input position = .ok (some (symbol, length)))
    (inside : position + length ≤ Input.size setting.input) :
    setting.Reads allowed (.terminal expectation probe) position symbol (position + length) :=
  ⟨replies_terminal_ok_iff.mpr ⟨length, found, inside, rfl⟩, Nat.le_add_right _ _⟩

theorem Fails.terminal {expectation : String} {probe : Probe ι α}
    (missed : probe setting.input position = .ok none) :
    setting.Fails allowed (.terminal expectation probe) position :=
  ⟨_, _, replies_terminal_error missed⟩

theorem Reads.both {combine : Symbol α → Symbol α → Symbol α}
    (one : setting.Matches allowed first position symbol middle)
    (two : setting.Matches allowed second middle other stop) :
    setting.Reads allowed (.both first second combine) position (combine symbol other) stop :=
  ⟨replies_both_ok_iff.mpr ⟨_, _, one.1, two.1, rfl, rfl⟩, one.2.trans two.2⟩

theorem Fails.both_first {combine : Symbol α → Symbol α → Symbol α}
    (misses : setting.Misses allowed first position) :
    setting.Fails allowed (.both first second combine) position := by
  obtain ⟨mismatch, answers⟩ := misses
  exact ⟨mismatch, position, replies_both_first answers⟩

theorem Fails.both_second {combine : Symbol α → Symbol α → Symbol α}
    (one : setting.Matches allowed first position symbol middle)
    (misses : setting.Misses allowed second middle) :
    setting.Fails allowed (.both first second combine) position := by
  obtain ⟨mismatch, answers⟩ := misses
  exact ⟨mismatch, middle, replies_both_second one.1 answers⟩

variable {tag : Option Tag} {kind : Option Kind} {finish : Finish α}

theorem Reads.wrap (one : setting.Matches allowed inner position symbol stop)
    (finished : finish (.ok symbol) = .ok (.ok other)) :
    setting.Reads allowed (.wrap tag kind inner finish) position other stop :=
  ⟨replies_wrap_iff.mpr ⟨_, one.1, finished, rfl⟩, one.2⟩

/-- A parser that makes a symbol of every mismatch matches nothing where its inner parser misses. -/
theorem Reads.recovered (misses : setting.Misses allowed inner position)
    (finished : ∀ mismatch, finish (.error mismatch) = .ok (.ok symbol)) :
    setting.Reads allowed (.wrap tag kind inner finish) position symbol position := by
  obtain ⟨mismatch, answers⟩ := misses
  exact ⟨replies_wrap_iff.mpr ⟨_, answers, finished mismatch, rfl⟩, Nat.le_refl _⟩

theorem Fails.wrap (misses : setting.Misses allowed inner position)
    (finished : ∀ mismatch, ∃ cause, finish (.error mismatch) = .ok (.error cause)) :
    setting.Fails allowed (.wrap tag kind inner finish) position := by
  obtain ⟨mismatch, answers⟩ := misses
  obtain ⟨cause, finished⟩ := finished mismatch
  exact ⟨cause, position, replies_wrap_iff.mpr ⟨_, answers, finished, rfl⟩⟩

variable {alternatives after : List (Parser ι α)}

theorem Reads.choice (before : List (Parser ι α)) (split : alternatives = before ++ parser :: after)
    (misses : ∀ other ∈ before, setting.Misses allowed other position)
    (one : setting.Matches allowed parser position symbol stop) :
    setting.Reads allowed (.choice tag alternatives) position symbol stop :=
  ⟨replies_choice_ok_iff.mpr ⟨before, parser, after, _, split, misses, one.1, rfl, rfl⟩, one.2⟩

theorem Fails.choice (misses : ∀ other ∈ alternatives, setting.Misses allowed other position) :
    setting.Fails allowed (.choice tag alternatives) position :=
  ⟨_, _, replies_choice_error misses⟩

theorem Matches.terminal {expectation : String} {probe : Probe ι α} {length : Nat}
    (found : probe setting.input position = .ok (some (symbol, length)))
    (inside : position + length ≤ Input.size setting.input) :
    setting.Matches allowed (.terminal expectation probe) position symbol (position + length) :=
  (Reads.terminal found inside).matches rfl

theorem Misses.terminal {expectation : String} {probe : Probe ι α}
    (missed : probe setting.input position = .ok none) :
    setting.Misses allowed (.terminal expectation probe) position :=
  (Fails.terminal missed).misses rfl

theorem Matches.both {combine : Symbol α → Symbol α → Symbol α}
    (one : setting.Matches allowed first position symbol middle)
    (two : setting.Matches allowed second middle other stop) :
    setting.Matches allowed (.both first second combine) position (combine symbol other) stop :=
  (Reads.both one two).matches rfl

theorem Misses.both_first {combine : Symbol α → Symbol α → Symbol α}
    (misses : setting.Misses allowed first position) :
    setting.Misses allowed (.both first second combine) position :=
  (Fails.both_first misses).misses rfl

theorem Misses.both_second {combine : Symbol α → Symbol α → Symbol α}
    (one : setting.Matches allowed first position symbol middle)
    (misses : setting.Misses allowed second middle) :
    setting.Misses allowed (.both first second combine) position :=
  (Fails.both_second one misses).misses rfl

theorem Matches.wrap (one : setting.Matches allowed inner position symbol stop)
    (finished : finish (.ok symbol) = .ok (.ok other)) :
    setting.Matches allowed (.wrap none kind inner finish) position other stop :=
  (Reads.wrap one finished).matches rfl

theorem Misses.wrap (misses : setting.Misses allowed inner position)
    (finished : ∀ mismatch, ∃ cause, finish (.error mismatch) = .ok (.error cause)) :
    setting.Misses allowed (.wrap none kind inner finish) position :=
  (Fails.wrap misses finished).misses rfl

theorem Matches.choice (before : List (Parser ι α))
    (split : alternatives = before ++ parser :: after)
    (misses : ∀ other ∈ before, setting.Misses allowed other position)
    (one : setting.Matches allowed parser position symbol stop) :
    setting.Matches allowed (.choice none alternatives) position symbol stop :=
  (Reads.choice before split misses one).matches rfl

theorem Misses.choice (misses : ∀ other ∈ alternatives, setting.Misses allowed other position) :
    setting.Misses allowed (.choice none alternatives) position :=
  (Fails.choice misses).misses rfl

theorem Matches.map {f : Symbol α → Symbol α}
    (one : setting.Matches allowed inner position symbol stop) :
    setting.Matches allowed (inner.map f) position (f symbol) stop :=
  .wrap one rfl

theorem Misses.map {f : Symbol α → Symbol α} (misses : setting.Misses allowed inner position) :
    setting.Misses allowed (inner.map f) position :=
  .wrap misses fun mismatch => ⟨mismatch, rfl⟩

theorem Matches.tryMap {f : Symbol α → Result α}
    (one : setting.Matches allowed inner position symbol stop) (finished : f symbol = .ok other) :
    setting.Matches allowed (inner.tryMap f) position other stop :=
  .wrap one (congrArg Except.ok finished)

theorem Misses.tryMap {f : Symbol α → Result α}
    (misses : setting.Misses allowed inner position) :
    setting.Misses allowed (inner.tryMap f) position :=
  .wrap misses fun mismatch => ⟨mismatch, rfl⟩

theorem Reads.labelled {name : Tag} (one : setting.Matches allowed inner position symbol stop) :
    setting.Reads allowed (inner.labelled name) position symbol stop :=
  .wrap one rfl

theorem Fails.labelled {name : Tag} (misses : setting.Misses allowed inner position) :
    setting.Fails allowed (inner.labelled name) position :=
  .wrap misses fun _ => ⟨_, rfl⟩

theorem Matches.maybe (one : setting.Matches allowed inner position symbol stop) :
    setting.Matches allowed inner.maybe position (.present symbol) stop :=
  .wrap one rfl

theorem Misses.maybe (misses : setting.Misses allowed inner position) :
    setting.Matches allowed inner.maybe position .absent position :=
  (Reads.recovered misses fun _ => rfl).matches rfl

theorem Reads.recursive {name : Tag} {body : Parser ι α}
    (one : setting.Matches allowed (Parser.unfold name body) position symbol stop) :
    setting.Reads allowed (.recursive name body) position symbol stop :=
  ⟨replies_recursive_iff.mpr ⟨_, one.1, rfl, rfl⟩, one.2⟩

theorem Reads.handle {name : Tag} {slot : Nat}
    (resolved : setting.arena.resolve name slot = .ok parser)
    (reads : setting.Reads allowed parser position symbol stop) :
    setting.Reads allowed (.handle name slot) position symbol stop :=
  ⟨(replies_handle_iff resolved).mpr reads.1, reads.2⟩

theorem Fails.handle {name : Tag} {slot : Nat}
    (resolved : setting.arena.resolve name slot = .ok parser)
    (fails : setting.Fails allowed parser position) :
    setting.Fails allowed (.handle name slot) position := by
  obtain ⟨mismatch, stop, replies⟩ := fails
  exact ⟨mismatch, stop, (replies_handle_iff resolved).mpr replies⟩

end Vocabulary

/-! ## What a match comes from -/

section Origins

variable {setting : Setting ι α} {allowed : Answering ι α} {parser inner first second : Parser ι α}
  {position : Nat} {matched : Match (Symbol α)}

theorem Answers.of_terminal {expectation : String} {probe : Probe ι α}
    (answers : setting.Answers allowed (.terminal expectation probe) position (.ok matched)) :
    ∃ length, probe setting.input position = .ok (some (matched.symbol, length)) ∧
      matched.span.stop = position + length := by
  obtain ⟨length, found, -, stops⟩ := replies_terminal_ok_iff.mp ((answers_ok_iff rfl).mp answers).1
  exact ⟨length, found, stops⟩

theorem Answers.of_both {combine : Symbol α → Symbol α → Symbol α}
    (answers : setting.Answers allowed (.both first second combine) position (.ok matched)) :
    ∃ one two, setting.Answers allowed first position (.ok one) ∧
      setting.Answers allowed second one.span.stop (.ok two) ∧
      matched.symbol = combine one.symbol two.symbol ∧ matched.span.stop = two.span.stop :=
  replies_both_ok_iff.mp ((answers_ok_iff rfl).mp answers).1

theorem Answers.of_wrap {kind : Option Kind} {finish : Finish α}
    (answers : setting.Answers allowed (.wrap none kind inner finish) position (.ok matched)) :
    ∃ outcome, setting.Answers allowed inner position outcome ∧
      finish (outcome.map Match.symbol) = .ok (.ok matched.symbol) ∧
      matched.span.stop = outcome.landing position :=
  replies_wrap_iff.mp ((answers_ok_iff rfl).mp answers).1

theorem Answers.of_finished {kind : Option Kind} {finish : Finish α}
    (fails : ∀ mismatch, ∃ cause, finish (.error mismatch) = .ok (.error cause))
    (answers : setting.Answers allowed (.wrap none kind inner finish) position (.ok matched)) :
    ∃ one, setting.Answers allowed inner position (.ok one) ∧
      finish (.ok one.symbol) = .ok (.ok matched.symbol) ∧
      matched.span.stop = one.span.stop := by
  obtain ⟨outcome, answers, finished, stops⟩ := answers.of_wrap
  cases outcome with
  | error mismatch =>
      obtain ⟨cause, failed⟩ := fails mismatch
      cases failed.symm.trans finished
  | ok one => exact ⟨one, answers, finished, stops⟩

theorem Answers.of_map {f : Symbol α → Symbol α}
    (answers : setting.Answers allowed (inner.map f) position (.ok matched)) :
    ∃ one, setting.Answers allowed inner position (.ok one) ∧ matched.symbol = f one.symbol ∧
      matched.span.stop = one.span.stop := by
  have keeps (mismatch : Mismatch) :
      ∃ cause, Parser.onSymbol f (.error mismatch) = .ok (.error cause) := ⟨mismatch, rfl⟩
  obtain ⟨one, answers, finished, stops⟩ := Answers.of_finished keeps answers
  exact ⟨one, answers, (Except.ok.inj (Except.ok.inj finished)).symm, stops⟩

theorem Answers.of_tryMap {f : Symbol α → Result α}
    (answers : setting.Answers allowed (inner.tryMap f) position (.ok matched)) :
    ∃ one, setting.Answers allowed inner position (.ok one) ∧ f one.symbol = .ok matched.symbol ∧
      matched.span.stop = one.span.stop := by
  let finish : Finish α := fun result => .ok (result.bind f)
  have keeps (mismatch : Mismatch) : ∃ cause, finish (.error mismatch) = .ok (.error cause) :=
    ⟨mismatch, rfl⟩
  obtain ⟨one, answers, finished, stops⟩ := Answers.of_finished keeps answers
  exact ⟨one, answers, Except.ok.inj finished, stops⟩

theorem Replies.of_labelled {name : Tag} {symbol : Symbol α} {stop : Nat}
    (replies : setting.Replies allowed (inner.labelled name) position (.ok symbol) stop) :
    ∃ one, setting.Answers allowed inner position (.ok one) ∧ symbol = one.symbol ∧
      stop = one.span.stop := by
  obtain ⟨outcome, answers, finished, stops⟩ := replies_wrap_iff.mp replies
  cases outcome with
  | error mismatch => cases Except.ok.inj finished
  | ok one => exact ⟨one, answers, (Except.ok.inj (Except.ok.inj finished)).symm, stops⟩

theorem Answers.of_maybe
    (answers : setting.Answers allowed inner.maybe position (.ok matched)) :
    (∃ one, setting.Answers allowed inner position (.ok one) ∧
        matched.symbol = .present one.symbol ∧ matched.span.stop = one.span.stop) ∨
      matched.symbol = .absent ∧ matched.span.stop = position := by
  obtain ⟨outcome, answers, finished, stops⟩ := answers.of_wrap
  cases outcome with
  | error mismatch => exact .inr ⟨(Except.ok.inj (Except.ok.inj finished)).symm, stops⟩
  | ok one => exact .inl ⟨one, answers, (Except.ok.inj (Except.ok.inj finished)).symm, stops⟩

theorem Replies.of_choice {tag : Option Tag} {alternatives : List (Parser ι α)}
    {symbol : Symbol α} {stop : Nat}
    (replies : setting.Replies allowed (.choice tag alternatives) position (.ok symbol) stop) :
    ∃ parser ∈ alternatives, ∃ one, setting.Answers allowed parser position (.ok one) ∧
      symbol = one.symbol ∧ stop = one.span.stop := by
  obtain ⟨before, parser, after, one, rfl, -, rest⟩ := replies_choice_ok_iff.mp replies
  exact ⟨parser, List.mem_append_right before List.mem_cons_self, one, rest⟩

theorem Answers.of_choice {alternatives : List (Parser ι α)}
    (answers : setting.Answers allowed (.choice none alternatives) position (.ok matched)) :
    ∃ parser ∈ alternatives, ∃ one, setting.Answers allowed parser position (.ok one) ∧
      matched.symbol = one.symbol ∧ matched.span.stop = one.span.stop :=
  Replies.of_choice ((answers_ok_iff rfl).mp answers).1

theorem Replies.of_recursive {tag : Tag} {body : Parser ι α} {symbol : Symbol α} {stop : Nat}
    (replies : setting.Replies allowed (.recursive tag body) position (.ok symbol) stop) :
    ∃ one, setting.Answers allowed (Parser.unfold tag body) position (.ok one) ∧
      symbol = one.symbol ∧ stop = one.span.stop := by
  obtain ⟨outcome, answers, same, stops⟩ := replies_recursive_iff.mp replies
  cases outcome with
  | error mismatch => cases same
  | ok one =>
      cases same
      exact ⟨one, answers, rfl, stops⟩

end Origins

/-! ## Loops -/

/-- Matches follow one another between two positions, with their symbols in order. -/
inductive Chain (holds : Nat → Symbol α → Nat → Prop) : Nat → List (Symbol α) → Nat → Prop where
  | nil (position : Nat) : Chain holds position [] position
  | cons {position middle stop : Nat} {symbol : Symbol α} {symbols : List (Symbol α)} :
      holds position symbol middle → Chain holds middle symbols stop →
      Chain holds position (symbol :: symbols) stop

def Advances (setting : Setting ι α) (allowed : Answering ι α) (parser : Parser ι α)
    (position : Nat) (symbol : Symbol α) (stop : Nat) : Prop :=
  setting.Matches allowed parser position symbol stop ∧ position < stop

def Ended (setting : Setting ι α) (allowed : Answering ι α) (parser : Parser ι α)
    (position : Nat) (symbol : Symbol α) (stop : Nat) : Prop :=
  ∃ matched, setting.Answers allowed parser position (.ok matched) ∧ symbol = matched.symbol ∧
    stop = matched.span.stop

/-- A body calls a parser until it misses or matches nothing, and replies with what was taken. -/
structure Loop (parser : Parser ι α) (pending : List (Symbol α) → Pending ι α) : Prop where
  missed : ∀ taken mismatch,
    (pending taken).resume (.error mismatch) = .reply (.ok (.list taken.reverse))
  matched : ∀ taken (matched : Match (Symbol α)), (pending taken).resume (.ok matched) =
    if matched.span.isEmpty then .reply (.ok (.list (matched.symbol :: taken).reverse))
    else .call parser (pending (matched.symbol :: taken))

section Loops

variable {setting : Setting ι α} {allowed : Answering ι α} {parser item separator : Parser ι α}
  {pending : List (Symbol α) → Pending ι α} {position middle stop : Nat} {first : Symbol α}
  {symbols : List (Symbol α)} {matched : Match (Symbol α)}

omit [Input ι] in
theorem loop_many (item : Parser ι α) : Loop item (.iteration none item .unlimited) :=
  ⟨fun _ _ => rfl, fun _ _ => rfl⟩

omit [Input ι] in
theorem loop_list (item separator : Parser ι α) :
    Loop (separator.ignoreThen item) (.nextItem item separator) :=
  ⟨fun _ _ => rfl, fun _ _ => rfl⟩

omit [Input ι] in
theorem Chain.forward {holds : Nat → Symbol α → Nat → Prop}
    (onward : ∀ {position symbol stop}, holds position symbol stop → position ≤ stop)
    (chain : Chain holds position symbols stop) : position ≤ stop := by
  induction chain with
  | nil => exact Nat.le_refl _
  | cons one _ ih => exact (onward one).trans ih

/-- A loop takes matches until its parser misses. -/
theorem Loop.takes (loop : Loop parser pending)
    (chain : Chain (setting.Advances allowed parser) position symbols stop)
    (misses : setting.Misses allowed parser stop) (taken : List (Symbol α)) :
    Yields setting allowed (.move (.call parser (pending taken))) position
      (.replied (.ok (.list (taken.reverse ++ symbols)))) stop := by
  induction chain generalizing taken with
  | nil position =>
      obtain ⟨mismatch, answers⟩ := misses
      refine Yields.move_call_iff.mpr ⟨.error mismatch, answers, ?_⟩
      rw [loop.missed, List.append_nil]
      exact .reply _
  | @cons position middle _ symbol symbols one _ ih =>
      have nonempty : (⟨position, middle⟩ : Span).isEmpty ≠ true := fun empty =>
        Nat.ne_of_lt one.2 (beq_iff_eq.mp empty)
      refine Yields.move_call_iff.mpr ⟨_, one.1.1, ?_⟩
      rw [loop.matched, if_neg nonempty]
      have next := ih misses (symbol :: taken)
      rw [List.reverse_cons, List.append_assoc] at next
      exact next

/-- What a loop has taken comes from calls of its parser. -/
theorem Loop.taken_from (loop : Loop parser pending) {control : Control ι α} {halt : Halt α}
    {result : Symbol α} (yields : Yields setting allowed control position halt stop)
    (taken : List (Symbol α))
    (here : control = .move (.call parser (pending taken)))
    (ends : halt = .replied (.ok result)) :
    ∃ symbols, result = .list (taken.reverse ++ symbols) ∧
      Chain (setting.Ended allowed parser) position symbols stop := by
  induction yields generalizing taken with
  | @resumed _ _ _ _ _ outcome _ called moved _ ih =>
      cases here
      obtain ⟨_, same, rfl, answers⟩ := Yields.call_iff.mp called
      cases same
      cases outcome with
      | error mismatch =>
          rw [loop.missed] at moved
          obtain ⟨same, rfl⟩ := Yields.move_reply_iff.mp moved
          cases same.symm.trans ends
          exact ⟨[], by rw [List.append_nil], .nil _⟩
      | ok matched =>
          rw [loop.matched] at moved ih
          split at moved
          · obtain ⟨same, rfl⟩ := Yields.move_reply_iff.mp moved
            cases same.symm.trans ends
            exact ⟨[matched.symbol], by rw [List.reverse_cons],
              .cons ⟨matched, answers, rfl, rfl⟩ (.nil _)⟩
          · next nonempty =>
              obtain ⟨symbols, rfl, chain⟩ := ih _ (by rw [if_neg nonempty]) ends
              exact ⟨matched.symbol :: symbols, by rw [List.reverse_cons, List.append_assoc]; rfl,
                .cons ⟨matched, answers, rfl, rfl⟩ chain⟩
  | _ => cases here

theorem Matches.many (chain : Chain (setting.Advances allowed item) position symbols stop)
    (misses : setting.Misses allowed item stop) :
    setting.Matches allowed item.many position (.list symbols) stop :=
  Reads.matches ⟨(replies_iff_of_start _ fun _ _ => rfl).mpr
    ((loop_many item).takes chain misses []),
    chain.forward fun one => Nat.le_of_lt one.2⟩ rfl

theorem Answers.of_many (answers : setting.Answers allowed item.many position (.ok matched)) :
    ∃ symbols, matched.symbol = .list symbols ∧
      Chain (setting.Ended allowed item) position symbols matched.span.stop :=
  (loop_many item).taken_from
    ((replies_iff_of_start _ fun _ _ => rfl).mp ((answers_ok_iff rfl).mp answers).1) [] rfl rfl

theorem Matches.list_nil (misses : setting.Misses allowed item position) :
    setting.Matches allowed (item.list separator) position (.list []) position := by
  obtain ⟨mismatch, answers⟩ := misses
  refine Reads.matches ⟨(replies_iff_of_start _ fun _ _ => rfl).mpr ?_, Nat.le_refl _⟩ rfl
  exact Yields.move_call_iff.mpr ⟨.error mismatch, answers, .reply _⟩

theorem Matches.list_cons (one : setting.Matches allowed item position first middle)
    (chain : Chain (setting.Advances allowed (separator.ignoreThen item)) middle symbols stop)
    (misses : setting.Misses allowed (separator.ignoreThen item) stop) :
    setting.Matches allowed (item.list separator) position (.list (first :: symbols)) stop := by
  refine Reads.matches ⟨(replies_iff_of_start _ fun _ _ => rfl).mpr ?_,
    one.2.trans (chain.forward fun one => Nat.le_of_lt one.2)⟩ rfl
  exact Yields.move_call_iff.mpr ⟨_, one.1, (loop_list item separator).takes chain misses [first]⟩

theorem Answers.of_list
    (answers : setting.Answers allowed (item.list separator) position (.ok matched)) :
    matched.symbol = .list [] ∧ matched.span.stop = position ∨
      ∃ one symbols, setting.Answers allowed item position (.ok one) ∧
        matched.symbol = .list (one.symbol :: symbols) ∧
        Chain (setting.Ended allowed (separator.ignoreThen item)) one.span.stop symbols
          matched.span.stop := by
  have replies := ((answers_ok_iff rfl).mp answers).1
  obtain ⟨outcome, answers, moved⟩ :=
    Yields.move_call_iff.mp ((replies_iff_of_start _ fun _ _ => rfl).mp replies)
  cases outcome with
  | error mismatch =>
      obtain ⟨same, stops⟩ := Yields.move_reply_iff.mp moved
      exact .inl ⟨Except.ok.inj (Halt.replied.inj same), stops⟩
  | ok one =>
      obtain ⟨symbols, same, chain⟩ :=
        (loop_list item separator).taken_from moved [one.symbol] rfl rfl
      exact .inr ⟨one, symbols, answers, same, chain⟩

end Loops

section Keys

variable {setting : Setting ι α} {names : Tag → Parser ι α}
  {given : Key → Outcome (Symbol α) → Prop} {parser : Parser ι α} {tag : Tag}
  {position stop : Nat} {symbol : Symbol α}

def SettlesOk (setting : Setting ι α) (names : Tag → Parser ι α) (tag : Tag) (position : Nat)
    (symbol : Symbol α) (stop : Nat) : Prop :=
  setting.Settles names ⟨position, tag⟩ (.ok ⟨symbol, ⟨position, stop⟩⟩) ∧ position ≤ stop

def SettlesError (setting : Setting ι α) (names : Tag → Parser ι α) (tag : Tag)
    (position : Nat) : Prop :=
  ∃ mismatch, setting.Settles names ⟨position, tag⟩ (.error mismatch)

theorem Matches.of_given (tagged : parser.tag = some tag) (named : parser.core = names tag)
    (answer : given ⟨position, tag⟩ (.ok ⟨symbol, ⟨position, stop⟩⟩))
    (forward : position ≤ stop) :
    setting.Matches (.named names given) parser position symbol stop := by
  refine ⟨(answers_tagged_iff (by rw [tagged]; exact nofun)).mpr ?_, forward⟩
  exact ⟨tag, tagged, named, answer⟩

theorem Misses.of_given (tagged : parser.tag = some tag) (named : parser.core = names tag)
    {mismatch : Mismatch} (answer : given ⟨position, tag⟩ (.error mismatch)) :
    setting.Misses (.named names given) parser position :=
  ⟨mismatch, (answers_tagged_iff (by rw [tagged]; exact nofun)).mpr ⟨tag, tagged, named, answer⟩⟩

/-- A call of the key that grows is answered with its seed. -/
theorem Matches.of_seed (key : Key) {others : Key → Outcome (Symbol α) → Prop}
    (tagged : parser.tag = some key.tag) (named : parser.core = names key.tag)
    (forward : key.position ≤ stop) :
    setting.Matches (.named names
      (answeredWith key (.ok ⟨symbol, ⟨key.position, stop⟩⟩) others)) parser key.position symbol
      stop :=
  .of_given tagged named (by rw [answeredWith, if_pos rfl]) forward

/-- In the first round of growing a call of the key is refused. -/
theorem Misses.of_refused (key : Key) {others : Key → Outcome (Symbol α) → Prop}
    {mismatch : Mismatch} (tagged : parser.tag = some key.tag)
    (named : parser.core = names key.tag) :
    setting.Misses (.named names (answeredWith key (.error mismatch) others)) parser
      key.position :=
  .of_given tagged named (by rw [answeredWith, if_pos rfl])

/-- A call of a key that settles matches what the key settles on, while another key grows. -/
theorem SettlesOk.matches_growing (key : Key) (answer : Outcome (Symbol α))
    (settles : setting.SettlesOk names tag position symbol stop) (tagged : parser.tag = some tag)
    (named : parser.core = names tag) (different : tag ≠ key.tag) :
    setting.Matches (.named names (answeredWith key answer (setting.Settles names))) parser
      position symbol stop := by
  refine .of_given tagged named ?_ settles.2
  rw [answeredWith, if_neg fun same => different (congrArg Key.tag same)]
  exact settles.1

theorem SettlesError.misses_growing (key : Key) (answer : Outcome (Symbol α))
    (settles : setting.SettlesError names tag position) (tagged : parser.tag = some tag)
    (named : parser.core = names tag) (different : tag ≠ key.tag) :
    setting.Misses (.named names (answeredWith key answer (setting.Settles names))) parser
      position := by
  obtain ⟨mismatch, settles⟩ := settles
  have given : answeredWith key answer (setting.Settles names) ⟨position, tag⟩
      (.error mismatch) := by
    rw [answeredWith, if_neg fun same => different (congrArg Key.tag same)]
    exact settles
  exact .of_given tagged named given

theorem SettlesOk.matches_unasked (key : Key)
    (settles : setting.SettlesOk names tag position symbol stop) (tagged : parser.tag = some tag)
    (named : parser.core = names tag) (different : tag ≠ key.tag) :
    setting.Matches (.named names (unansweredAt key (setting.Settles names))) parser position
      symbol stop :=
  .of_given tagged named ⟨fun same => different (congrArg Key.tag same), settles.1⟩ settles.2

theorem SettlesError.misses_unasked (key : Key)
    (settles : setting.SettlesError names tag position) (tagged : parser.tag = some tag)
    (named : parser.core = names tag) (different : tag ≠ key.tag) :
    setting.Misses (.named names (unansweredAt key (setting.Settles names))) parser position := by
  obtain ⟨mismatch, settles⟩ := settles
  exact .of_given tagged named ⟨fun same => different (congrArg Key.tag same), settles⟩

theorem Reads.round (reads : setting.Reads (.named names given) (names tag) position symbol stop) :
    setting.Round names given ⟨position, tag⟩ (.ok ⟨symbol, ⟨position, stop⟩⟩) :=
  ⟨.ok symbol, stop, reads.1, fun _ _ => reads.2, rfl⟩

theorem Fails.round (fails : setting.Fails (.named names given) (names tag) position) :
    ∃ mismatch, setting.Round names given ⟨position, tag⟩ (.error mismatch) := by
  obtain ⟨mismatch, stop, replies⟩ := fails
  exact ⟨mismatch, .error mismatch, stop, replies, nofun, rfl⟩

/-- A key that its body does not ask for settles on what the body reads. -/
theorem SettlesOk.of_unasked (reads : setting.Reads
      (.named names (unansweredAt ⟨position, tag⟩ (setting.Settles names))) (names tag) position
      symbol stop) : setting.SettlesOk names tag position symbol stop :=
  ⟨.of_unasked reads.round, reads.2⟩

theorem SettlesError.of_unasked (fails : setting.Fails
      (.named names (unansweredAt ⟨position, tag⟩ (setting.Settles names))) (names tag)
      position) : setting.SettlesError names tag position := by
  obtain ⟨mismatch, round⟩ := fails.round
  exact ⟨mismatch, .of_unasked round⟩

/-- A key settles on a mismatch if it fails whatever mismatch its own calls are answered with. -/
theorem SettlesError.of_growing (fails : ∀ mismatch, setting.Fails
      (.named names (answeredWith ⟨position, tag⟩ (.error mismatch) (setting.Settles names)))
      (names tag) position) : setting.SettlesError names tag position := by
  have grows (rounds : Nat) : ∃ mismatch,
      setting.Grows names (setting.Settles names) ⟨position, tag⟩ rounds (.error mismatch) := by
    induction rounds with
    | zero =>
        obtain ⟨mismatch, round⟩ := (fails _).round
        exact ⟨mismatch, .first round⟩
    | succ rounds ih =>
        obtain ⟨mismatch, grows⟩ := ih
        obtain ⟨_, round⟩ := (fails mismatch).round
        exact ⟨mismatch, .next grows round⟩
  obtain ⟨mismatch, grows⟩ := grows (Input.remaining setting.input position)
  exact ⟨mismatch, .of_grows grows⟩

end Keys

end Setting

end Packrat
