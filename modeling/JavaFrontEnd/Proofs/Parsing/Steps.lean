/-
The steps that productions are made of keep to the course of a parse: moving the cursor, reporting
problems, failing, and testing the token under the cursor.
-/

import JavaFrontEnd.Proofs.Parsing.Gathered

namespace JavaFrontEnd.Grammar

open List

variable {terms : Terms} {env : Environment} {scope : Scope} {state after : State}
  {opening : Opening} {before moved : Bool} {gathered nodes : List Node} {α β : Type}
  {parser yes no : Parser α} {goal : α → State → Prop} {text : List Char} {kind : TokenKind}

/-! ### The cursor -/

theorem Located.reach_le (located : Located text state) (isLater : token ∈ state.following) :
    state.reach ≤ token.span.start.offset := by
  have stand := located.stand
  have ordered := located.ordered
  unfold State.reach
  unfold State.tokens at stand ordered
  generalize state.current = first at stand ordered
  generalize state.following = rest at stand ordered isLater
  induction rest generalizing first with
  | nil => cases isLater
  | cons next rest ih =>
    obtain ⟨order, ordered⟩ := isChain_cons_cons.mp ordered
    have upright := (stand next (mem_cons_of_mem _ mem_cons_self)).isTrue.ordered
    rcases mem_cons.mp isLater with rfl | isLater
    · exact order
    · have further := ih next
        (fun token member => stand token (mem_cons_of_mem _ member)) ordered isLater
      omega

theorem Located.lastFront_le (located : Located text state) : state.lastFront ≤ state.front := by
  cases isPrevious : state.previous with
  | none =>
    unfold State.lastFront State.last
    rw [isPrevious]
    exact Nat.le_refl _
  | some token =>
    have apart := located.standing.apart (by rw [isPrevious]; rfl)
    have ordered := located.standing.last.ordered
    unfold State.lastReach at apart
    unfold State.lastFront
    omega

theorem Located.lastReach_le (located : Located text state) : state.lastReach ≤ state.reach := by
  cases isPrevious : state.previous with
  | none =>
    unfold State.lastReach State.last
    rw [isPrevious]
    exact Nat.le_refl _
  | some token =>
    have apart := located.standing.apart (by rw [isPrevious]; rfl)
    have upright := located.standing.upright
    omega

/-- The cursor moves to a later token, and one that it passes is the last one then. -/
structure Jump (earlier later : State) (last : Token) : Prop where
  tokens : later.tokens <:+ earlier.following
  isLast : last ∈ earlier.tokens
  previous : later.previous = some last
  position : later.consumed + later.following.length = earlier.consumed + earlier.following.length

namespace Jump

variable {last : Token} (jump : Jump state after last)
include jump

theorem current_mem : after.current ∈ state.following :=
  jump.tokens.mem mem_cons_self

theorem consumed_lt : state.consumed < after.consumed := by
  have length := jump.tokens.length_le
  have position := jump.position
  unfold State.tokens at length
  rw [length_cons] at length
  omega

theorem last_eq : after.last = last := by
  unfold State.last
  rw [jump.previous]
  rfl

theorem ne_endOfInput (located : Located text state) : state.current.kind ≠ .endOfInput := by
  refine located.inner _ ?_
  unfold State.tokens
  cases isFollowing : state.following with
  | nil => exact absurd (isFollowing ▸ jump.current_mem) nofun
  | cons next rest => exact mem_cons_self

theorem onward (located : Located text state) : Onward state after := by
  have reach := located.reach_le jump.current_mem
  have isTrue := (located.stand _ (mem_cons_of_mem _ jump.current_mem)).isTrue.ordered
  have lastTrue := (located.stand _ jump.isLast).isTrue.ordered
  have upright := located.standing.upright
  have lastFront := located.lastFront_le
  have lastReach := located.lastReach_le
  have passed : state.front ≤ last.span.start.offset ∧ state.reach ≤ last.span.stop.offset := by
    rcases mem_cons.mp jump.isLast with rfl | isLater
    · exact ⟨Nat.le_refl _, Nat.le_refl _⟩
    · have := located.reach_le isLater
      omega
  have isFront : after.lastFront = last.span.start.offset := by
    unfold State.lastFront
    rw [jump.last_eq]
  have isReach : after.lastReach = last.span.stop.offset := by
    unfold State.lastReach
    rw [jump.last_eq]
  have begun : after.previous.isSome = true := by
    rw [jump.previous]
    rfl
  have wide : state.front < state.reach :=
    (located.stand _ mem_cons_self).start_lt_stop (jump.ne_endOfInput located)
  refine ⟨?_, ?_, by omega, by omega, fun _ => begun, fun _ => ?_,
    fun _ => ⟨by omega, by omega, begun⟩⟩
  · unfold State.front at *
    omega
  · unfold State.reach at *
    omega
  · unfold State.front at *
    omega

theorem located (located : Located text state) (order : last.span.stop.offset ≤ after.front)
    (found : after.found = state.found)
    (arguments : after.annotationArguments = state.annotationArguments) : Located text after where
  stand token member :=
    located.stand token (mem_cons_of_mem _ (jump.tokens.mem member))
  ordered := located.ordered.tail.suffix jump.tokens
  inner token member := by
    obtain ⟨before, isFollowing⟩ := jump.tokens
    have isSome : after.tokens ≠ [] := cons_ne_nil _ _
    refine located.inner token ?_
    unfold State.tokens
    rw [← isFollowing, ← cons_append, dropLast_append_of_ne_nil isSome]
    exact mem_append_right _ member
  previous token isPrevious := by
    cases jump.previous.symm.trans isPrevious
    exact ⟨(located.stand _ jump.isLast).isTrue, order⟩
  found := found ▸ located.found
  arguments := arguments ▸ located.arguments

end Jump

variable {next : Token → Parser α}

theorem Ready.advance_cases (ready : Ready scope env state) :
    state.current.kind = .endOfInput ∧ state.advance = state ∨
    state.current.kind ≠ .endOfInput ∧ ∃ next rest, state.following = next :: rest ∧
      state.advance = { state with
        current := next, following := rest, previous := some state.current,
        consumed := state.consumed + 1 } := by
  have ended := ready.ended
  unfold State.advance
  unfold State.tokens at ended
  cases isFollowing : state.following with
  | nil =>
    rw [isFollowing] at ended
    exact .inl ⟨Option.some.inj ended, rfl⟩
  | cons next rest =>
    dsimp only
    split
    next isEnd => exact .inl ⟨isEnd, rfl⟩
    next isNoEnd => exact .inr ⟨isNoEnd, next, rest, rfl, rfl⟩

theorem Ready.jump (ready : Ready scope env state) (isNoEnd : state.current.kind ≠ .endOfInput) :
    Jump state state.advance state.current := by
  rcases ready.advance_cases with ⟨isEnd, _⟩ | ⟨_, next, rest, isFollowing, isAdvance⟩
  · exact absurd isEnd isNoEnd
  rw [isAdvance]
  refine ⟨?_, mem_cons_self, rfl, ?_⟩
  · rw [isFollowing]
    exact suffix_refl _
  · dsimp only
    rw [isFollowing, length_cons]
    omega

theorem Ready.advance (ready : Ready scope env state) : Ready scope env state.advance := by
  have ended := ready.ended
  have bounded := ready.bounded
  rcases ready.advance_cases with ⟨_, isSame⟩ | ⟨isNoEnd, next, rest, isFollowing, isAdvance⟩
  · rwa [isSame]
  have jump := ready.jump isNoEnd
  rw [isAdvance] at jump ⊢
  unfold State.tokens at ended
  rw [isFollowing] at ended bounded
  refine
    { ended := ?_, bounded := Nat.lt_of_succ_lt bounded, floor_le := ready.floor_le,
      depth_le := ready.depth_le, listed := ready.listed, unnamed := ready.unnamed,
      fits := ready.fits,
      located := fun text isText => jump.located (ready.located text isText) ?_ rfl rfl }
  · rwa [getLast?_cons_cons] at ended
  · exact (ready.located text isText).reach_le (isFollowing ▸ mem_cons_self)

theorem Jump.course (jump : Jump state after last) (ready : Ready terms.scope env state)
    (steps : after.steps = state.steps) (usedUp : after.usedUp = state.usedUp)
    (levels : after.levels = state.levels) (lambdas : after.lambdas = state.lambdas)
    (reported : after.reported = state.reported) (abandoned : after.abandoned = state.abandoned) :
    Course terms env state after where
  position := jump.position
  forward := Nat.le_of_lt jump.consumed_lt
  awake same := absurd same (Nat.ne_of_gt jump.consumed_lt)
  counted := Nat.le_of_eq steps.symm
  paid := by
    have less := jump.consumed_lt
    omega
  prepaid _ := .inl steps
  usedUp isUsedUp := .inl (usedUp ▸ isUsedUp)
  levels := levels ▸ .refl ..
  lambdas := lambdas
  reported := reported ▸ suffix_refl _
  abandoned _ := .inl abandoned
  onward text isText := jump.onward (ready.located text isText)

theorem Ready.course_advance (ready : Ready terms.scope env state) :
    Course terms env state state.advance := by
  rcases ready.advance_cases with ⟨_, isSame⟩ | ⟨isNoEnd, next, rest, _, isAdvance⟩
  · rw [isSame]
    exact .refl terms env state
  · have jump := ready.jump isNoEnd
    rw [isAdvance] at jump ⊢
    exact jump.course ready rfl rfl rfl rfl rfl rfl

theorem advance_obeys : Obeys (course terms) env state advance
    fun token after => token = state.current ∧ after = state.advance :=
  .of_eq_some rfl Ready.advance Ready.course_advance fun _ => ⟨rfl, rfl⟩

structure Passes (state after : State) : Prop where
  last : after.last = state.current
  less : state.consumed < after.consumed
  steps : after.steps = state.steps
  depth : after.depth = state.depth
  reported : after.reported = state.reported
  abandoned : after.abandoned = state.abandoned
  kinds : ∀ distance, after.kindAt distance = state.kindAt (distance + 1)

theorem Ready.passes (ready : Ready scope env state)
    (isNoEnd : state.current.kind ≠ .endOfInput) : Passes state state.advance := by
  rcases ready.advance_cases with ⟨isEnd, _⟩ | ⟨_, next, rest, isFollowing, isAdvance⟩
  · exact absurd isEnd isNoEnd
  rw [isAdvance]
  refine ⟨rfl, Nat.lt_succ_self _, rfl, rfl, rfl, rfl, fun distance => ?_⟩
  unfold State.kindAt
  rw [isFollowing]
  cases distance <;> rfl

theorem Gathered.advance (held : Gathered terms.scope before opening state gathered)
    (isNoEnd : state.current.kind ≠ .endOfInput) (second : ∀ {after}, Passes state after →
      Gathered terms.scope (true || before) opening after gathered →
        Obeys (course terms) env after (next state.current) goal) :
    Obeys (course terms) env state (Grammar.advance >>= next) goal := by
  refine .of_holds fun ready => ?_
  refine advance_obeys.bind fun token leads yields => .of_holds fun readyAfter => ?_
  obtain ⟨rfl, rfl⟩ := yields
  have passes := ready.passes isNoEnd
  exact second passes (held.later readyAfter leads rfl fun _ => passes.less)

theorem Gathered.advanceAny (held : Gathered terms.scope before opening state gathered)
    (second : ∀ {after}, Gathered terms.scope (false || before) opening after gathered →
      Obeys (course terms) env after (next state.current) goal) :
    Obeys (course terms) env state (Grammar.advance >>= next) goal := by
  refine advance_obeys.bind fun token leads yields => .of_holds fun readyAfter => ?_
  obtain ⟨rfl, rfl⟩ := yields
  exact second (held.later readyAfter leads rfl nofun)

/-! ### Problems and other notes -/

/-- Only notes are made between two states: the cursor and the levels stay. -/
structure Aside (earlier later : State) : Prop where
  tokens : later.tokens = earlier.tokens
  previous : later.previous = earlier.previous
  consumed : later.consumed = earlier.consumed
  steps : later.steps = earlier.steps
  usedUp : later.usedUp = earlier.usedUp
  levels : later.levels = earlier.levels
  lambdas : later.lambdas = earlier.lambdas
  abandoned : later.abandoned = earlier.abandoned

namespace Aside

theorem refl (state : State) : Aside state state :=
  ⟨rfl, rfl, rfl, rfl, rfl, rfl, rfl, rfl⟩

variable (aside : Aside state after)
include aside

theorem current : after.current = state.current :=
  (cons.inj aside.tokens).1

theorem depth : after.depth = state.depth :=
  congrArg Levels.depth aside.levels

theorem last : after.last = state.last := by
  unfold State.last
  rw [aside.previous, aside.current]

theorem located (located : Located text state)
    (found : ∀ diagnostic ∈ after.found, diagnostic.span.IsTrue text)
    (arguments : ∀ arguments ∈ after.annotationArguments.toList, ∀ argument ∈ arguments,
      argument.node.Sound text) : Located text after where
  stand := aside.tokens ▸ located.stand
  ordered := aside.tokens ▸ located.ordered
  inner := aside.tokens ▸ located.inner
  previous token isPrevious := by
    unfold State.front
    rw [aside.current]
    exact located.previous token (aside.previous ▸ isPrevious)
  found := found
  arguments := arguments

theorem ready (ready : Ready scope env state) (listed : after.reported ≠ [] → after.found ≠ [])
    (found : ∀ diagnostic ∈ after.found, diagnostic ∈ state.found ∨
      scope.Knows diagnostic.span ∧ diagnostic.file = "")
    (arguments : ∀ arguments ∈ after.annotationArguments.toList, ∀ argument ∈ arguments,
      arguments ∈ state.annotationArguments.toList ∨ argument.node.Fits 0 ∧
        ∀ text ∈ scope.text, argument.node.Sound text) : Ready scope env after where
  ended := aside.tokens ▸ ready.ended
  bounded := by
    rw [(cons.inj aside.tokens).2]
    exact ready.bounded
  floor_le := aside.depth ▸ ready.floor_le
  depth_le := aside.depth ▸ ready.depth_le
  listed := listed
  unnamed diagnostic isFound := by
    rcases found diagnostic isFound with isOld | isNew
    · exact ready.unnamed diagnostic isOld
    · exact isNew.2
  fits list isListed argument isArgument := by
    rcases arguments list isListed argument isArgument with isOld | isNew
    · exact ready.fits list isOld argument isArgument
    · exact isNew.1
  located text isText := by
    have located := ready.located text isText
    refine aside.located located ?_ ?_
    · intro diagnostic isFound
      rcases found diagnostic isFound with isOld | isNew
      · exact located.found diagnostic isOld
      · exact isNew.1 text isText
    · intro list isListed argument isArgument
      rcases arguments list isListed argument isArgument with isOld | isNew
      · exact located.arguments list isOld argument isArgument
      · exact isNew.2 text isText

theorem course (reported : state.reported <:+ after.reported) : Course terms env state after :=
  .unmoved aside.tokens aside.previous aside.consumed aside.steps aside.usedUp aside.levels
    aside.lambdas reported aside.abandoned

theorem moves (runs : parser env state = (some value, after))
    (reported : state.reported <:+ after.reported)
    (listed : after.reported ≠ [] → state.reported ≠ [] ∧ after.found = state.found ∨ after.found ≠
      [])
    (found : ∀ diagnostic ∈ after.found, diagnostic ∈ state.found ∨ terms.scope.Knows
      diagnostic.span ∧ diagnostic.file = "")
    (arguments : after.annotationArguments = state.annotationArguments)
    (isGood : goal value after) : Moves false terms env state parser goal := by
  refine .of_eq_some runs (fun ready => ?_) (fun _ => aside.course reported)
    fun _ => ⟨nofun, isGood⟩
  refine aside.ready ready (fun isReported => ?_) found ?_
  · rcases listed isReported with ⟨isOld, isSame⟩ | isFound
    · rw [isSame]
      exact ready.listed isOld
    · exact isFound
  · rw [arguments]
    exact fun _ isListed _ _ => .inl isListed

end Aside

theorem modify_moves (aside : Aside state (change state))
    (reported : (change state).reported = state.reported)
    (found : (change state).found = state.found)
    (arguments : (change state).annotationArguments = state.annotationArguments) :
    Moves false terms env state (Parser.modify change) fun _ after => Aside state after :=
  aside.moves rfl (reported ▸ suffix_refl _) (fun isReported => .inl ⟨reported ▸ isReported, found⟩)
    (fun _ isFound => .inl (found ▸ isFound)) arguments aside

theorem report_moves {diagnostic : Diagnostic} (knows : terms.scope.Knows diagnostic.span)
    (isUnnamed : diagnostic.file = "") :
    Moves false terms env state (report diagnostic) fun _ after => Aside state after := by
  have aside : Aside state { state with found := diagnostic :: state.found } :=
    ⟨rfl, rfl, rfl, rfl, rfl, rfl, rfl, rfl⟩
  refine aside.moves rfl (suffix_refl _) (fun _ => .inr nofun) ?_ rfl aside
  rintro other (_ | ⟨_, isOld⟩)
  · exact .inr ⟨knows, isUnnamed⟩
  · exact .inl isOld

theorem violation_moves {span : Span} (knows : terms.scope.Knows span) :
    Moves false terms env state (violation problem span) fun _ after =>
      Aside state after ∧ Told env after := by
  have unchanged := Aside.refl state
  by_cases isKnown : (decide (env.configuration.maxSyntaxErrors ≤ state.reported.length)
      || state.reported.contains span.start.offset) = true
  · refine unchanged.moves (if_pos isKnown) (suffix_refl _)
      (fun isReported => .inl ⟨isReported, rfl⟩) (fun _ => .inl) rfl ⟨unchanged, ?_⟩
    intro allowed none
    rw [none] at isKnown
    simp at isKnown
    omega
  · have aside : Aside state { state with
        found := .error .syntaxError problem.message span :: state.found,
        reported := span.start.offset :: state.reported } :=
      ⟨rfl, rfl, rfl, rfl, rfl, rfl, rfl, rfl⟩
    refine aside.moves (if_neg isKnown) (suffix_cons _ _) (fun _ => .inr nofun) ?_ rfl
      ⟨aside, fun _ => nofun⟩
    rintro other (_ | ⟨_, isOld⟩)
    · exact .inr ⟨knows, rfl⟩
    · exact .inl isOld

theorem needFeature_moves {span : Span} (knows : terms.scope.Knows span) :
    Moves false terms env state (needFeature feature span) fun _ after => Aside state after := by
  have unchanged := Aside.refl state
  have silent : ∀ {parser : Parser Unit}, parser env state = (some (), state) →
      Moves false terms env state parser fun _ after => Aside state after :=
    fun runs => unchanged.moves runs (suffix_refl _)
      (fun isReported => .inl ⟨isReported, rfl⟩) (fun _ => .inl) rfl unchanged
  by_cases isAllowed : env.configuration.allows feature = true
  · exact silent (if_pos isAllowed)
  by_cases isKnown : (state.found.any fun diagnostic =>
      diagnostic.span.start.offset == span.start.offset &&
        diagnostic.message == feature.unavailableMessage) = true
  · exact silent ((if_neg isAllowed).trans (if_pos isKnown))
  · have aside : Aside state { state with
        found := .error .featureNotAvailable feature.unavailableMessage span :: state.found } :=
      ⟨rfl, rfl, rfl, rfl, rfl, rfl, rfl, rfl⟩
    refine aside.moves ((if_neg isAllowed).trans (if_neg isKnown)) (suffix_refl _)
      (fun _ => .inr nofun) ?_ rfl aside
    rintro other (_ | ⟨_, isOld⟩)
    · exact .inr ⟨knows, rfl⟩
    · exact .inl isOld

theorem Gathered.needs {next : Unit → Parser α}
    (held : Gathered terms.scope before opening state gathered)
    (second : ∀ {after}, Gathered terms.scope before opening after gathered → Obeys (course terms)
      env after (next ()) goal) :
    Obeys (course terms) env state (needFeature feature opening.span >>= next) goal :=
  held.moves (needFeature_moves held.knows) fun _ _ held => second held

theorem reportMissing_moves {construct : String} :
    Moves false terms env state (reportMissing kind construct) fun _ after => Told env after := by
  refine .of_holds fun ready => .read rfl (.ite (fun _ => ?_) fun _ => ?_)
  · exact (violation_moves ready.last).mono fun _ _ yields => ⟨nofun, yields.2.2⟩
  · exact (violation_moves ready.current).mono fun _ _ yields => ⟨nofun, yields.2.2⟩

instance : Movable false terms freshId := by
  refine ⟨fun {_ state} => ?_⟩
  have aside : Aside state { state with nextId := state.nextId + 1 } :=
    ⟨rfl, rfl, rfl, rfl, rfl, rfl, rfl, rfl⟩
  exact aside.moves rfl (suffix_refl _) (fun isReported => .inl ⟨isReported, rfl⟩)
    (fun _ => .inl) rfl trivial

section Notes

variable {condition : Prop} [Decidable condition] {rest : Unit → Parser α}
  {good : Unit → State → Prop} (held : Gathered terms.scope before opening state gathered)
include held

/-- A note is made or not, and the parse goes on in the same way. -/
theorem Gathered.perhaps (first : Moves false terms env state note good)
    (second : ∀ {after}, Gathered terms.scope before opening after gathered → Obeys (course terms)
      env after (rest ()) goal) :
    Obeys (course terms) env state (if condition then do note; rest () else rest ()) goal :=
  .ite (fun _ => held.moves first fun _ _ held => second held) fun _ => second held

/-- The note may be about the token before the cursor. -/
theorem Gathered.perhapsLast {note : Span → Parser Unit}
    (first : terms.scope.Knows state.last.span →
      Moves false terms env state (note state.last.span) good)
    (second : ∀ {after}, Gathered terms.scope before opening after gathered →
      Obeys (course terms) env after (rest ()) goal) : Obeys (course terms) env state
      (if condition then do note (← lastSpan); rest () else rest ()) goal :=
  .of_holds fun ready => .ite (fun _ => .read rfl (held.moves (first ready.last)
    fun _ _ held => second held)) fun _ => second held

end Notes

/-! ### Failures -/

section Failures

variable [isFallible : terms.Fallible] {construct : String}
include isFallible

theorem fail_obeys (told : Told env state) :
    Obeys (course terms) env state (Parser.fail : Parser α) goal :=
  .fail fun _ => ⟨isFallible.isFallible, fun _ => told⟩

theorem reject_obeys {span : Span} (knows : terms.scope.Knows span) :
    Obeys (course terms) env state (reject problem span : Parser α) goal :=
  (violation_moves knows).bind fun _ _ yields => fail_obeys yields.2.2

theorem reportMissing_fails : Obeys (course terms) env state
      (do reportMissing kind construct; (Parser.fail : Parser α)) goal :=
  reportMissing_moves.bind fun _ _ yields => fail_obeys yields.2

theorem expect_obeys : Obeys (course terms) env state (expect kind construct) fun token after =>
      token = state.current ∧ after = state.advance ∧ state.current.kind = kind := by
  refine .read rfl (.ite (fun isKind => ?_) fun _ => reportMissing_fails)
  exact advance_obeys.mono fun _ _ yields => ⟨yields.1, yields.2, eq_of_beq isKind⟩

instance : Movable false terms (expect kind construct) :=
  ⟨expect_obeys.mono fun _ _ _ => ⟨nofun, trivial⟩⟩

theorem Gathered.expect (held : Gathered terms.scope before opening state gathered)
    (isNoEnd : kind ≠ .endOfInput)
    (second : ∀ {after}, Passes state after → Gathered terms.scope (true || before) opening after
      gathered → Obeys (course terms) env after (next state.current) goal) :
    Obeys (course terms) env state (Grammar.expect kind construct >>= next) goal := by
  refine .of_holds fun ready => expect_obeys.bind ?_
  rintro _ _ leads ⟨rfl, rfl, isKind⟩
  refine .of_holds fun readyAfter => ?_
  have passes := ready.passes (isKind ▸ isNoEnd)
  exact second passes (held.later readyAfter leads rfl fun _ => passes.less)

end Failures

/-! ### Tests of the token under the cursor -/

theorem Obeys.check
    (whenFound : state.current.kind = kind → Obeys (course terms) env state yes goal)
    (whenMissing : state.current.kind ≠ kind → Obeys (course terms) env state no goal) :
    Obeys (course terms) env state
      (Grammar.check kind >>= fun found => if found = true then yes else no) goal :=
  .read rfl <| .ite (fun isKind => whenFound (eq_of_beq isKind)) fun isOther =>
    whenMissing fun isKind => isOther (beq_iff_eq.mpr isKind)

theorem Gathered.accept
    (held : Gathered terms.scope before opening state gathered) (isNoEnd : kind ≠ .endOfInput)
    (whenFound : ∀ {after}, Passes state after →
      Gathered terms.scope (true || before) opening after gathered →
        Obeys (course terms) env after yes goal)
    (whenMissing : state.current.kind ≠ kind → Obeys (course terms) env state no goal) :
    Obeys (course terms) env state
      (Grammar.accept kind >>= fun found => if found = true then yes else no) goal := by
  refine .of_holds fun ready => ?_
  by_cases isKind : state.current.kind = kind
  · have runs : Grammar.accept kind env state = (some true, state.advance) :=
      if_pos (beq_iff_eq.mpr isKind)
    refine .step runs Ready.advance Ready.course_advance (.of_holds fun readyAfter => ?_)
    have passes := ready.passes (isKind ▸ isNoEnd)
    exact whenFound passes (held.later readyAfter ready.course_advance rfl fun _ => passes.less)
  · refine .read (if_neg fun isKind' => isKind (eq_of_beq isKind')) ?_
    exact whenMissing isKind

instance : Movable false terms (accept kind) := by
  refine ⟨fun {_ state} => ?_⟩
  by_cases isKind : (state.current.kind == kind) = true
  · exact .of_eq_some (if_pos isKind) Ready.advance Ready.course_advance fun _ => ⟨nofun, trivial⟩
  · exact .of_eq_some (if_neg isKind) id (fun _ => Course.refl _ _ _) fun _ => ⟨nofun, trivial⟩

end JavaFrontEnd.Grammar
