/-
The ways in which parsers are combined keep to the course of a parse: levels, loops, options,
attempts that may fail, and the loops that recover from failures, whose turns are counted.
-/

import JavaFrontEnd.Proofs.Parsing.Steps

namespace JavaFrontEnd.Grammar

open List

variable {terms : Terms} {env : Environment} {scope : Scope} {state after : State}
  {opening : Opening} {before moved : Bool} {gathered nodes : List Node} {α β σ : Type}
  {parser : Parser α} {values : α → List Node} {turn : σ → Parser (Turn σ β)}

/-! ### Levels -/

theorem Reads.congr (same : ∀ value, values value = others value)
    (reads : Reads moved terms env state parser values) :
    Reads moved terms env state parser others :=
  reads.mono fun value _ held => same value ▸ held

theorem Gathered.congr (held : Gathered scope before opening state gathered)
    (tokens : after.tokens = state.tokens) (previous : after.previous = state.previous)
    (consumed : after.consumed = state.consumed) :
    Gathered scope before opening after gathered := by
  obtain ⟨_, _, _, _, _, _, _, _, _, _, _, _, _, _⟩ := after
  cases tokens
  cases previous
  cases consumed
  exact { held with region := fun text isText => { held.region text isText with } }

theorem Obeys.chained (obeys : Obeys (course terms.deepening) env
      { state with levels := state.levels.unlinked } parser good)
    (keeps : ∀ value after, good value after →
      good value { after with levels := after.levels.released state.levels.links }) :
    Obeys (course terms) env state (chained parser) good := by
  intro ready
  have outcome := obeys
    { ready with located := fun text isText => { ready.located text isText with } }
  have leads := outcome.leads
  have holds := outcome.holds
  have levels : Levels.Leads false _ _ := leads.levels.released
  refine ⟨?_, ?_, outcome.fails, fun value isValue => ?_⟩
  · exact { holds with
      floor_le := Nat.le_trans ready.floor_le (Nat.le_of_eq levels.depth_eq.symm)
      depth_le := Nat.le_trans (Nat.le_of_eq levels.depth_eq) ready.depth_le
      located := fun text isText => { holds.located text isText with } }
  · exact { leads with
      levels := leads.levels.released
      onward := fun text isText => { leads.onward text isText with } }
  · exact keeps value _ (outcome.yields value isValue)

theorem Reads.chained (reads : Reads moved terms.deepening env
      { state with levels := state.levels.unlinked } parser values) :
    Reads moved terms env state (chained parser) values :=
  Obeys.chained reads fun _ _ held => held.congr rfl rfl rfl

theorem Reads.deeper (isDeep : terms.scope.floor + 1 ≤ state.depth)
    (reads : Reads moved terms.lower env state parser values) :
    Reads moved terms env state parser fun value => (values value).map Node.lowered := by
  intro ready
  have outcome := reads { ready with floor_le := isDeep }
  have holds := outcome.holds
  refine ⟨?_, { outcome.leads with }, outcome.fails, fun value isValue => ?_⟩
  · exact { holds with floor_le := Nat.le_of_succ_le holds.floor_le }
  · exact (outcome.yields value isValue).lowered

theorem descend_of_lt (isOpen : state.depth < maxDepth) :
    descend env state = (some (), { state with levels := state.levels.opened }) := by
  show (if maxDepth ≤ state.depth then _ else _ : Parser Unit) env state = _
  rw [if_neg (Nat.not_le.2 isOpen)]
  rfl

theorem descend_of_full (isFull : maxDepth ≤ state.depth) :
    descend env state = reject .nestedTooDeeply state.current.span env state :=
  congrFun (congrFun (if_pos isFull : (if _ then _ else _ : Parser Unit) = _) env) state

theorem reject_bind (problem : SyntaxProblem) (span : Span) (next : α → Parser β) :
    Parser.bind (reject problem span) next env state = reject problem span env state := by
  show Parser.bind (Parser.bind (violation problem span) fun _ => Parser.fail) next env state =
    Parser.bind (violation problem span) (fun _ => Parser.fail) env state
  unfold Parser.bind
  rcases violation problem span env state with ⟨_ | _, _⟩ <;> rfl

theorem link_of_lt (isOpen : state.depth < maxDepth) :
    link env state = (some (), { state with levels := state.levels.opened.linked }) := by
  show Parser.bind descend _ env state = _
  rw [Parser.bind, descend_of_lt isOpen]
  rfl

theorem Gathered.link [terms.Fallible] {next : Unit → Parser β}
    (held : Gathered terms.scope before opening state gathered) (deepens : terms.deepens = true)
    (second : ∀ {after}, after.current = state.current → after.consumed = state.consumed →
      terms.scope.floor + 1 ≤ after.depth → Gathered terms.scope before opening after gathered →
      Obeys (course terms) env after (next ()) goal) :
    Obeys (course terms) env state (Grammar.link >>= next) goal := by
  refine .of_holds fun ready => ?_
  have opens : Obeys (course terms) env state Grammar.link fun _ after =>
      after = { state with levels := state.levels.opened.linked } := by
    rcases Nat.lt_or_ge state.depth maxDepth with isLess | isFull
    · refine .of_eq_some (link_of_lt isLess) (fun _ => ?_) (fun _ => ?_) fun _ => rfl
      · exact { ready with
          floor_le := Nat.le_succ_of_le ready.floor_le
          depth_le := isLess
          located := fun text isText => { ready.located text isText with } }
      · exact { Course.refl terms env state with
          levels := deepens ▸ .linked isLess
          onward := fun text isText => { Onward.refl state with } }
    · have runs : Grammar.link env state =
          reject .nestedTooDeeply state.current.span env state := by
        show Parser.bind Grammar.descend _ env state = _
        rw [Parser.bind, descend_of_full isFull]
        exact reject_bind ..
      exact .of_run_eq runs (reject_obeys ready.current)
  refine opens.bind ?_
  rintro _ _ leads rfl
  exact second rfl rfl (Nat.succ_le_succ ready.floor_le) (held.congr rfl rfl rfl)

theorem nested_of_lt (isOpen : state.depth < maxDepth) :
    nested parser env state =
      closing parser env { state with levels := state.levels.opened } := by
  show Parser.bind descend _ env state = _
  rw [Parser.bind, descend_of_lt isOpen]

theorem nested_of_full (isFull : maxDepth ≤ state.depth) :
    nested parser env state = reject .nestedTooDeeply state.current.span env state := by
  show Parser.bind descend _ env state = _
  rw [Parser.bind, descend_of_full isFull]
  exact reject_bind ..

theorem Obeys.nested [terms.Fallible]
    (reads : ∀ state, Reads moved terms.level.lower env state parser values) :
    Obeys (course terms) env state (nested parser) fun value after =>
      terms.scope.floor < maxDepth ∧
        Gathered terms.scope moved state.opening after ((values value).map Node.lowered) := by
  refine .of_holds fun ready => ?_
  rcases Nat.lt_or_ge state.depth maxDepth with isLess | isFull
  · intro _
    rw [nested_of_lt isLess]
    have isDeep := Nat.succ_le_succ ready.floor_le
    have inside := (reads { state with levels := state.levels.opened }).deeper isDeep
    have outcome := inside { ready with
      floor_le := Nat.le_succ_of_le ready.floor_le
      depth_le := isLess
      located := fun text isText => { ready.located text isText with } }
    have leads := outcome.leads
    have holds := outcome.holds
    have levels : Levels.Leads false _ _ := leads.levels.closed isLess
    refine ⟨?_, ?_, outcome.fails, fun value isValue => ?_⟩
    · exact { holds with
        floor_le := Nat.le_trans ready.floor_le (Nat.le_of_eq levels.depth_eq.symm)
        depth_le := Nat.le_trans (Nat.le_of_eq levels.depth_eq) ready.depth_le
        located := fun text isText => { holds.located text isText with } }
    · exact { leads with
        levels := leads.levels.closed isLess
        onward := fun text isText => { leads.onward text isText with } }
    · exact ⟨Nat.lt_of_le_of_lt ready.floor_le isLess,
        (outcome.yields value isValue).congr rfl rfl rfl⟩
  · exact .of_run_eq (nested_of_full isFull) (reject_obeys ready.current)

theorem Reads.nested [terms.Fallible]
    (reads : ∀ state, Reads moved terms.level.lower env state parser values) :
    Reads moved terms env state (nested parser) fun value => (values value).map Node.lowered :=
  (Obeys.nested reads).mono fun _ _ yields => yields.2

instance {allowed : Bool} [readable : Readable moved terms parser values] :
    Readable moved terms (withLambdas allowed parser) values := by
  refine ⟨fun {env state} ready => ?_⟩
  have outcome : (course terms).Outcome env { state with lambdas := allowed } _ _ :=
    readable.reads { ready with located := fun text isText => { ready.located text isText with } }
  have holds := outcome.holds
  have leads := outcome.leads
  refine ⟨?_, ?_, outcome.fails, fun value isValue => ?_⟩
  · exact { holds with located := fun text isText => { holds.located text isText with } }
  · exact { leads with
      lambdas := rfl
      onward := fun text isText => { leads.onward text isText with } }
  · exact (outcome.yields value isValue).congr rfl rfl rfl

instance [readable : Readable moved terms parser values] :
    Readable moved terms (withLabels parser) values := by
  refine ⟨fun {env state} ready => ?_⟩
  have outcome : (course terms).Outcome env { state with labels := {} } _ _ :=
    readable.reads { ready with located := fun text isText => { ready.located text isText with } }
  have holds := outcome.holds
  have leads := outcome.leads
  refine ⟨?_, ?_, outcome.fails, fun value isValue => ?_⟩
  · exact { holds with located := fun text isText => { holds.located text isText with } }
  · exact { leads with onward := fun text isText => { leads.onward text isText with } }
  · exact (outcome.yields value isValue).congr rfl rfl rfl

/-! ### Loops -/

/-- Once the cursor has moved in a turn, the turn may end in any way. -/
theorem Obeys.turning {start : State} {turn : Parser (Turn σ β)} {again : σ → State → Prop}
    {done : β → State → Prop} (less : start.consumed < state.consumed)
    (obeys : Obeys (course terms) env state turn fun outcome after =>
      outcome.Meets (again · after) (done · after)) :
    Obeys (course terms) env state turn fun outcome after =>
      outcome.Meets (fun next => start.consumed < after.consumed ∧ again next after)
        (done · after) := by
  refine obeys.mono fun outcome leads meets => ?_
  cases outcome with
  | again next => exact ⟨Nat.lt_of_lt_of_le less leads.forward, meets⟩
  | done result => exact meets

theorem Obeys.again {again : σ → State → Prop} {done : β → State → Prop}
    (isGood : again value state) :
    Obeys (course terms) env state (Pure.pure (Turn.again value : Turn σ β))
      fun outcome after => outcome.Meets (again · after) (done · after) :=
  .pure isGood

theorem Obeys.done {again : σ → State → Prop} {done : β → State → Prop}
    (isGood : done result state) :
    Obeys (course terms) env state (Pure.pure (Turn.done result : Turn σ β))
      fun outcome after => outcome.Meets (again · after) (done · after) :=
  .pure isGood

/-- A loop that moves the cursor in each turn after which it goes on comes to an end, and what its
turns preserve is true of it. -/
theorem Obeys.iterate (invariant : σ → State → Prop)
    (step : ∀ value state, invariant value state → Obeys (course terms) env state (turn value) fun
      outcome after => outcome.Meets (fun next => state.consumed < after.consumed ∧ invariant next
      after) (goal · after)) (initially : invariant start state) :
    Obeys (course terms) env state (iterate start turn) goal := by
  have loop : ∀ fuel value state, invariant value state → state.following.length < fuel →
      Obeys (course terms) env state (iterateFrom turn fuel value) goal := by
    intro fuel
    induction fuel with
    | zero => exact fun _ _ _ enough => absurd enough (Nat.not_lt_zero _)
    | succ fuel ih =>
      intro value state isInvariant enough ready
      have outcome := step value state isInvariant ready
      unfold iterateFrom
      generalize turn value env state = result at outcome
      obtain ⟨_ | next | result, after⟩ := result
      · exact ⟨outcome.holds, outcome.leads, fun _ => outcome.fails rfl, nofun⟩
      · obtain ⟨less, isInvariant⟩ := outcome.yields _ rfl
        have position := outcome.leads.position
        have shorter : after.following.length < fuel := by
          dsimp only at less position
          omega
        have rest := ih next after isInvariant shorter outcome.holds
        exact { rest with leads := outcome.leads.trans rest.leads }
      · refine ⟨outcome.holds, outcome.leads, nofun, ?_⟩
        rintro _ ⟨⟩
        exact outcome.yields _ rfl
  exact fun ready => loop env.bound start state initially ready.bounded ready

/-- A turn of a loop keeps to the course: if the loop goes on, the cursor has moved, and the nodes
of what it goes on with are gathered, as are those of its result when it ends. -/
abbrev GathersTurn (before moved : Bool) (terms : Terms) (env : Environment)
    (opening : Opening) (state : State) (turn : Parser (Turn σ β)) (listed : σ → List Node)
    (results : β → List Node) : Prop :=
  Obeys (course terms) env state turn fun outcome after => outcome.Meets
    (fun next => state.consumed < after.consumed ∧
      Gathered terms.scope before opening after (listed next))
    fun result => Gathered terms.scope moved opening after (results result)

theorem Gathered.loop {start : σ} (listed : σ → List Node)
    (held : Gathered terms.scope before opening state (listed start))
    (step : ∀ value state, Gathered terms.scope before opening state (listed value) → GathersTurn
      before moved terms env opening state (turn value) listed results) :
    Gathers moved terms env opening state (iterate start turn) results :=
  .iterate _ step held

theorem State.ne_endOfInput (isOther : ¬(other || state.current.kind == .endOfInput) = true) :
    state.current.kind ≠ .endOfInput := fun isEnd =>
  isOther (Bool.or_eq_true_iff.mpr (.inr (beq_iff_eq.mpr isEnd)))

theorem Gathered.snoc {found : List α} {next : α}
    (held : Gathered scope before opening state (found.reverse.map node ++ [node next])) :
    Gathered scope before opening state ((next :: found).reverse.map node) := by
  rwa [reverse_cons, map_append]

class Listed (values : α → List Node) (listed : outParam (List α → List Node)) : Prop where
  eq_flatMap : ∀ list, listed list = list.flatMap values

instance {node : α → Node} : Listed (fun value => [node value]) (map node) :=
  ⟨fun _ => map_eq_flatMap⟩

section Lists

variable {listed : List α → List Node} [isListed : Listed values listed]
include isListed

theorem Listed.nil : listed [] = [] :=
  isListed.eq_flatMap []

theorem Listed.reverse_cons (first : α) (rest : List α) :
    listed (first :: rest).reverse = listed rest.reverse ++ values first := by
  simp [isListed.eq_flatMap]

variable [readable : Readable true terms parser values]
include readable

instance : Readable true terms (commaSeparated parser) listed := by
  refine .start fun held => ?_
  rw [← isListed.nil] at held
  refine held.loop (fun items => listed items.reverse) fun items state held => ?_
  refine held.reads readable.reads fun next new held => .turning (new.advanced rfl) ?_
  rw [← isListed.reverse_cons] at held
  exact held.accept nofun (fun _ held => .again held.forget) fun _ => .done held

instance {close : TokenKind} : Readable false terms (commaSeparatedBefore close parser) listed := by
  refine .start fun held => .check (fun _ => .pure <| isListed.nil.symm ▸ held) fun _ => ?_
  exact Readable.reads.mono fun _ _ held => held.forget

theorem Reads.separatedUntil {close : TokenKind} (isNoEnd : separator ≠ .endOfInput) :
    Reads false terms env state (separatedUntil close separator parser) listed := by
  refine .start fun held => ?_
  rw [← isListed.nil] at held
  refine held.loop (fun items => listed items.reverse) fun items state held => ?_
  refine .read rfl (.read rfl (.ite (fun _ => .done held) fun _ => ?_))
  refine held.reads readable.reads fun next new held => .turning (new.advanced rfl) ?_
  rw [← isListed.reverse_cons] at held
  exact held.accept isNoEnd (fun _ held => .again held.forget) fun _ => .done held.forget

end Lists

/-! ### Options -/

class Optional (values : α → List Node) (optional : outParam (Option α → List Node)) : Prop where
  isNone : optional none = []
  isSome : ∀ value, optional (some value) = values value

section Options

variable {optional : Option α → List Node} {kind : TokenKind}
  [readable : Readable moved terms parser values] [isOptional : Optional values optional]
include readable isOptional

instance : Readable moved terms (do let value ← parser; pure (some value)) optional :=
  ⟨Obeys.bind readable.reads fun value _ held => .pure <| (isOptional.isSome value).symm ▸ held⟩

instance : Readable false terms (optionalAt kind parser) optional := by
  refine .start fun held => .check (fun _ => ?_) fun _ => .pure <| isOptional.isNone.symm ▸ held
  exact Readable.reads.mono fun _ _ held => held.forget

instance : Readable false terms (optionalUnless kind parser) optional := by
  refine .start fun held => .check (fun _ => .pure <| isOptional.isNone.symm ▸ held) ?_
  exact fun _ => Readable.reads.mono fun _ _ held => held.forget

theorem Reads.optionalAfter (isNoEnd : kind ≠ .endOfInput) :
    Reads false terms env state (optionalAfter kind parser) optional := by
  refine .start fun held => held.accept isNoEnd (fun _ held => ?_) fun _ => ?_
  · refine held.past fun value held => .pure ?_
    rw [isOptional.isSome value]
    exact held.forget
  · exact .pure <| isOptional.isNone.symm ▸ held

end Options

variable {good : α → State → Prop}

/-! ### Attempts and recovery -/

theorem Obeys.attempt {next : Option α → Parser β}
    (first : Obeys (course terms.failing) env state parser good)
    (whenSome : ∀ {after} value, Course terms env state after → good value after → Obeys (course
      terms) env after (next (some value)) goal)
    (whenNone : ∀ {after}, Course terms env state after → Obeys (course terms) env after (next none)
      goal) : Obeys (course terms) env state (Parser.attempt parser >>= next) goal := by
  intro ready
  have outcome := first ready
  have run : (Parser.attempt parser >>= next) env state =
      Parser.bind (Parser.attempt parser) next env state := rfl
  rw [run]
  unfold Parser.bind Parser.attempt
  generalize parser env state = result at outcome
  have holds := outcome.holds
  have leads := outcome.leads
  obtain ⟨_ | value, after⟩ := result
  · have course : Course terms env state
        { after with abandoned := after.consumed :: after.abandoned } :=
      { leads with
        abandoned := fun honest => .inr ((outcome.fails rfl).2 honest)
        onward := fun text isText => { leads.onward text isText with } }
    have rest := whenNone course
      { holds with located := fun text isText => { holds.located text isText with } }
    exact { rest with leads := course.trans rest.leads }
  · have course : Course terms env state after := { leads with }
    have rest := whenSome value course (outcome.yields value rfl) holds
    exact { rest with leads := course.trans rest.leads }

def recovered (values : α → List Node) : Option α → List Node
  | none => []
  | some value => values value

theorem Reads.recovering [Movable false terms resynchronise]
    (isNoEnd : state.current.kind ≠ .endOfInput)
    (reads : Reads true terms.failing env state parser values) :
    Reads true terms env state (recovering parser resynchronise) (recovered values) := by
  refine .start fun held => .read rfl ?_
  refine .attempt reads (fun value _ held => .pure held) fun leads => ?_
  refine .of_holds fun ready => ?_
  refine Movable.moves.bind fun {resumed} _ skipped _ => .of_holds fun readyThen => ?_
  have course := Course.trans leads skipped
  refine .read rfl (.ite (fun isSame => ?_) fun isOther => ?_)
  · -- nothing was passed, so that the token under the cursor is still no end mark
    have held := held.kept readyThen course rfl
    exact held.advance (course.awake isSame isNoEnd) fun _ held => .pure held
  · have less : state.consumed < resumed.consumed :=
      Nat.lt_of_le_of_ne course.forward (Ne.symm isOther)
    exact .pure <| held.passed readyThen course rfl less

/-! ### Counted turns -/

theorem State.skipToEnd_cases (state : State) : state.following = [] ∧ state.skipToEnd = state ∨
    ∃ between last final, state.tokens = between ++ [last, final] ∧ state.skipToEnd = { state with
        current := final, following := [], previous := some last,
        consumed := state.consumed + state.following.length } := by
  unfold State.skipToEnd State.tokens
  rcases eq_nil_or_concat state.following with isNone | ⟨between, final, isFollowing⟩
  · rw [isNone]
    exact .inl ⟨rfl, rfl⟩
  rw [isFollowing]
  rcases eq_nil_or_concat between with rfl | ⟨between, last, rfl⟩
  · exact .inr ⟨[], state.current, final, rfl, rfl⟩
  · refine .inr ⟨state.current :: between, last, final, ?_, ?_⟩
    · simp
    · simp

theorem Ready.skipToEnd (ready : Ready scope env state) :
    state.skipToEnd.current.kind = .endOfInput ∧ Ready scope env state.skipToEnd ∧
      (state.current.kind = .endOfInput ∧ state.skipToEnd = state ∨
        ∃ last, Jump state state.skipToEnd last) := by
  have ended := ready.ended
  rcases state.skipToEnd_cases with ⟨isNone, isSame⟩ | ⟨between, last, final, isTokens, isSkip⟩
  · unfold State.tokens at ended
    rw [isNone] at ended
    have isEnd : state.current.kind = .endOfInput := Option.some.inj ended
    rw [isSame]
    exact ⟨isEnd, ready, .inl ⟨isEnd, rfl⟩⟩
  have isSplit : state.tokens = (between ++ [last]) ++ [final] := by
    rw [isTokens, append_assoc]
    rfl
  have isSuffix : [final] <:+ state.following := by
    have tail := congrArg tail isSplit
    rw [tail_append_of_ne_nil (by simp)] at tail
    exact ⟨_, tail.symm⟩
  rw [isSplit, getLast?_concat] at ended
  have isEnd : final.kind = .endOfInput := Option.some.inj ended
  have jump : Jump state state.skipToEnd last := by
    rw [isSkip]
    refine ⟨isSuffix, ?_, rfl, rfl⟩
    rw [isTokens]
    simp
  rw [isSkip] at jump ⊢
  refine ⟨isEnd, ?_, .inr ⟨last, jump⟩⟩
  refine
    { ended := congrArg some isEnd, bounded := Nat.lt_of_le_of_lt (Nat.zero_le _) ready.bounded,
      floor_le := ready.floor_le, depth_le := ready.depth_le, listed := ready.listed,
      unnamed := ready.unnamed, fits := ready.fits,
      located := fun text isText => jump.located (ready.located text isText) ?_ rfl rfl }
  have ordered := (ready.located text isText).ordered
  rw [isTokens] at ordered
  exact (isChain_cons_cons.mp ordered.right_of_append).1

theorem Ready.course_skipToEnd (ready : Ready terms.scope env state) :
    Course terms env state state.skipToEnd := by
  obtain ⟨_, _, ⟨_, isSame⟩ | ⟨last, jump⟩⟩ := ready.skipToEnd
  · rw [isSame]
    exact .refl terms env state
  · rcases state.skipToEnd_cases with ⟨_, isSkip⟩ | ⟨_, _, _, _, isSkip⟩
    · rw [isSkip]
      exact .refl terms env state
    · rw [isSkip] at jump ⊢
      exact jump.course ready rfl rfl rfl rfl rfl rfl

theorem Ready.stop (ready : Ready scope env state) :
    state.stop.current.kind = .endOfInput ∧ Ready scope env state.stop := by
  obtain ⟨isEnd, holds, _⟩ := ready.skipToEnd
  exact ⟨isEnd, { holds with located := fun text isText => { holds.located text isText with } }⟩

theorem Ready.course_stop (ready : Ready terms.scope env state)
    (isOver : maxSteps < state.steps) : Course terms env state state.stop := by
  have course : Course terms env state state.skipToEnd := ready.course_skipToEnd
  exact { course with
    usedUp := fun _ => .inr (Nat.lt_of_lt_of_le isOver course.counted)
    onward := fun text isText => { course.onward text isText with } }

def State.counted (state : State) : State :=
  { state with steps := state.steps + 1 }

theorem Ready.counted (ready : Ready scope env state) : Ready scope env state.counted :=
  { ready with located := fun text isText => { ready.located text isText with } }

/-- What follows a counted turn is paid for when it passes a token and keeps two turns back. -/
theorem Course.of_counted (course : Course terms.saving env state.counted after)
    (less : state.consumed < after.consumed) : Course terms.counting env state after :=
  { course with
    counted := Nat.le_trans (Nat.le_succ _) course.counted
    paid := by
      have saved := course.prepaid rfl
      unfold State.counted at saved
      dsimp only at saved
      omega
    prepaid := nofun
    onward := fun text isText => { course.onward text isText with } }

theorem Obeys.exists_value (obeys : Obeys (course terms.surely) env state parser good)
    (ready : Ready terms.scope env state) :
    ∃ value after, parser env state = (some value, after) ∧ good value after ∧
      Ready terms.scope env after ∧ Course terms env state after := by
  have outcome := obeys ready
  generalize parser env state = result at outcome
  obtain ⟨_ | value, after⟩ := result
  · exact nomatch (outcome.fails rfl).1
  · exact ⟨value, after, rfl, outcome.yields value rfl, outcome.holds, { outcome.leads with }⟩

theorem exhausted_bind :
    (exhausted >>= fun stop => if stop = true then done else go) env state =
      if maxSteps < state.counted.steps then done env state.counted.stop
      else go env state.counted := by
  change Parser.bind exhausted _ env state = _
  unfold Parser.bind
  by_cases isOver : maxSteps < state.counted.steps
  · rw [show exhausted env state = (some true, _) from if_pos isOver, if_pos isOver]
    rfl
  · rw [show exhausted env state = (some false, _) from if_neg isOver, if_neg isOver]
    rfl

/-- A turn of a loop that recovers from failures: either the count is used up and the cursor at the
end, or the turn goes on and passes a token. -/
theorem Gathered.count (held : Gathered terms.scope before opening state gathered)
    (isNoEnd : state.current.kind ≠ .endOfInput)
    (whenStopped : ∀ {after}, maxSteps < state.counted.steps → after = state.counted.stop → Gathered
      terms.counting.scope before opening after gathered → Obeys (course terms.counting) env after
      done goal)
    (whenGoing : Gathered terms.saving.surely.scope before opening state.counted gathered → Obeys
      (course terms.saving.surely) env state.counted go fun value after => state.consumed <
      after.consumed ∧ goal value after) :
    Obeys (course terms.counting) env state
      (exhausted >>= fun stop => if stop = true then done else go) goal := by
  refine .of_holds fun ready => ?_
  have counted : Gathered terms.scope before opening state.counted gathered :=
    held.congr rfl rfl rfl
  by_cases isOver : maxSteps < state.counted.steps
  · obtain ⟨isEnd, readyThen⟩ := ready.counted.stop
    have stops : Course terms.saving env state.counted state.counted.stop :=
      Ready.course_stop ready.counted isOver
    have course := stops.of_counted (stops.consumed_lt_of_end isNoEnd isEnd)
    refine .step (if_pos isOver) (fun _ => readyThen) (fun _ => course) ?_
    have held := held.kept readyThen course rfl
    exact whenStopped isOver rfl held
  · obtain ⟨value, later, runs, ⟨less, isGood⟩, readyThen, course⟩ :=
      (whenGoing counted).exists_value ready.counted
    exact .of_eq_some ((exhausted_bind.trans (if_neg isOver)).trans runs) (fun _ => readyThen)
      (fun _ => course.of_counted less) fun _ => isGood

/-! ### Parts that open with a token -/

/-- A part that opens with a token may use up all that its other tokens pay for: what the first one
pays for is kept back. -/
theorem Course.opened (one : Course terms env first second)
    (less : first.consumed < second.consumed) (two : Course terms.counting env second third) :
    Course terms env first third := by
  have counts : Course terms.counting env first second := { one with prepaid := nofun }
  have whole := counts.trans two
  refine { whole with prepaid := fun saves => .inr ?_ }
  have paid := two.paid
  have saved := one.prepaid saves
  omega

theorem Obeys.bindOpened {next : α → Parser β} (good : α → State → Prop)
    (first : Obeys (course terms) env state parser fun value after => state.consumed <
      after.consumed ∧ good value after)
    (second : ∀ {after} value, Course terms env state after → good value after → Obeys (course
      terms.counting) env after (next value) goal) :
    Obeys (course terms) env state (parser >>= next) goal := by
  refine first.bindFrom fun {after} value ready leads yields => ?_
  have rest := second value leads yields.2 ready
  exact ⟨rest.holds, Course.opened leads yields.1 rest.leads, rest.fails, rest.yields⟩

theorem Gathered.readsOpened {next : α → Parser β}
    (held : Gathered terms.scope before opening state gathered)
    (first : Reads true terms env state parser values)
    (second : ∀ {after} value, Gathered terms.scope true state.opening after (values value) →
      Gathered terms.counting.scope (true || before) opening after (gathered ++ values value) →
      Obeys (course terms.counting) env after (next value) goal) :
    Obeys (course terms) env state (parser >>= next) goal := by
  refine Obeys.bindOpened (fun value after =>
    Gathered terms.scope true state.opening after (values value))
    (first.mono fun _ _ new => ⟨new.advanced rfl, new⟩) fun {after} value leads new => ?_
  refine .of_holds fun ready => second value new ?_
  exact held.widen new (held.later ready leads rfl new.advanced)

theorem Gathered.expectOpened [terms.Fallible] {next : Token → Parser β}
    (held : Gathered terms.scope before opening state gathered) (isNoEnd : kind ≠ .endOfInput)
    (second : ∀ {after}, Passes state after → Gathered terms.counting.scope (true || before) opening
      after gathered → Obeys (course terms.counting) env after (next state.current) goal) :
    Obeys (course terms) env state (Grammar.expect kind construct >>= next) goal := by
  refine .of_holds fun ready => ?_
  refine Obeys.bindOpened (fun token after => token = state.current ∧
    after = state.advance ∧ state.current.kind = kind) (expect_obeys.mono ?_) ?_
  · rintro _ _ _ ⟨rfl, rfl, isKind⟩
    exact ⟨(ready.jump (isKind ▸ isNoEnd)).consumed_lt, rfl, rfl, isKind⟩
  · rintro _ _ leads ⟨rfl, rfl, isKind⟩
    refine .of_holds fun readyAfter => ?_
    have passes := ready.passes (isKind ▸ isNoEnd)
    exact second passes (held.later readyAfter leads rfl fun _ => passes.less)

theorem Gathered.advanceOpened {next : Token → Parser β}
    (held : Gathered terms.scope before opening state gathered)
    (isNoEnd : state.current.kind ≠ .endOfInput)
    (second : ∀ {after}, Passes state after → Gathered terms.counting.scope (true || before) opening
      after gathered → Obeys (course terms.counting) env after (next state.current) goal) :
    Obeys (course terms) env state (Grammar.advance >>= next) goal := by
  refine .of_holds fun ready => ?_
  have passes := ready.passes isNoEnd
  refine Obeys.bindOpened (fun token after => token = state.current ∧
    after = state.advance) (advance_obeys.mono ?_) ?_
  · rintro _ _ _ ⟨rfl, rfl⟩
    exact ⟨passes.less, rfl, rfl⟩
  · rintro _ _ leads ⟨rfl, rfl⟩
    exact .of_holds fun readyAfter =>
      second passes (held.later readyAfter leads rfl fun _ => passes.less)

/-! ### Turns that are counted first -/

theorem Course.prepay (course : Course terms.counting env first second)
    (credit : second.steps + 1 + 2 * first.consumed ≤ first.steps + 2 * second.consumed) :
    Course terms.counting env first second.counted :=
  { course with
    counted := Nat.le_succ_of_le course.counted
    paid := credit
    prepaid := nofun
    usedUp := fun isUsedUp => (course.usedUp isUsedUp).imp_right Nat.lt_succ_of_lt
    onward := fun text isText => { course.onward text isText with } }

/-- A loop whose turns are counted before anything else. Each turn that goes on passes a token; one
token that was passed before pays for the last turn. -/
theorem Gathered.loopCounted {go : σ → Parser (Turn σ β)} (finish : σ → β) (listed : σ → List Node)
    (results : β → List Node) (finishes : ∀ value, results (finish value) = listed value)
    (step : ∀ value state, Gathered terms.saving.surely.scope before opening state (listed value) →
      GathersTurn before before terms.saving.surely env opening state (go value) listed results)
    (fuel : Nat) : ∀ value state, Ready terms.scope env state →
      Course terms.counting env first state →
      state.steps + 1 + 2 * first.consumed ≤ first.steps + 2 * state.consumed →
      Gathered terms.scope before opening state (listed value) → state.following.length < fuel →
      (course terms.counting).Outcome env first (iterateFrom (fun value => exhausted >>= fun stop =>
          if stop = true then pure (.done (finish value)) else go value) fuel value
          env state)
        fun result after => Gathered terms.scope before opening after (results result) := by
  induction fuel with
  | zero => exact fun _ _ _ _ _ _ enough => absurd enough (Nat.not_lt_zero _)
  | succ fuel ih =>
    intro value state ready course credit held enough
    have counted : Gathered terms.scope before opening state.counted (listed value) :=
      held.congr rfl rfl rfl
    have leads := course.prepay credit
    unfold iterateFrom
    rw [exhausted_bind]
    by_cases isOver : maxSteps < state.counted.steps
    · obtain ⟨_, readyThen⟩ := ready.counted.stop
      have skips : Course terms.counting env state.counted state.counted.stop :=
        Ready.course_stop ready.counted isOver
      rw [if_pos isOver]
      refine ⟨readyThen, leads.trans skips, nofun, ?_⟩
      rintro _ ⟨⟩
      rw [finishes]
      exact counted.kept readyThen skips rfl
    · obtain ⟨outcome, later, isOutcome, meets, readyThen, further⟩ :=
        (step value state.counted counted).exists_value ready.counted
      rw [if_neg isOver, isOutcome]
      have leads := leads.trans { further with prepaid := nofun }
      cases outcome with
      | again next =>
        obtain ⟨less, held⟩ := meets
        refine ih next later readyThen leads ?_ held ?_
        · have saved := further.prepaid rfl
          unfold State.counted at saved less
          dsimp only at saved less
          omega
        · have position := further.position
          unfold State.counted at position less
          dsimp only at position less
          omega
      | done result =>
        refine ⟨readyThen, leads, nofun, ?_⟩
        rintro _ ⟨⟩
        exact meets

end JavaFrontEnd.Grammar
