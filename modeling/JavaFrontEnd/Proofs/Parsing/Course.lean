/-
The course of a parse. The cursor only moves forward, the levels that a production opens are closed
again, every failure has been reported, and the turns of the loops that recover from failures are
paid for by tokens: two for each token that is passed. Where the tokens were cut from a known text,
the places that the cursor comes to are true of that text.
-/

import JavaFrontEnd.Grammar.Unit
import JavaFrontEnd.Proofs.Tree.Holds

namespace JavaFrontEnd.Grammar

/-! Laws of parsing. A law says what is true of every state of a parse, how a state is related to
those before it, and what is known after a failure. The rules below follow the way in which parsers
are put together, so that a law is checked by going through a production once, from its first step
to its last. -/

section

structure Law where
  holds : Environment → State → Prop
  leads : Environment → State → State → Prop
  fails : Environment → State → Prop
  refl : ∀ env state, leads env state state
  trans : ∀ {env first second third}, leads env first second →
    leads env second third → leads env first third

variable {α β σ : Type}

/-- What a law says about the result of a run that began in a state. -/
structure Law.Outcome (law : Law) (env : Environment) (state : State)
    (result : Option α × State) (good : α → State → Prop) : Prop where
  holds : law.holds env result.2
  leads : law.leads env state result.2
  fails : result.1 = none → law.fails env result.2
  yields : ∀ value, result.1 = some value → good value result.2

/-- From a state on, a parser keeps to a law and yields only good values. -/
def Obeys (law : Law) (env : Environment) (state : State) (parser : Parser α)
    (good : α → State → Prop) : Prop :=
  law.holds env state → law.Outcome env state (parser env state) good

namespace Obeys

variable {law : Law} {env : Environment} {state : State} {parser : Parser α}
  {good better : α → State → Prop} {value : α} {next : α → Parser β} {middle : α → State → Prop}

theorem of_eq_some (runs : parser env state = (some value, after))
    (holds : law.holds env state → law.holds env after)
    (leads : law.holds env state → law.leads env state after)
    (isGood : law.holds env state → good value after) : Obeys law env state parser good := by
  intro before
  rw [runs]
  refine ⟨holds before, leads before, nofun, ?_⟩
  rintro _ ⟨⟩
  exact isGood before

theorem pure (isGood : good value state) : Obeys law env state (pure value) good :=
  .of_eq_some rfl id (fun _ => law.refl env state) fun _ => isGood

theorem fail (told : law.holds env state → law.fails env state) :
    Obeys law env state (Parser.fail : Parser α) good :=
  fun before => ⟨before, law.refl env state, fun _ => told before, nofun⟩

theorem mono (obeys : Obeys law env state parser better)
    (implies : ∀ {after} value, law.leads env state after → better value after → good value after) :
    Obeys law env state parser good := by
  intro before
  have outcome := obeys before
  exact { outcome with
    yields := fun value isValue => implies value outcome.leads (outcome.yields value isValue) }

theorem of_holds (obeys : law.holds env state → Obeys law env state parser good) :
    Obeys law env state parser good :=
  fun before => obeys before before

theorem traced (obeys : Obeys law env state parser good) :
    Obeys law env state parser fun value after =>
      parser env state = (some value, after) ∧ good value after := by
  intro before
  have outcome := obeys before
  refine { outcome with yields := fun value isValue => ⟨?_, outcome.yields value isValue⟩ }
  exact Prod.ext isValue rfl

theorem of_run_eq (runs : parser env state = other env state)
    (obeys : Obeys law env state other good) : Obeys law env state parser good := by
  intro before
  rw [runs]
  exact obeys before

theorem bindFrom {good : β → State → Prop} (first : Obeys law env state parser middle)
    (second : ∀ {after} value, law.holds env after → law.leads env state after →
      middle value after → law.Outcome env state (next value env after) good) :
    Obeys law env state (parser >>= next) good := by
  intro before
  have outcome := first before
  change law.Outcome env state (Parser.bind parser next env state) good
  unfold Parser.bind
  generalize parser env state = result at outcome
  obtain ⟨value | value, after⟩ := result
  · exact ⟨outcome.holds, outcome.leads, fun _ => outcome.fails rfl, nofun⟩
  · exact second value outcome.holds outcome.leads (outcome.yields value rfl)

theorem bind {good : β → State → Prop} (first : Obeys law env state parser middle)
    (second : ∀ {after} value, law.leads env state after → middle value after →
      Obeys law env after (next value) good) :
    Obeys law env state (parser >>= next) good := by
  refine first.bindFrom fun {after} value holds leads isMiddle => ?_
  have rest := second value leads isMiddle holds
  exact { rest with leads := law.trans leads rest.leads }

theorem step {good : β → State → Prop} {after : State}
    (runs : parser env state = (some value, after))
    (holds : law.holds env state → law.holds env after)
    (leads : law.holds env state → law.leads env state after)
    (second : Obeys law env after (next value) good) :
    Obeys law env state (parser >>= next) good := by
  have same : (parser >>= next) env state = next value env after := by
    change Parser.bind parser next env state = _
    unfold Parser.bind
    rw [runs]
  intro before
  have rest := second (holds before)
  rw [same]
  exact { rest with leads := law.trans (leads before) rest.leads }

theorem read {good : β → State → Prop} (reads : parser env state = (some value, state))
    (second : Obeys law env state (next value) good) :
    Obeys law env state (parser >>= next) good :=
  .step reads id (fun _ => law.refl env state) second

theorem ite [Decidable condition] (whenTrue : condition → Obeys law env state yes good)
    (whenFalse : ¬condition → Obeys law env state no good) :
    Obeys law env state (if condition then yes else no) good := by
  split
  next isTrue => exact whenTrue isTrue
  next isFalse => exact whenFalse isFalse

end Obeys

def Turn.Meets (again : σ → Prop) (done : β → Prop) : Turn σ β → Prop
  | .again value => again value
  | .done result => done result

end

structure Scope where
  floor : Nat
  /-- The text that the tokens were cut from, if spans are followed at all. -/
  text : Option (List Char)

def Scope.Knows (scope : Scope) (span : Span) : Prop :=
  ∀ text ∈ scope.text, span.IsTrue text

theorem Scope.Knows.cover {scope : Scope} (one : scope.Knows first) (two : scope.Knows second) :
    scope.Knows (first.cover second) :=
  fun text isText => (one text isText).cover (two text isText)

structure Terms where
  counts : Bool
  deepens : Bool
  /-- What fails has been reported. -/
  honest : Bool
  fallible : Bool
  scope : Scope

namespace Terms

class Fallible (terms : Terms) : Prop where
  isFallible : terms.fallible = true

def counting (terms : Terms) : Terms :=
  { terms with counts := true }

def saving (terms : Terms) : Terms :=
  { terms with counts := false }

def deepening (terms : Terms) : Terms :=
  { terms with deepens := true }

def level (terms : Terms) : Terms :=
  { terms with deepens := false }

def failing (terms : Terms) : Terms :=
  { terms with fallible := true }

def surely (terms : Terms) : Terms :=
  { terms with fallible := false }

def lower (terms : Terms) : Terms :=
  { terms with scope := { terms.scope with floor := terms.scope.floor + 1 } }

instance (terms : Terms) [isFallible : terms.Fallible] : terms.counting.Fallible :=
  ⟨isFallible.isFallible⟩

instance (terms : Terms) [isFallible : terms.Fallible] : terms.deepening.Fallible :=
  ⟨isFallible.isFallible⟩

instance (terms : Terms) [isFallible : terms.Fallible] : terms.level.Fallible :=
  ⟨isFallible.isFallible⟩

instance (terms : Terms) : terms.failing.Fallible :=
  ⟨rfl⟩

instance (terms : Terms) [isFallible : terms.Fallible] : terms.lower.Fallible :=
  ⟨isFallible.isFallible⟩

end Terms

/-! ### Places -/

namespace State

def front (state : State) : Nat :=
  state.current.span.start.offset

def reach (state : State) : Nat :=
  state.current.span.stop.offset

def lastFront (state : State) : Nat :=
  state.last.span.start.offset

def lastReach (state : State) : Nat :=
  state.last.span.stop.offset

end State

/-- A token was cut from a text. Of one whose first angle bracket may be taken off, the rest is
known. -/
structure Stands (text : List Char) (token : Token) : Prop where
  cut : ∃ before after, text = before ++ token.lexeme.toList ++ after ∧
    token.span = ⟨.after before, .after (before ++ token.lexeme.toList)⟩
  angle : ∀ rest, afterAngle? token.kind = some rest → token.lexeme.toList = '>' :: rest.2.toList
  solid : token.kind ≠ .endOfInput → token.lexeme.toList ≠ []

structure Located (text : List Char) (state : State) : Prop where
  stand : ∀ token ∈ state.tokens, Stands text token
  ordered : state.tokens.IsChain fun first second =>
    first.span.stop.offset ≤ second.span.start.offset
  /-- Only the last token is an end mark. -/
  inner : ∀ token ∈ state.tokens.dropLast, token.kind ≠ .endOfInput
  previous : ∀ token ∈ state.previous, token.span.IsTrue text ∧ token.span.stop.offset ≤ state.front
  found : ∀ diagnostic ∈ state.found, diagnostic.span.IsTrue text
  arguments : ∀ arguments ∈ state.annotationArguments.toList, ∀ argument ∈ arguments,
    argument.node.Sound text

/-- How the places in a state are related to those in a later one. -/
structure Onward (earlier later : State) : Prop where
  front : earlier.front ≤ later.front
  reach : earlier.reach ≤ later.reach
  lastFront : earlier.lastFront ≤ later.lastFront
  lastReach : earlier.lastReach ≤ later.lastReach
  begun : earlier.previous.isSome = true → later.previous.isSome = true
  /-- A token that was passed is not empty. -/
  ahead : earlier.consumed < later.consumed → earlier.front < later.front
  /-- A token that was passed is not after the last one. -/
  passed : earlier.consumed < later.consumed → earlier.front ≤ later.lastFront ∧
    earlier.reach ≤ later.lastReach ∧ later.previous.isSome = true

namespace Onward

theorem refl (state : State) : Onward state state where
  front := Nat.le_refl _
  reach := Nat.le_refl _
  lastFront := Nat.le_refl _
  lastReach := Nat.le_refl _
  begun := id
  ahead less := absurd less (Nat.lt_irrefl _)
  passed less := absurd less (Nat.lt_irrefl _)

theorem trans (one : Onward first second) (two : Onward second third) : Onward first third where
  front := Nat.le_trans one.front two.front
  reach := Nat.le_trans one.reach two.reach
  lastFront := Nat.le_trans one.lastFront two.lastFront
  lastReach := Nat.le_trans one.lastReach two.lastReach
  begun := two.begun ∘ one.begun
  ahead less := by
    rcases Nat.lt_or_ge first.consumed second.consumed with early | late
    · exact Nat.lt_of_lt_of_le (one.ahead early) two.front
    · exact Nat.lt_of_le_of_lt one.front (two.ahead (Nat.lt_of_le_of_lt late less))
  passed less := by
    rcases Nat.lt_or_ge first.consumed second.consumed with early | late
    · obtain ⟨front, reach, begun⟩ := one.passed early
      exact ⟨Nat.le_trans front two.lastFront, Nat.le_trans reach two.lastReach, two.begun begun⟩
    · obtain ⟨front, reach, begun⟩ := two.passed (Nat.lt_of_le_of_lt late less)
      exact ⟨Nat.le_trans one.front front, Nat.le_trans one.reach reach, begun⟩

theorem unmoved {earlier later : State} (tokens : later.tokens = earlier.tokens)
    (previous : later.previous = earlier.previous) (consumed : later.consumed = earlier.consumed) :
    Onward earlier later := by
  have current := (List.cons.inj tokens).1
  have last : later.last = earlier.last := by
    unfold State.last
    rw [previous, current]
  exact
    { front := by unfold State.front; rw [current]
      reach := by unfold State.reach; rw [current]
      lastFront := by unfold State.lastFront; rw [last]
      lastReach := by unfold State.lastReach; rw [last]
      begun := by rw [previous]; exact id
      ahead := fun less => absurd less (by rw [consumed]; exact Nat.lt_irrefl _)
      passed := fun less => absurd less (by rw [consumed]; exact Nat.lt_irrefl _) }

end Onward

/-! ### The law of the course -/

def Told (env : Environment) (state : State) : Prop :=
  1 ≤ env.configuration.maxSyntaxErrors → state.reported ≠ []

/-- What is true of every state: the tokens end with an end mark, no loop can run out of turns,
enough levels are open and not too many, and what is kept beside the tree is in order. -/
structure Ready (scope : Scope) (env : Environment) (state : State) : Prop where
  ended : state.tokens.getLast?.map Token.kind = some .endOfInput
  bounded : state.following.length < env.bound
  floor_le : scope.floor ≤ state.depth
  depth_le : state.depth ≤ maxDepth
  listed : state.reported ≠ [] → state.found ≠ []
  /-- The file of a problem is named when the parse is over. -/
  unnamed : ∀ diagnostic ∈ state.found, diagnostic.file = ""
  fits : ∀ arguments ∈ state.annotationArguments.toList, ∀ argument ∈ arguments,
    argument.node.Fits 0
  located : ∀ text ∈ scope.text, Located text state

/-- How the open levels are related to later ones. The links of the innermost chain account for
the levels that were left open, and the count stays in its bounds; unless a chain may be linked,
all levels that were opened are closed again. -/
structure Levels.Leads (deepens : Bool) (earlier later : Levels) : Prop where
  level : deepens = false → later.links = earlier.links
  balance : later.depth + earlier.links = earlier.depth + later.links
  strayed : later.strayed = earlier.strayed

namespace Levels.Leads

variable {levels earlier middle later : Levels}

theorem refl (deepens : Bool) (levels : Levels) : levels.Leads deepens levels :=
  ⟨fun _ => rfl, rfl, rfl⟩

theorem trans (one : earlier.Leads deepens middle) (two : middle.Leads deepens later) :
    earlier.Leads deepens later where
  level closed := (two.level closed).trans (one.level closed)
  balance := by
    have oneBalance := one.balance
    have twoBalance := two.balance
    omega
  strayed := two.strayed.trans one.strayed

theorem depth_eq (leads : earlier.Leads false later) : later.depth = earlier.depth := by
  have balance := leads.balance
  rw [leads.level rfl] at balance
  exact Nat.add_right_cancel balance

theorem deepening (leads : earlier.Leads false later) : earlier.Leads true later :=
  { leads with level := fun isFalse => Bool.noConfusion isFalse }

theorem strayed_opened (isLess : levels.depth < maxDepth) :
    levels.opened.strayed = levels.strayed := by
  have isOpen : ¬ maxDepth < levels.depth + 1 := Nat.not_lt.mpr isLess
  simp [Levels.opened, isOpen]

/-- A link opens one level and is counted once. -/
theorem linked (isLess : levels.depth < maxDepth) : levels.Leads true levels.opened.linked where
  level := nofun
  balance := Nat.succ_add_eq_add_succ ..
  strayed := strayed_opened isLess

/-- The level that was opened before a part is closed after it. -/
theorem closed (isLess : earlier.depth < maxDepth) (leads : earlier.opened.Leads false later) :
    earlier.Leads deepens (later.closed 1) := by
  have depth : later.depth = earlier.depth + 1 := leads.depth_eq
  have links : later.links = earlier.links := leads.level rfl
  refine ⟨fun _ => links, ?_, ?_⟩
  · simp [Levels.closed, depth, links]
  · simp [Levels.closed, depth, leads.strayed, strayed_opened isLess]

/-- The levels that a chain opened are as many as its links, and are closed after it. -/
theorem released (leads : earlier.unlinked.Leads true later) :
    earlier.Leads deepens (later.released earlier.links) := by
  have balance : later.depth = earlier.depth + later.links := leads.balance
  refine ⟨fun _ => rfl, ?_, ?_⟩
  · simp [Levels.released, Levels.closed, balance]
  · simp [Levels.released, Levels.closed, balance, leads.strayed, unlinked]

end Levels.Leads

structure Course (terms : Terms) (env : Environment) (earlier later : State) : Prop where
  position : later.consumed + later.following.length = earlier.consumed + earlier.following.length
  forward : earlier.consumed ≤ later.consumed
  /-- Where the cursor stays, the end mark does not come under it. -/
  awake : later.consumed = earlier.consumed → earlier.current.kind ≠ .endOfInput →
    later.current.kind ≠ .endOfInput
  counted : earlier.steps ≤ later.steps
  paid : later.steps + 2 * earlier.consumed ≤ earlier.steps + 2 * later.consumed
  prepaid : terms.counts = false → later.steps = earlier.steps ∨
    later.steps + 2 + 2 * earlier.consumed ≤ earlier.steps + 2 * later.consumed
  usedUp : later.usedUp = true → earlier.usedUp = true ∨ maxSteps < later.steps
  levels : earlier.levels.Leads terms.deepens later.levels
  lambdas : later.lambdas = earlier.lambdas
  reported : earlier.reported <:+ later.reported
  abandoned : terms.honest = true → later.abandoned = earlier.abandoned ∨ Told env later
  onward : ∀ text ∈ terms.scope.text, Onward earlier later

variable {terms : Terms} {env : Environment} {state : State}

theorem Told.later {later : State} (told : Told env earlier)
    (reported : earlier.reported <:+ later.reported) : Told env later := by
  intro allowed none
  rw [none, List.suffix_nil] at reported
  exact told allowed reported

namespace Course

theorem refl (terms : Terms) (env : Environment) (state : State) :
    Course terms env state state where
  position := rfl
  forward := Nat.le_refl _
  awake _ isNoEnd := isNoEnd
  counted := Nat.le_refl _
  paid := Nat.le_refl _
  prepaid _ := .inl rfl
  usedUp := .inl
  levels := .refl ..
  lambdas := rfl
  reported := List.suffix_refl _
  abandoned _ := .inl rfl
  onward _ _ := .refl state

theorem trans (one : Course terms env first second) (two : Course terms env second third) :
    Course terms env first third where
  position := two.position.trans one.position
  forward := Nat.le_trans one.forward two.forward
  awake same isNoEnd := by
    have oneForward := one.forward
    have twoForward := two.forward
    exact two.awake (by omega) (one.awake (by omega) isNoEnd)
  counted := Nat.le_trans one.counted two.counted
  paid := by
    have onePaid := one.paid
    have twoPaid := two.paid
    omega
  prepaid exact := by
    have twoPaid := two.paid
    rcases one.prepaid exact with same | less
    · rcases two.prepaid exact with same' | less'
      · exact .inl (same'.trans same)
      · exact .inr (by have := one.forward; omega)
    · exact .inr (by omega)
  usedUp isUsedUp := by
    rcases two.usedUp isUsedUp with early | tooMany
    · rcases one.usedUp early with earlier | tooMany
      · exact .inl earlier
      · exact .inr (Nat.lt_of_lt_of_le tooMany two.counted)
    · exact .inr tooMany
  levels := one.levels.trans two.levels
  lambdas := two.lambdas.trans one.lambdas
  reported := one.reported.trans two.reported
  abandoned honest := by
    rcases two.abandoned honest with same | told
    · rcases one.abandoned honest with same' | told
      · exact .inl (same.trans same')
      · exact .inr (told.later two.reported)
    · exact .inr told
  onward text isText := (one.onward text isText).trans (two.onward text isText)

theorem consumed_lt_of_end (course : Course terms env earlier later)
    (isNoEnd : earlier.current.kind ≠ .endOfInput) (isEnd : later.current.kind = .endOfInput) :
    earlier.consumed < later.consumed :=
  Nat.lt_of_le_of_ne course.forward fun same => course.awake same.symm isNoEnd isEnd

theorem unmoved {earlier later : State} (tokens : later.tokens = earlier.tokens)
    (previous : later.previous = earlier.previous)
    (consumed : later.consumed = earlier.consumed) (steps : later.steps = earlier.steps)
    (usedUp : later.usedUp = earlier.usedUp) (levels : later.levels = earlier.levels)
    (lambdas : later.lambdas = earlier.lambdas)
    (reported : earlier.reported <:+ later.reported)
    (abandoned : later.abandoned = earlier.abandoned) : Course terms env earlier later := by
  obtain ⟨current, following⟩ := List.cons.inj tokens
  exact
    { position := by rw [consumed, following]
      forward := Nat.le_of_eq consumed.symm
      awake := fun _ isNoEnd => by rwa [current]
      counted := Nat.le_of_eq steps.symm
      paid := by omega
      prepaid := fun _ => .inl steps
      usedUp := fun isUsedUp => .inl (usedUp ▸ isUsedUp)
      levels := levels ▸ .refl ..
      lambdas := lambdas
      reported := reported
      abandoned := fun _ => .inl abandoned
      onward := fun _ _ => .unmoved tokens previous consumed }

end Course

def course (terms : Terms) : Law where
  holds := Ready terms.scope
  leads := Course terms
  fails env state := terms.fallible = true ∧ (terms.honest = true → Told env state)
  refl := Course.refl terms
  trans := Course.trans

end JavaFrontEnd.Grammar
