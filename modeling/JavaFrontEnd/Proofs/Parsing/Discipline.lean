/-
Disciplines of parsing. A discipline is a property of parsers that all ways of putting parsers
together keep, so that it is true of the whole grammar once the few primitive parsers have it
(`unitParts_admitted`).

Parsers may see the state less what has been reported, and of the configuration only whether there
are switch expressions; whatever else depends on the configuration is a remark, which does not come
back to the parser. A discipline is told which numbers of expressions are at hand when a parser
begins and which are in its value; these must have been at hand or drawn on the way.
-/

import JavaFrontEnd.Grammar.Unit
import JavaFrontEnd.Proofs.Tree.Expressions
import Mathlib.Data.List.Perm.Subperm

namespace JavaFrontEnd.Grammar

open List

/-! ### What has been reported -/

/-- The problems that have been reported, and where violations of the grammar were. -/
structure Log where
  found : List Diagnostic := []
  reported : List Nat := []

namespace State

def log (state : State) : Log :=
  ⟨state.found, state.reported⟩

def withLog (state : State) (log : Log) : State :=
  { state with found := log.found, reported := log.reported }

def core (state : State) : State :=
  state.withLog {}

end State

inductive Remark where
  | violation (problem : SyntaxProblem) (span : Span)
  | feature (feature : Feature) (span : Span)
  | methodReference (colons : Span)
  | reserved (token : Token)
  | label (problem : LabelProblem) (span : Span)

namespace Log

def push (log : Log) (diagnostic : Diagnostic) : Log where
  found := diagnostic :: log.found
  reported :=
    if diagnostic.category = .syntaxError then diagnostic.span.start.offset :: log.reported
    else log.reported

def knows (log : Log) (offset : Nat) (message : String) : Bool :=
  log.found.any fun diagnostic =>
    diagnostic.span.start.offset == offset && diagnostic.message == message

def isClosed (config : Configuration) (log : Log) (offset : Nat) : Bool :=
  config.maxSyntaxErrors ≤ log.reported.length || log.reported.contains offset

/-- The problem that a remark is, unless the configuration or what is known already say that it is
none. -/
def outcome? (config : Configuration) (log : Log) : Remark → Option Diagnostic
  | .violation problem span =>
    if log.isClosed config span.start.offset then none
    else some (.error .syntaxError problem.message span)
  | .feature feature span =>
    if config.allows feature then none
    else if log.knows span.start.offset feature.unavailableMessage then none
    else some (.error .featureNotAvailable feature.unavailableMessage span)
  | .methodReference colons =>
    if config.level.release < 8 then
      some (.error .featureNotAvailable
        "Method references are allowed only at source level 1.8 or above" colons)
    else none
  | .reserved token =>
    (reservedWarning? token.lexeme config.level).map fun message =>
      .warning .reservedKeywordAsIdentifier message token.span
  | .label problem span => some (.error problem.category problem.message span)

def record (config : Configuration) (log : Log) (remark : Remark) : Log :=
  (log.outcome? config remark).elim log log.push

end Log

def Remark.tell (remark : Remark) : Parser Unit :=
  fun env state => (some (), state.withLog (state.log.record env.configuration remark))

theorem violation_eq_tell (problem : SyntaxProblem) (span : Span) :
    violation problem span = (Remark.violation problem span).tell := by
  funext env state
  show (if state.log.isClosed env.configuration span.start.offset then _ else _) =
    (some (), state.withLog (Option.elim
      (if state.log.isClosed env.configuration span.start.offset then _ else _) _ _))
  split <;> rfl

theorem needFeature_eq_tell (feature : Feature) (span : Span) :
    needFeature feature span = (Remark.feature feature span).tell := by
  funext env state
  show (if env.configuration.allows feature then _
      else if state.log.knows span.start.offset feature.unavailableMessage then _ else _) =
    (some (), state.withLog (Option.elim (if env.configuration.allows feature then _
      else if state.log.knows span.start.offset feature.unavailableMessage then _ else _) _ _))
  split
  · rfl
  · split <;> rfl

theorem needMethodReferences_eq_tell (colons : Span) :
    needMethodReferences colons = (Remark.methodReference colons).tell := by
  funext env state
  show (if env.configuration.level.release < 8 then report _ else _ : Parser Unit)
    env state = (some (), state.withLog (Option.elim
      (if env.configuration.level.release < 8 then _ else _) _ _))
  split <;> rfl

theorem warnReserved_eq_tell (token : Token) :
    warnReserved token = (Remark.reserved token).tell := by
  funext env state
  cases isWarning : reservedWarning? token.lexeme env.configuration.level with
  | none | some message =>
    simp only [warnReserved, bind, Parser.bind, Parser.configuration, isWarning, Remark.tell,
      Log.record, Log.outcome?]
    rfl

theorem labelProblem_eq_tell (problem : LabelProblem) (span : Span) :
    labelProblem problem span = (Remark.label problem span).tell := by
  cases problem <;> rfl

/-! ### Disciplines -/

abbrev unnumbered {α : Type} (_ : α) : List Nat :=
  []

def optional {α : Type} (numbers : α → List Nat) : Option α → List Nat
  | none => []
  | some value => numbers value

/-- A literal without a value was read, or is still ahead. -/
def State.Spoilt (state : State) : Prop :=
  state.stopped = true ∨ ∃ token ∈ state.tokens, token.literal? = none

/-- A change of the state that leaves alone what has been reported, draws no number and brings no
literal without a value. -/
structure Silent (change : State → State) : Prop where
  core : ∀ state, (change state).core = change state.core := by exact fun _ => rfl
  log : ∀ state, (change state).log = state.log := by exact fun _ => rfl
  nextId : ∀ state, (change state).nextId = state.nextId := by exact fun _ => rfl
  spoilt : ∀ state, (change state).Spoilt → state.Spoilt := by exact fun _ => id

def framed {α : Type} (enter : State → State) (leave : State → State → State)
    (parser : Parser α) : Parser α :=
  fun env state => ((parser env (enter state)).1, leave state (parser env (enter state)).2)

/-- A property of parsers that all ways of putting parsers together keep. A parser is admitted
where some numbers are at hand, and yields values that have numbers of their own. -/
structure Discipline where
  Admits : {α : Type} → (held : List Nat) → (numbers : α → List Nat) → Parser α → Prop
  weaken : ∀ {α : Type} {held passed : List Nat} {numbers : α → List Nat} {parser : Parser α},
    held <+~ passed → Admits held numbers parser → Admits passed numbers parser
  pure : ∀ {α : Type} {held : List Nat} {numbers : α → List Nat} {value : α},
    numbers value <+~ held → Admits held numbers (Pure.pure value)
  bind : ∀ {α β : Type} {held passed : List Nat} {numbers : α → List Nat} {more : β → List Nat}
    {parser : Parser α} {next : α → Parser β}, Admits passed numbers parser →
    (∀ value, Admits (held ++ numbers value) more (next value)) →
      Admits (held ++ passed) more (parser >>= next)
  fail : ∀ {α : Type} {held : List Nat} {numbers : α → List Nat},
    Admits held numbers (Parser.fail : Parser α)
  attempt : ∀ {α : Type} {held : List Nat} {numbers : α → List Nat} {parser : Parser α},
    Admits held numbers parser → Admits held (optional numbers) (Parser.attempt parser)
  /-- Parsers may look at the state, but not at what has been reported. -/
  inspect : ∀ {α : Type} {held : List Nat} {numbers : α → List Nat} {next : State → Parser α},
    (∀ state, next state = next state.core) → (∀ state, Admits held numbers (next state)) →
      Admits held numbers (Parser.get >>= next)
  change : ∀ {change : State → State}, Silent change → Admits [] unnumbered (Parser.modify change)
  framed : ∀ {α : Type} {held : List Nat} {numbers : α → List Nat} {parser : Parser α}
    {enter : State → State} {leave : State → State → State}, Silent enter →
    (∀ state, Silent (leave state)) → (∀ state, leave state = leave state.core) →
    Admits held numbers parser → Admits held numbers (Grammar.framed enter leave parser)
  tell : ∀ remark : Remark, Admits [] unnumbered remark.tell
  /-- A number that is drawn is at hand from then on. -/
  freshId : ∀ {α : Type} {held : List Nat} {numbers : α → List Nat} {next : Nat → Parser α},
    (∀ id, Admits (held ++ [id]) numbers (next id)) → Admits held numbers (Grammar.freshId >>= next)
  /-- Parsers may ask whether there are switch expressions. -/
  byLevel : ∀ {α : Type} {held : List Nat} {numbers : α → List Nat}
    {next : Configuration → Parser α}, (∀ one two : Configuration,
      one.allows .switchExpressions = two.allows .switchExpressions → next one = next two) →
    (∀ config, Admits held numbers (next config)) →
      Admits held numbers (Parser.configuration >>= next)
  byBound : ∀ {α : Type} {held : List Nat} {numbers : α → List Nat} {parser : Nat → Parser α},
    (∀ bound, Admits held numbers (parser bound)) →
      Admits held numbers fun env state => parser env.bound env state

variable {α β σ : Type} {rules : Discipline} {held : List Nat} {numbers : α → List Nat}
  {more : β → List Nat} {parser : Parser α} {next : α → Parser β} {turn : σ → Parser (Turn σ β)}
  (kind : TokenKind)

/-- A parser that a discipline admits with no number at hand, and the numbers of its values. The
instances follow productions by themselves, up to a value that has numbers. -/
class Discipline.Yields (rules : Discipline) {α : Type} (parser : Parser α)
    (numbers : outParam (α → List Nat)) : Prop where
  admits : rules.Admits [] numbers parser

abbrev Discipline.Plain (rules : Discipline) {α : Type} (parser : Parser α) : Prop :=
  rules.Yields parser unnumbered

namespace Discipline.Admits

variable {value : α}

theorem andThen (first : rules.Admits [] numbers parser)
    (second : ∀ value, rules.Admits (held ++ numbers value) more (next value)) :
    rules.Admits held more (parser >>= next) := by
  have both := rules.bind first second
  rwa [append_nil] at both

theorem passing (first : rules.Admits passed numbers parser)
    (second : ∀ value, rules.Admits (numbers value) more (next value)) :
    rules.Admits passed more (parser >>= next) := by
  rw [← nil_append passed]
  exact rules.bind first second

theorem step (first : rules.Admits [] unnumbered parser)
    (second : ∀ value, rules.Admits held more (next value)) :
    rules.Admits held more (parser >>= next) := by
  refine first.andThen fun value => ?_
  rw [append_nil]
  exact second value

/-- A parser leaves the numbers at hand as they are. -/
theorem past [first : rules.Plain parser]
    (second : ∀ {value}, rules.Admits held more (next value)) :
    rules.Admits held more (parser >>= next) :=
  first.admits.step fun _ => second

theorem having [first : rules.Yields parser numbers]
    (second : ∀ {value}, rules.Admits (held ++ numbers value) more (next value)) :
    rules.Admits held more (parser >>= next) :=
  first.admits.andThen fun _ => second

theorem yielded [found : rules.Yields parser numbers] : rules.Admits held numbers parser :=
  rules.weaken nil_subperm found.admits

theorem ite [Decidable condition] (whenTrue : rules.Admits held numbers yes)
    (whenFalse : rules.Admits held numbers no) :
    rules.Admits held numbers (if condition then yes else no) := by
  split
  · exact whenTrue
  · exact whenFalse

theorem inspect {next : State → Parser α} (same : next = fun state => next state.core)
    (second : ∀ state, rules.Admits held numbers (next state)) :
    rules.Admits held numbers (Parser.get >>= next) :=
  rules.inspect (congrFun same) second

theorem pure (areHeld : numbers value <+~ held) : rules.Admits held numbers (Pure.pure value) :=
  rules.pure areHeld

theorem plain (none : numbers value = [] := by rfl) : rules.Admits held numbers (Pure.pure value) :=
  rules.pure (none ▸ nil_subperm)

/-- A value is built of all that is at hand. -/
theorem built (same : numbers value = held := by rfl) :
    rules.Admits held numbers (Pure.pure value) :=
  rules.pure (same ▸ .refl _)

theorem numbered {id : Nat} (same : numbers value = id :: held := by rfl) :
    rules.Admits (held ++ [id]) numbers (Pure.pure value) := by
  refine .pure ?_
  rw [same]
  exact (perm_append_singleton id held).symm.subperm

theorem fail : rules.Admits held numbers (Parser.fail : Parser α) :=
  rules.fail

end Discipline.Admits

open Discipline

namespace Discipline.Yields

instance : rules.Plain (Parser.fail : Parser α) :=
  ⟨.fail⟩

instance (value : α) : rules.Plain (Pure.pure value : Parser α) :=
  ⟨.plain⟩

instance [first : rules.Plain parser] [second : ∀ value, rules.Yields (next value) more] :
    rules.Yields (parser >>= next) more :=
  ⟨first.admits.step fun value => (second value).admits⟩

instance {condition : Prop} [Decidable condition] {yes no : Parser α}
    [whenTrue : rules.Yields yes numbers] [whenFalse : rules.Yields no numbers] :
    rules.Yields (if condition then yes else no) numbers :=
  ⟨.ite whenTrue.admits whenFalse.admits⟩

/-! ### The cursor -/

theorem of_seen (same : value = fun state => value state.core) :
    rules.Plain (fun _ state => (some (value state), state) : Parser α) := by
  refine ⟨?_⟩
  show rules.Admits [] unnumbered (Parser.get >>= fun state => Pure.pure (value state))
  exact rules.inspect (fun state => congrArg Pure.pure (congrFun same state)) fun _ => .plain

instance : rules.Plain peek :=
  of_seen rfl

instance : rules.Plain peekNext :=
  of_seen rfl

instance : rules.Plain here :=
  of_seen rfl

instance : rules.Plain lastSpan :=
  of_seen rfl

instance : rules.Plain (check kind) :=
  of_seen rfl

instance (distance : Nat) : rules.Plain (checkAt distance kind) :=
  of_seen rfl

instance (word : String) : rules.Plain (checkWord word) :=
  of_seen rfl

instance (property : List Token → Bool) : rules.Plain (lookahead property) :=
  of_seen rfl

instance : rules.Plain atEnd :=
  of_seen rfl

end Discipline.Yields

theorem silent_advance : Silent State.advance where
  core state := by
    have unseen : state.core.following = state.following := rfl
    unfold State.advance
    rw [unseen]
    cases state.following with
    | nil => rfl
    | cons token rest =>
      show (if state.current.kind = .endOfInput then state else _ : State).core =
        if state.current.kind = .endOfInput then state.core else _
      split <;> rfl
  log state := by
    unfold State.advance
    repeat' split
    all_goals rfl
  nextId state := by
    unfold State.advance
    repeat' split
    all_goals rfl
  spoilt state isSpoilt := by
    unfold State.advance at isSpoilt
    split at isSpoilt
    · exact isSpoilt
    next next rest isFollowing =>
      split at isSpoilt
      · exact isSpoilt
      · rcases isSpoilt with isStopped | ⟨token, isAhead, isMissing⟩
        · exact .inl isStopped
        · exact .inr ⟨token, mem_cons_of_mem _ (isFollowing ▸ isAhead), isMissing⟩

theorem silent_skipToEnd : Silent State.skipToEnd where
  core state := by
    have unseen : state.core.following = state.following := rfl
    unfold State.skipToEnd
    rw [unseen]
    cases state.following.reverse <;> rfl
  log state := by
    unfold State.skipToEnd
    split <;> rfl
  nextId state := by
    unfold State.skipToEnd
    split <;> rfl
  spoilt state isSpoilt := by
    unfold State.skipToEnd at isSpoilt
    split at isSpoilt
    · exact isSpoilt
    next final before isLast =>
      rcases isSpoilt with isStopped | ⟨token, isAhead, isMissing⟩
      · exact .inl isStopped
      · have inFollowing : final ∈ state.following := mem_reverse.mp (isLast ▸ mem_cons_self)
        refine .inr ⟨token, mem_cons_of_mem _ ?_, isMissing⟩
        exact mem_singleton.mp isAhead ▸ inFollowing

instance : rules.Plain advance where
  admits := by
    show rules.Admits [] unnumbered do
      let state ← Parser.get
      Parser.modify State.advance
      pure state.current
    exact .inspect rfl fun state => (rules.change silent_advance).step fun _ => .plain

instance : rules.Plain (accept kind) where
  admits := by
    have runs : accept kind = (do
        let state ← Parser.get
        if state.current.kind == kind then
          Parser.modify State.advance
          pure true
        else pure false) := by
      funext env state
      show (if state.current.kind == kind then _ else _) =
        (if state.current.kind == kind then _ else _ : Parser Bool) env state
      split <;> rfl
    rw [runs]
    exact .inspect rfl fun state => .ite ((rules.change silent_advance).step fun _ => .plain) .plain

instance : rules.Plain exhausted where
  admits := by
    have counts : Silent fun state => { state with steps := state.steps + 1 } := {}
    have stops : Silent State.stop :=
      ⟨fun state => by
        show ({ state.skipToEnd.core with usedUp := true } : State) = _
        rw [silent_skipToEnd.core]
        rfl, silent_skipToEnd.log, silent_skipToEnd.nextId, silent_skipToEnd.spoilt⟩
    have runs : exhausted = (do
        let state ← Parser.get
        Parser.modify fun state => { state with steps := state.steps + 1 }
        if maxSteps < state.steps + 1 then
          Parser.modify State.stop
          pure true
        else pure false) := by
      funext env state
      show (if maxSteps < state.steps + 1 then _ else _) =
        (if maxSteps < state.steps + 1 then _ else _ : Parser Bool) env _
      split <;> rfl
    rw [runs]
    exact .inspect rfl fun state => (rules.change counts).step fun _ => .ite
      ((rules.change stops).step fun _ => .plain) .plain

/-! ### Remarks and failures -/

instance (problem : SyntaxProblem) (span : Span) : rules.Plain (violation problem span) :=
  ⟨violation_eq_tell problem span ▸ rules.tell _⟩

instance (feature : Feature) (span : Span) : rules.Plain (needFeature feature span) :=
  ⟨needFeature_eq_tell feature span ▸ rules.tell _⟩

theorem reject_admitted (problem : SyntaxProblem) (span : Span) :
    rules.Admits held numbers (reject problem span) :=
  .past .fail

instance (construct : String) : rules.Plain (reportMissing kind construct) :=
  ⟨.inspect rfl fun _ => .yielded⟩

instance (construct : String) : rules.Plain (expect kind construct) := by
  unfold expect
  infer_instance

instance : rules.Plain descend :=
  ⟨.inspect rfl fun _ => .ite (reject_admitted _ _)
    (rules.change {})⟩

/-! ### Nesting -/

instance : rules.Plain link :=
  ⟨.past <| rules.change {}⟩

theorem Discipline.Admits.chained (admitted : rules.Admits held numbers parser) :
    rules.Admits held numbers (Grammar.chained parser) := by
  show rules.Admits held numbers
    (Grammar.framed (fun state => { state with levels := state.levels.unlinked })
      (fun state after => { after with levels := after.levels.released state.levels.links })
      parser)
  exact rules.framed {} (fun _ => {}) (fun _ => rfl) admitted

theorem Discipline.Admits.closing (admitted : rules.Admits held numbers parser) :
    rules.Admits held numbers (Grammar.closing parser) := by
  show rules.Admits held numbers (Grammar.framed (fun state => state)
    (fun _ after => { after with levels := after.levels.closed 1 }) parser)
  exact rules.framed {} (fun _ => {}) (fun _ => rfl) admitted

namespace Discipline.Yields

variable [inside : rules.Yields parser numbers]

instance : rules.Yields (nested parser) numbers :=
  ⟨.past <| .closing .yielded⟩

instance (allowed : Bool) : rules.Yields (withLambdas allowed parser) numbers where
  admits := by
    show rules.Admits [] numbers
      (Grammar.framed (fun state => { state with lambdas := allowed })
        (fun state after => { after with lambdas := state.lambdas }) parser)
    exact rules.framed {}
      (fun _ => {}) (fun _ => rfl) inside.admits

instance : rules.Yields (withLabels parser) numbers where
  admits := by
    show rules.Admits [] numbers
      (Grammar.framed (fun state => { state with labels := {} })
        (fun state after => { after with labels := state.labels }) parser)
    exact rules.framed {}
      (fun _ => {}) (fun _ => rfl) inside.admits

end Discipline.Yields

/-! ### Repetition -/

def Turn.carried (again : σ → List Nat) (done : β → List Nat) : Turn σ β → List Nat
  | .again value => again value
  | .done result => done result

def Turn.follow (turns : σ → Parser β) : Turn σ β → Parser β
  | .again value => turns value
  | .done result => pure result

theorem iterateFrom_succ (turn : σ → Parser (Turn σ β)) (fuel : Nat) (value : σ) :
    iterateFrom turn (fuel + 1) value = (turn value >>= Turn.follow (iterateFrom turn fuel)) := by
  funext env state
  show iterateFrom turn (fuel + 1) value env state =
    Parser.bind (turn value) (Turn.follow (iterateFrom turn fuel)) env state
  unfold iterateFrom Parser.bind
  generalize turn value env state = result
  rcases result with ⟨_ | _ | _, _⟩ <;> rfl

theorem Discipline.Admits.iterateFrom (numbers : σ → List Nat)
    (turns : ∀ value, rules.Admits (numbers value) (Turn.carried numbers more) (turn value))
    (fuel : Nat) (start : σ) :
    rules.Admits (numbers start) more (Grammar.iterateFrom turn fuel start) := by
  induction fuel generalizing start with
  | zero => exact .inspect rfl fun _ => reject_admitted _ _
  | succ fuel ih =>
    rw [iterateFrom_succ]
    have follows : ∀ outcome, rules.Admits ([] ++ Turn.carried numbers more outcome) more
        (Turn.follow (Grammar.iterateFrom turn fuel) outcome) := by
      intro outcome
      cases outcome with
      | again value => exact ih value
      | done result => exact .built
    exact rules.bind (turns start) follows

theorem Discipline.Admits.iterate (numbers : σ → List Nat)
    (turns : ∀ value, rules.Admits (numbers value) (Turn.carried numbers more) (turn value))
    (start : σ) : rules.Admits (numbers start) more (Grammar.iterate start turn) :=
  rules.byBound fun fuel => .iterateFrom numbers turns fuel start

theorem Discipline.Yields.iterate (turns : ∀ value, rules.Plain (turn value)) :
    rules.Plain (Grammar.iterate start turn) := by
  have none : Turn.carried unnumbered unnumbered = (unnumbered : Turn σ β → List Nat) := by
    funext turn
    cases turn <;> rfl
  exact ⟨.iterate unnumbered (fun value => none ▸ (turns value).admits) start⟩

instance {start : σ} [turns : ∀ value, rules.Plain (turn value)] :
    rules.Plain (iterate start turn) :=
  .iterate turns

class Lists (numbers : α → List Nat) (all : outParam (List α → List Nat)) : Prop where
  nil : all [] = []
  cons : ∀ value rest, all (value :: rest) = numbers value ++ all rest

namespace Lists

variable {all : List α → List Nat} (lists : Lists numbers all)
include lists

theorem eq_flatMap (items : List α) : all items = items.flatMap numbers := by
  induction items with
  | nil => exact lists.nil
  | cons item rest ih => rw [lists.cons, ih, flatMap_cons]

theorem cons_subperm (item : α) (items : List α) :
    all (item :: items) <+~ all items ++ numbers item := by
  rw [lists.cons]
  exact perm_append_comm.subperm

theorem append_subperm (first second : List α) :
    all (first ++ second) <+~ all first ++ all second := by
  rw [lists.eq_flatMap, lists.eq_flatMap, lists.eq_flatMap, flatMap_append]

theorem reverse_subperm (items : List α) : all items.reverse <+~ all items := by
  rw [lists.eq_flatMap, lists.eq_flatMap]
  exact ((reverse_perm items).flatMap_right numbers).subperm

theorem reverse_cons_subperm (item : α) (items : List α) :
    all (item :: items).reverse <+~ all items ++ numbers item :=
  (lists.reverse_subperm _).trans (lists.cons_subperm item items)

theorem reverse_append_subperm (items found : List α) :
    all (items.reverse ++ found) <+~ all found ++ all items := by
  refine (lists.append_subperm _ _).trans (perm_append_comm.subperm.trans ?_)
  rw [subperm_append_left]
  exact lists.reverse_subperm items

end Lists

class Perhaps (numbers : α → List Nat) (maybe : outParam (Option α → List Nat)) : Prop where
  none : maybe none = []
  some : ∀ value, maybe (some value) = numbers value

theorem Perhaps.subperm {maybe : Option α → List Nat} (perhaps : Perhaps numbers maybe)
    (value : α) : maybe (.some value) <+~ [] ++ numbers value := by
  rw [perhaps.some, nil_append]

instance : Lists (unnumbered : α → List Nat) unnumbered :=
  ⟨rfl, fun _ _ => rfl⟩

instance : Perhaps (unnumbered : α → List Nat) unnumbered :=
  ⟨rfl, fun _ => rfl⟩

namespace Discipline.Yields

variable [item : rules.Yields parser numbers]

section Lists

variable {all : List α → List Nat} [lists : Lists numbers all]

instance : rules.Yields (commaSeparated parser) all where
  admits := by
    rw [← lists.nil]
    refine .iterate all (fun items => .having fun {next} => .past fun {_} => ?_) []
    exact .ite (.pure (lists.cons_subperm next items))
      (.pure (lists.reverse_cons_subperm next items))

instance (close separator : TokenKind) :
    rules.Yields (separatedUntil close separator parser) all where
  admits := by
    rw [← lists.nil]
    refine .iterate all (fun items => .past <| .past fun {_} => ?_) []
    refine .ite (.pure (lists.reverse_subperm items)) (.having fun {next} => .past fun {_} => ?_)
    exact .ite (.pure (lists.cons_subperm next items))
      (.pure (lists.reverse_cons_subperm next items))

instance (close : TokenKind) : rules.Yields (commaSeparatedBefore close parser) all :=
  ⟨.past <| .ite (.plain lists.nil) .yielded⟩

end Lists

section Options

variable {maybe : Option α → List Nat} [perhaps : Perhaps numbers maybe]

instance : rules.Yields (optionalAt kind parser) maybe :=
  ⟨.past <| .ite (.having fun {value} => .pure (perhaps.subperm value)) (.plain perhaps.none)⟩

instance : rules.Yields (optionalAfter kind parser) maybe :=
  ⟨.past <| .ite (.having fun {value} => .pure (perhaps.subperm value)) (.plain perhaps.none)⟩

instance : rules.Yields (optionalUnless kind parser) maybe :=
  ⟨.past <| .ite (.plain perhaps.none) (.having fun {value} => .pure (perhaps.subperm value))⟩

end Options

instance : rules.Yields (Parser.attempt parser) (optional numbers) :=
  ⟨rules.attempt item.admits⟩

instance {resynchronise : Parser Unit} [rules.Plain resynchronise] :
    rules.Yields (recovering parser resynchronise) (optional numbers) where
  admits := by
    refine .inspect rfl fun before => .having fun {outcome} => ?_
    cases outcome with
    | some value => exact .built
    | none =>
      refine .past <| .inspect rfl fun after => .ite ?_ ?_
      · exact .past .built
      · exact .built

end Discipline.Yields

end JavaFrontEnd.Grammar
