/-
Parsers. A parser reads tokens from a cursor, which only moves forward, and either yields a value
or fails; what it found out on the way, the problems above all, stays in both cases. A failure is
not an end: whoever repeats a production moves the cursor to a place where it can start again.

All loops of the grammar are one combinator, `iterate`, and all changes of the nesting depth one
other, `nested`. Facts about every parser are therefore facts about few definitions.
-/

import JavaFrontEnd.Token
import JavaFrontEnd.Tree

namespace JavaFrontEnd

/-! The problems that the grammar finds, and their wording. -/

inductive SyntaxProblem where
  | expected (found wanted : String)
  | delete (found : String)
  | insert (missing construct : String)
  | expectedAfter (found wanted : String)
  | missingReturnType
  | underscoreIdentifier
  | differentCaseKinds
  | nestedTooDeeply
  deriving DecidableEq, Repr

def SyntaxProblem.message : SyntaxProblem → String
  | expected found wanted => s!"Syntax error on token \"{found}\", {wanted} expected"
  | delete found => s!"Syntax error on token \"{found}\", delete this token"
  | insert missing construct => s!"Syntax error, insert \"{missing}\" to complete {construct}"
  | expectedAfter found wanted =>
    s!"Syntax error on token \"{found}\", {wanted} expected after this token"
  | missingReturnType => "Return type for the method is missing"
  | underscoreIdentifier =>
    "'_' is a keyword from source level 9 onwards, cannot be used as identifier"
  | differentCaseKinds => "Different case kinds used in the switch"
  | nestedTooDeeply => "Syntax error, the construct is nested too deeply"

inductive LabelProblem where
  | defaultPlacement
  | severalPatterns
  | mixedPatterns
  | duplicateDefault
  deriving DecidableEq, Repr

namespace LabelProblem

def category : LabelProblem → Category
  | defaultPlacement => .illegalDefaultPlacement
  | severalPatterns => .multiplePatternsInLabel
  | mixedPatterns => .mixedPatternAndConstantLabels
  | duplicateDefault => .duplicateDefaultCase

def message : LabelProblem → String
  | defaultPlacement =>
    "A 'default' can occur after 'case' only as a second case label expression and that too " ++
      "only if 'null' precedes in 'case null, default'"
  | severalPatterns => "A switch label may not have more than one pattern case label element"
  | mixedPatterns => "Cannot mix pattern with other case labels"
  | duplicateDefault => "The default case is already defined"

end LabelProblem

/-- The warning about an identifier that a later level reserves, if there is one at this level. -/
def reservedWarning? (word : String) (level : Level) : Option String :=
  let warning (release : String) : String :=
    s!"'{word}' should not be used as an identifier, " ++
      s!"since it is a reserved keyword from source level {release} on"
  match word with
  | "assert" => some (warning "1.4")
  | "enum" => some (warning "1.5")
  | "_" => if 8 ≤ level.release then some (warning "1.8") else none
  | _ => none

end JavaFrontEnd

namespace JavaFrontEnd.Grammar

def maxDepth : Nat := 256

/-- How often the loops that recover from failures may turn in all. -/
def maxSteps : Nat := 200000

structure Environment where
  configuration : Configuration
  /-- A bound on the turns of any loop and on the nesting of any production. It is chosen so
  large that no loop ever reaches it. -/
  bound : Nat

structure LabelState where
  hasDefault : Bool := false
  /-- Whether labels end with an arrow, once there has been one. -/
  arrows : Option Bool := none

/-- The count of open levels of nesting. -/
structure Levels where
  depth : Nat := 0
  /-- How many links the innermost chain has so far, each of which has opened a level. -/
  links : Nat := 0
  /-- The count was above its bound once, or was to fall below zero. -/
  strayed : Bool := false

namespace Levels

/-- One level more. -/
def opened (levels : Levels) : Levels :=
  { levels with
    depth := levels.depth + 1, strayed := levels.strayed || maxDepth < levels.depth + 1 }

/-- A number of levels less. -/
def closed (levels : Levels) (count : Nat) : Levels :=
  { levels with depth := levels.depth - count, strayed := levels.strayed || levels.depth < count }

/-- One link more in the innermost chain. -/
def linked (levels : Levels) : Levels :=
  { levels with links := levels.links + 1 }

/-- The start of a chain, which has no links yet. -/
def unlinked (levels : Levels) : Levels :=
  { levels with links := 0 }

/-- The end of a chain: a level is closed for each of its links. The chain around it has `links` of
its own. -/
def released (levels : Levels) (links : Nat) : Levels :=
  { levels.closed levels.links with links }

end Levels

structure State where
  current : Token
  following : List Token
  previous : Option Token
  consumed : Nat
  found : List Diagnostic
  reported : List Nat
  /-- Where productions failed and were given up: how many tokens the cursor had passed then, the
  last failure first. -/
  abandoned : List Nat
  nextId : Nat
  steps : Nat
  /-- These turns were used up, and the rest of the input was dropped. -/
  usedUp : Bool
  levels : Levels
  /-- A name before an arrow is a lambda expression; it is none in case labels. -/
  lambdas : Bool
  labels : LabelState
  annotationArguments : Array (List AnnotationArgument)
  /-- A literal without a value was read. What is done after it does not count: nothing is made of
  the input. -/
  stopped : Bool

def Parser (α : Type) : Type :=
  Environment → State → Option α × State

namespace Parser

variable {α β σ : Type}

@[inline]
protected def pure (value : α) : Parser α :=
  fun _ state => (some value, state)

@[inline]
protected def bind (first : Parser α) (second : α → Parser β) : Parser β :=
  fun environment state =>
    match first environment state with
    | (some value, after) => second value environment after
    | (none, after) => (none, after)

instance : Monad Parser where
  pure := Parser.pure
  bind := Parser.bind

@[inline]
def fail : Parser α :=
  fun _ state => (none, state)

/-- Turns a failure into the value `none`, and notes where the failed production stopped. -/
@[inline]
def attempt (parser : Parser α) : Parser (Option α) :=
  fun environment state =>
    match parser environment state with
    | (some value, after) => (some (some value), after)
    | (none, after) =>
      (some none, { after with abandoned := after.consumed :: after.abandoned })

@[inline]
def get : Parser State :=
  fun _ state => (some state, state)

@[inline]
def modify (change : State → State) : Parser Unit :=
  fun _ state => (some (), change state)

@[inline]
def configuration : Parser Configuration :=
  fun environment state => (some environment.configuration, state)

end Parser

open JavaFrontEnd.Grammar.Parser

variable {α β σ : Type}

/-! ### The cursor -/

namespace State

abbrev depth (state : State) : Nat :=
  state.levels.depth

def tokens (state : State) : List Token :=
  state.current :: state.following

/-- The kind of the token at a distance from the cursor; the end mark repeats forever. -/
def kindAt (state : State) : Nat → TokenKind
  | 0 => state.current.kind
  | distance + 1 => (state.following[distance]?.map Token.kind).getD .endOfInput

def last (state : State) : Token :=
  state.previous.getD state.current

def advance (state : State) : State :=
  match state.following with
  | [] => state
  | next :: rest =>
    if state.current.kind = .endOfInput then state
    else
      { state with
        current := next, following := rest, previous := some state.current,
        consumed := state.consumed + 1 }

def skipToEnd (state : State) : State :=
  match state.following.reverse with
  | [] => state
  | final :: before =>
    { state with
      current := final, following := [], previous := some (before.head?.getD state.current),
      consumed := state.consumed + state.following.length }

def stop (state : State) : State :=
  { state.skipToEnd with usedUp := true }

end State

@[inline]
def peek : Parser Token :=
  fun _ state => (some state.current, state)

/-- The token after the one under the cursor; at the end it is the end mark itself. -/
@[inline]
def peekNext : Parser Token :=
  fun _ state => (some (state.following.head?.getD state.current), state)

@[inline]
def here : Parser Span :=
  fun _ state => (some state.current.span, state)

@[inline]
def lastSpan : Parser Span :=
  fun _ state => (some state.last.span, state)

@[inline]
def check (kind : TokenKind) : Parser Bool :=
  fun _ state => (some (state.current.kind == kind), state)

@[inline]
def checkAt (distance : Nat) (kind : TokenKind) : Parser Bool :=
  fun _ state => (some (state.kindAt distance == kind), state)

@[inline]
def checkWord (word : String) : Parser Bool :=
  fun _ state => (some (state.current.isWord word), state)

@[inline]
def lookahead (property : List Token → Bool) : Parser Bool :=
  fun _ state => (some (property state.tokens), state)

@[inline]
def atEnd : Parser Bool :=
  check .endOfInput

@[inline]
def advance : Parser Token :=
  fun _ state => (some state.current, state.advance)

@[inline]
def accept (kind : TokenKind) : Parser Bool :=
  fun _ state =>
    if state.current.kind == kind then (some true, state.advance) else (some false, state)

@[inline]
def replace (token : Token) : Parser Unit :=
  modify fun state => { state with current := token }

/-! ### Problems -/

@[inline]
def report (diagnostic : Diagnostic) : Parser Unit :=
  modify fun state => { state with found := diagnostic :: state.found }

/-- Records a violation of the grammar: at most one for each place, and not more than the
configuration allows. -/
def violation (problem : SyntaxProblem) (span : Span) : Parser Unit :=
  fun environment state =>
    if environment.configuration.maxSyntaxErrors ≤ state.reported.length
        || state.reported.contains span.start.offset then
      (some (), state)
    else
      (some (), { state with
        found := .error .syntaxError problem.message span :: state.found,
        reported := span.start.offset :: state.reported })

/-- Records that a feature is used below its level, once for each place. -/
def needFeature (feature : Feature) (span : Span) : Parser Unit :=
  fun environment state =>
    if environment.configuration.allows feature then (some (), state)
    else
      let message := feature.unavailableMessage
      let known := state.found.any fun diagnostic =>
        diagnostic.span.start.offset == span.start.offset && diagnostic.message == message
      if known then (some (), state)
      else
        (some (), { state with
          found := .error .featureNotAvailable message span :: state.found })

@[inline]
def reject (problem : SyntaxProblem) (span : Span) : Parser α := do
  violation problem span
  fail

/-- A kind of token that closes something. A missing one is reported where the text before it
ends. -/
def isCloser : TokenKind → Bool
  | .semicolon | .rightParen | .rightBracket | .rightBrace | .greater => true
  | _ => false

def reportMissing (kind : TokenKind) (construct : String) : Parser Unit := do
  let state ← get
  if isCloser kind || state.current.kind == .endOfInput then
    violation (.insert kind.describe construct) state.last.span
  else
    violation (.expected state.current.lexeme kind.describe) state.current.span

def expect (kind : TokenKind) (construct : String) : Parser Token := do
  if ← check kind then advance
  else
    reportMissing kind construct
    fail

/-! ### Nesting, repetition, recovery -/

/-- Opens a level, unless too many are open. -/
def descend : Parser Unit := do
  let state ← get
  if maxDepth ≤ state.depth then reject .nestedTooDeeply state.current.span
  else modify fun state => { state with levels := state.levels.opened }

/-- Closes a level after a parser, whether it succeeds or fails. -/
@[inline]
def closing (parser : Parser α) : Parser α :=
  fun environment state =>
    match parser environment state with
    | (result, after) => (result, { after with levels := after.levels.closed 1 })

/-- Runs a parser one level deeper. -/
@[inline]
def nested (parser : Parser α) : Parser α := do
  descend
  closing parser

/-- Opens a level for a link of a chain, and counts the link. -/
def link : Parser Unit := do
  descend
  modify fun state => { state with levels := state.levels.linked }

/-- Runs a parser that may link a chain, and closes the levels of the links that it counted,
whether it succeeds or fails. -/
@[inline]
def chained (parser : Parser α) : Parser α :=
  fun environment state =>
    match parser environment { state with levels := state.levels.unlinked } with
    | (result, after) =>
      (result, { after with levels := after.levels.released state.levels.links })

@[inline]
def withLambdas (allowed : Bool) (parser : Parser α) : Parser α :=
  fun environment state =>
    match parser environment { state with lambdas := allowed } with
    | (result, after) => (result, { after with lambdas := state.lambdas })

/-- Runs a parser for the inside of a switch, whose labels are its own. -/
@[inline]
def withLabels (parser : Parser α) : Parser α :=
  fun environment state =>
    match parser environment { state with labels := {} } with
    | (result, after) => (result, { after with labels := state.labels })

inductive Turn (σ β : Type) where
  | again (state : σ)
  | done (result : β)

@[specialize]
def iterateFrom (turn : σ → Parser (Turn σ β)) :
    Nat → σ → Environment → State → Option β × State
  | 0, _, environment, state =>
    (reject .nestedTooDeeply state.current.span : Parser β) environment state
  | fuel + 1, value, environment, state =>
    match turn value environment state with
    | (some (.again next), after) => iterateFrom turn fuel next environment after
    | (some (.done result), after) => (some result, after)
    | (none, after) => (none, after)

@[inline]
def iterate (start : σ) (turn : σ → Parser (Turn σ β)) : Parser β :=
  fun environment state => iterateFrom turn environment.bound start environment state

@[inline]
def commaSeparated (item : Parser α) : Parser (List α) :=
  iterate [] fun items => do
    let next ← item
    if ← accept .comma then pure (.again (next :: items))
    else pure (.done (next :: items).reverse)

/-- Items with a separator after each but the last, up to a closing token, before which a
separator may stand too. -/
@[inline]
def separatedUntil (close separator : TokenKind) (item : Parser α) : Parser (List α) :=
  iterate [] fun items => do
    if (← check close) || (← atEnd) then pure (.done items.reverse)
    else
      let next ← item
      if ← accept separator then pure (.again (next :: items))
      else pure (.done (next :: items).reverse)

/-- Items with commas between them, or none where the closing token follows at once. -/
@[inline]
def commaSeparatedBefore (close : TokenKind) (item : Parser α) : Parser (List α) := do
  if ← check close then pure [] else commaSeparated item

@[inline]
def optionalAt (kind : TokenKind) (parser : Parser α) : Parser (Option α) := do
  if ← check kind then pure (some (← parser)) else pure none

@[inline]
def optionalAfter (kind : TokenKind) (parser : Parser α) : Parser (Option α) := do
  if ← accept kind then pure (some (← parser)) else pure none

@[inline]
def optionalUnless (kind : TokenKind) (parser : Parser α) : Parser (Option α) := do
  if ← check kind then pure none else pure (some (← parser))

/-- Counts one turn of a loop that recovers from failures. When the count is used up, the rest of
the input is dropped. -/
def exhausted : Parser Bool :=
  fun _ state =>
    let counted := { state with steps := state.steps + 1 }
    if maxSteps < counted.steps then (some true, counted.stop) else (some false, counted)

/-- Runs a production of a loop that recovers from failures. After a failure the cursor moves to
where the production may start again, and by one token if it would not move at all. -/
@[inline]
def recovering (production : Parser α) (resynchronise : Parser Unit) : Parser (Option α) := do
  let before := (← get).consumed
  match ← attempt production with
  | some value => pure (some value)
  | none =>
    resynchronise
    if (← get).consumed = before then
      let _ ← advance
      pure none
    else pure none

def freshId : Parser Nat :=
  fun _ state => (some state.nextId, { state with nextId := state.nextId + 1 })

end JavaFrontEnd.Grammar
