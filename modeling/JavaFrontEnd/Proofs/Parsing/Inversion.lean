/-
Reading formulas back. If each operand of a formula that needs parentheses has them, then parsing
its tokens up to a semicolon yields the formula again, passes exactly these tokens and reports
nothing. The loop over operators takes one turn for each operator along the left operands at the top
of a formula, and the right operand of an operator is read by a loop of its own. What is shown of a
formula therefore speaks of any number of turns that are left when it has been read.
-/

import JavaFrontEnd.Proofs.Parsing.Formulas

namespace JavaFrontEnd

open List

open Grammar

namespace Formula

open Lookahead

variable {formula : Formula} {tokens rest : List Token}

/-! ### Reading a formula -/

/-- The cursor has moved over tokens, and nothing has been reported. -/
structure Crosses (before after : State) (passed rest : List Token) : Prop where
  start : before.tokens = passed ++ rest
  stop : after.tokens = rest
  consumed : after.consumed = before.consumed + passed.length
  found : after.found = before.found
  lambdas : after.lambdas = before.lambdas

namespace Crosses

variable {before middle after : State} {passed further rest : List Token}

theorem trans (first : Crosses before middle passed (further ++ rest))
    (second : Crosses middle after further rest) :
    Crosses before after (passed ++ further) rest where
  start := by rw [first.start, append_assoc]
  stop := second.stop
  consumed := by rw [second.consumed, first.consumed, length_append, Nat.add_assoc]
  found := second.found.trans first.found
  lambdas := second.lambdas.trans first.lambdas

theorem current_kind (crosses : Crosses before after passed rest) :
    after.current.kind = kind rest :=
  congrArg kind crosses.stop

end Crosses

/-- The cursor stands before a formula, and there is room enough to read it: levels of nesting, of
productions and turns of loops. -/
structure Before (formula : Formula) (tokens rest : List Token) (count : Nat)
    (env : Environment) (state : State) : Prop where
  start : state.tokens = tokens ++ rest
  ends : Ends (kind rest)
  levels : formula.size ≤ count
  depth : state.depth + formula.size ≤ maxDepth
  turns : formula.size < env.bound

section Reading

variable {env : Environment} {state : State} {count : Nat} {α β : Type} {token : Token}
  {parser : Parser Expression} {self : Recursion} {operator : UnaryOperator} {least : Nat}

theorem run_bind {second : α → Parser β} {after : State}
    (ran : first env state = (some value, after)) :
    (first >>= second) env state = second value env after := by
  show Parser.bind first second env state = _
  rw [Parser.bind, ran]

theorem crosses_advance (start : state.tokens = token :: rest) (isNotEnd : token.kind ≠ .endOfInput)
    (goesOn : rest ≠ []) :
    Crosses state state.advance [token] rest ∧ state.levels.Leads false state.advance.levels := by
  obtain ⟨rfl, rfl⟩ := cons.inj start
  obtain ⟨next, others, isRest⟩ := exists_cons_of_ne_nil goesOn
  unfold State.advance
  rw [isRest]
  dsimp only
  rw [if_neg isNotEnd]
  exact ⟨⟨by rw [start, isRest]; rfl, rfl, rfl, rfl, rfl⟩, .refl ..⟩

/-- A parser reads a formula and stands behind it afterwards, on the level where it began. -/
def ReadsAs (parser : Parser Expression) (formula : Formula) (tokens rest : List Token)
    (env : Environment) (state : State) : Prop :=
  ∃ expression after, parser env state = (some expression, after) ∧
    expression.formula? = some formula ∧ Crosses state after tokens rest ∧
      state.levels.Leads false after.levels

theorem ReadsAs.of_chained {read : Expression} {after : State}
    (isFormula : read.formula? = some formula)
    (crosses : Crosses state after tokens rest)
    (leads : state.levels.unlinked.Leads true after.levels)
    (ran : parser env { state with levels := state.levels.unlinked } = (some read, after)) :
    ReadsAs (chained parser) formula tokens rest env state := by
  refine ⟨read, { after with levels := after.levels.released state.levels.links }, ?_, isFormula,
    { crosses with }, leads.released⟩
  rw [chained, ran]

theorem ReadsAs.nested (isOpen : state.depth < maxDepth)
    (reads : ReadsAs parser formula tokens rest env
      { state with levels := state.levels.opened }) :
    ReadsAs (nested parser) formula tokens rest env state := by
  obtain ⟨expression, after, ran, isFormula, crosses, isLevel⟩ := reads
  refine ⟨expression, { after with levels := after.levels.closed 1 }, ?_, isFormula,
    { crosses with }, isLevel.closed isOpen⟩
  rw [nested_of_lt isOpen, closing, ran]

theorem ReadsAs.withLambdas
    (reads : ReadsAs parser formula tokens rest env { state with lambdas := allowed }) :
    ReadsAs (withLambdas allowed parser) formula tokens rest env state := by
  obtain ⟨expression, after, ran, isFormula, crosses, isLevel⟩ := reads
  refine ⟨expression, { after with lambdas := state.lambdas }, ?_, isFormula,
    { crosses with lambdas := rfl }, isLevel⟩
  rw [Grammar.withLambdas, ran]

theorem ReadsAs.chain (ends : Ends (kind rest)) (turns : 0 < env.bound)
    (reads : ReadsAs (primary self) formula tokens rest env
      { state with levels := state.levels.unlinked }) :
    ReadsAs (chain self) formula tokens rest env state := by
  obtain ⟨expression, after, ran, isFormula, crosses, isLevel⟩ := reads
  refine .of_chained isFormula { crosses with } isLevel.deepening ?_
  have isLast : continuesPrimary after.current.kind = false := by
    rw [crosses.current_kind, ends.apart.continuesPrimary]
  have stops : iterate expression (chainTurn self) env after = (some expression, after) := by
    unfold Grammar.iterate
    obtain ⟨more, isBound⟩ := Nat.exists_eq_succ_of_ne_zero turns.ne'
    rw [isBound, iterateFrom]
    have turned : chainTurn self expression env after = (some (.done expression), after) := by
      show (if continuesPrimary after.current.kind then _ else _ : Parser _) env after = _
      rw [isLast]
      rfl
    rw [turned]
  rw [run_bind ran, stops]

theorem kindAt_one (start : state.tokens = token :: rest) : state.kindAt 1 = kind rest := by
  obtain ⟨-, rfl⟩ := cons.inj start
  unfold State.kindAt
  cases state.following <;> rfl

theorem warnReserved_of_notMem (isFree : token.lexeme ∉ ["assert", "enum", "_"]) :
    warnReserved token env state = (some (), state) := by
  have isQuiet : reservedWarning? token.lexeme env.configuration.level = none := by
    unfold reservedWarning?
    split <;> simp_all
  simp only [warnReserved, bind, Parser.bind, Parser.configuration, isQuiet]
  rfl

theorem readsAs_name (start : state.tokens = token :: rest) (isName : token.kind = .identifier)
    (isFree : token.lexeme ∉ ["assert", "enum", "_"]) (ends : Ends (kind rest)) :
    ReadsAs (primary self) (.name token.lexeme) [token] rest env state := by
  obtain ⟨crosses, isLevel⟩ :=
    crosses_advance start (isName ▸ bare_identifier.ne_endOfInput) ends.ne_nil
  have isCurrent : state.current = token := (cons.inj start).1
  have isNoLambda : ¬ (state.lambdas && state.kindAt 1 == .arrow) = true := by
    rw [kindAt_one start, beq_eq_false_iff_ne.2 ends.apart.ne_arrow, Bool.and_false]
    decide
  have identified : identifier env state = (some (token.lexeme, token.span), state.advance) := by
    show (if state.current.kind = .identifier then _ else _ : Parser _) env state = _
    rw [isCurrent, if_pos isName]
    show (warnReserved token >>= fun _ => _ : Parser _) env state.advance = _
    rw [run_bind (warnReserved_of_notMem isFree)]
    rfl
  have isNoCall : (state.advance.current.kind == .leftParen) = false := by
    rw [crosses.current_kind, beq_eq_false_iff_ne]
    exact ends.apart.ne_leftParen
  refine ⟨.name token.lexeme state.advance.nextId token.span,
    { state.advance with nextId := state.advance.nextId + 1 }, ?_, rfl, { crosses with }, isLevel⟩
  have named : primary self env state = nameOrCall self env state := by
    simp only [primary, bind, Parser.bind, Parser.get, isCurrent, isName, TokenKind.isLiteral,
      TokenKind.isPrimitiveType]
    rw [if_neg (by decide), if_neg (by decide), if_neg isNoLambda]
  rw [named]
  show (identifier >>= fun _ => _ : Parser _) env state = _
  rw [run_bind identified]
  show (if (state.advance.current.kind == .leftParen) = true then _ else _ : Parser _) env
    state.advance = _
  rw [isNoCall]
  rfl

theorem expect_of_current (isExpected : state.current.kind = expected) :
    expect expected construct env state = (some state.current, state.advance) := by
  show (if (state.current.kind == expected) = true then _ else _ : Parser _) env state = _
  rw [if_pos (beq_iff_eq.2 isExpected)]
  rfl

theorem readsAs_parenthesized {closing : Token}
    (start : state.tokens = opening :: (tokens ++ closing :: rest))
    (opens : opening.kind = .leftParen) (closes : closing.kind = .rightParen)
    (isNoLambda : lambdaFollows state.tokens = false) (ends : Ends (kind rest))
    (reads : ReadsAs self.freeExpression formula tokens (closing :: rest) env state.advance) :
    ReadsAs (primary self) (.parenthesized formula) (opening :: (tokens ++ [closing])) rest
      env state := by
  have isCurrent : state.current = opening := (cons.inj start).1
  obtain ⟨crossesOpening, isLevel⟩ :=
    crosses_advance start (by rw [opens]; decide) (append_ne_nil_of_right_ne_nil _ nofun)
  obtain ⟨inner, after, ran, isFormula, crossesInner, isInnerLevel⟩ := reads
  obtain ⟨crossesClosing, isClosingLevel⟩ :=
    crosses_advance crossesInner.stop (by rw [closes]; decide) ends.ne_nil
  have isClosing : after.current.kind = .rightParen := crossesInner.current_kind.trans closes
  have bracketed : primary self env state = Grammar.parenthesized self env state := by
    simp only [primary, bind, Parser.bind, Parser.get, isCurrent, opens, TokenKind.isLiteral,
      TokenKind.isPrimitiveType, isNoLambda]
    rw [if_neg (by decide), if_neg (by decide), Bool.and_false, if_neg (by decide)]
  refine ⟨.parenthesized inner (state.current.span.cover after.advance.last.span), after.advance,
    ?_, by rw [Expression.formula?, isFormula]; rfl, ?_, ?_⟩
  · rw [bracketed]
    show (self.freeExpression >>= fun _ => _ : Parser _) env state.advance = _
    rw [run_bind ran]
    rw [run_bind (expect_of_current isClosing)]
    rfl
  · exact (crossesOpening.trans crossesInner).trans crossesClosing
  · exact (isLevel.trans isInnerLevel).trans isClosingLevel

theorem ReadsAs.unary_of_chain (isNoOperator : prefixOperator? state.current.kind = none)
    (isNoCast : (state.current.kind == .leftParen && castFollows state.tokens) = false)
    (reads : ReadsAs (Grammar.chain self) formula tokens rest env state) :
    ReadsAs (Grammar.unary self) formula tokens rest env state := by
  have chained : Grammar.unary self env state = Grammar.chain self env state := by
    simp only [Grammar.unary, bind, Parser.bind, peek, lookahead, isNoOperator, isNoCast]
    rw [if_neg (by decide)]
  unfold ReadsAs
  rw [chained]
  exact reads

theorem readsAs_unary (start : state.tokens = token :: (tokens ++ rest))
    (isOperator : token.kind = operator.written.1) (isPrefix : !operator.isIncrement)
    (ends : Ends (kind rest))
    (reads : ReadsAs self.operand formula tokens rest env state.advance) :
    ReadsAs (Grammar.unary self) (.unary operator formula) (token :: tokens) rest env state := by
  have isCurrent : state.current = token := (cons.inj start).1
  obtain ⟨crosses, isLevel⟩ := crosses_advance start
    (isOperator ▸ (bare_sign operator).ne_endOfInput)
    (append_ne_nil_of_right_ne_nil _ ends.ne_nil)
  obtain ⟨operand, after, ran, isFormula, crossesOperand, isOperandLevel⟩ := reads
  have isFound : prefixOperator? state.current.kind = some operator := by
    rw [isCurrent, isOperator]
    cases operator <;> first | rfl | cases isPrefix
  refine ⟨.unary operator operand (state.current.span.cover operand.span), after, ?_,
    by rw [Expression.formula?, isFormula]; rfl, crosses.trans crossesOperand,
    isLevel.trans isOperandLevel⟩
  simp only [Grammar.unary, bind, Parser.bind, peek, isFound]
  show (self.operand >>= fun _ => _ : Parser _) env state.advance = _
  rw [run_bind ran]
  rfl

/-! ### Operators -/

/-- An operand, and then the loop over operators with a number of turns. -/
def operationFrom (self : Recursion) (least turns : Nat) : Parser Expression :=
  Grammar.unary self >>= fun first env state =>
    iterateFrom (operationTurn self least) turns first env state

theorem operationTurn_done {expression : Expression} (ends : Ends state.current.kind)
    (isLooser : ∀ operator, binaryOperator? state.current.kind = some operator →
      operator.precedence < least) :
    operationTurn self least expression env state = (some (.done expression), state) := by
  have isNoTest : (state.current.kind == .instanceOf && decide (least ≤ instanceOfPrecedence)) =
      false := by
    rw [beq_eq_false_iff_ne.2 ends.apart.ne_instanceOf, Bool.false_and]
  simp only [operationTurn, bind, Parser.bind, peek]
  rw [if_neg (by rw [isNoTest]; decide)]
  cases isOperator : binaryOperator? state.current.kind with
  | some operator =>
    dsimp only
    rw [if_pos (isLooser operator isOperator)]
    rfl
  | none => rfl

theorem operationTurn_again (self : Recursion) (left : Expression) {operator : BinaryOperator}
    (start : state.tokens = token :: (tokens ++ rest)) (isOperator : token.kind = operator.kind)
    (isTight : least ≤ operator.precedence) (isOpen : state.depth < maxDepth)
    (ends : Ends (kind rest))
    (reads : ReadsAs (self (.operation (operator.precedence + 1))) formula tokens rest env
      { state with levels := state.levels.opened.linked }.advance) :
    ∃ right after span, operationTurn self least left env state =
        (some (.again (.binary operator left right span)), after) ∧
      right.formula? = some formula ∧ Crosses state after (token :: tokens) rest ∧
        state.levels.opened.linked.Leads false after.levels := by
  have isCurrent : state.current = token := (cons.inj start).1
  have deeperStart : { state with levels := state.levels.opened.linked }.tokens =
      token :: (tokens ++ rest) := start
  obtain ⟨crosses, isLevel⟩ := crosses_advance deeperStart
    (isOperator ▸ (bare_operator operator).ne_endOfInput)
    (append_ne_nil_of_right_ne_nil _ ends.ne_nil)
  obtain ⟨right, after, ran, isFormula, crossesRight, isRightLevel⟩ := reads
  have crossesBoth := crosses.trans crossesRight
  refine ⟨right, after, left.span.cover right.span, ?_, isFormula,
    ⟨crossesBoth.start, crossesBoth.stop, crossesBoth.consumed, crossesBoth.found,
      crossesBoth.lambdas⟩, isLevel.trans isRightLevel⟩
  have isNoTest : (state.current.kind == .instanceOf && decide (least ≤ instanceOfPrecedence)) =
      false := by
    rw [isCurrent, isOperator, beq_eq_false_iff_ne.2 (Ends.operator operator).apart.ne_instanceOf,
      Bool.false_and]
  have isFound : binaryOperator? state.current.kind = some operator := by
    rw [isCurrent, isOperator, binaryOperator?_kind]
  have partRan : operationPart self operator left env
      { state with levels := state.levels.opened.linked } =
        (some (.binary operator left right (left.span.cover right.span)), after) := by
    show (self (.operation (operator.precedence + 1)) >>= fun _ => _ : Parser _) env
      { state with levels := state.levels.opened.linked }.advance = _
    rw [run_bind ran]
    rfl
  simp only [operationTurn, bind, Parser.bind, peek]
  rw [if_neg (by rw [isNoTest]; decide), isFound]
  dsimp only
  rw [if_neg (Nat.not_lt.2 isTight), Parser.bind, link_of_lt isOpen]
  dsimp only
  rw [Parser.bind, partRan]
  rfl

def ReadsOperand (formula : Formula) (tokens : List Token) : Prop :=
  ∀ ⦃rest count env state⦄, Before formula tokens rest count env state →
    ReadsAs (Grammar.unary (levels count)) formula tokens rest env state

/-- Tokens are read as the formula that they spell, in as many turns of the loop over operators as
there are operators at its top. What follows binds no more tightly. -/
def ReadsTurns (formula : Formula) (tokens : List Token) : Prop :=
  ∀ ⦃rest count env state⦄, Before formula tokens rest count env state →
    (∀ operator, binaryOperator? (kind rest) = some operator →
      operator.precedence ≤ formula.precedence) →
    ∀ ⦃least⦄, least ≤ formula.precedence → ∀ more,
      ∃ expression after, expression.formula? = some formula ∧ Crosses state after tokens rest ∧
        after.depth = state.depth + formula.turns ∧ state.levels.Leads true after.levels ∧
        operationFrom (levels count) least (more + formula.turns) env state =
          iterateFrom (operationTurn (levels count) least) more expression env after

theorem ReadsOperand.readsTurns (reads : ReadsOperand formula tokens)
    (isOperand : formula.isOperand) : ReadsTurns formula tokens := by
  intro rest count env state before _ least _ more
  have noTurns : formula.turns = 0 := by
    cases formula with
    | binary => cases isOperand
    | name | unary | parenthesized => rfl
  obtain ⟨expression, after, ran, isFormula, crosses, isLevel⟩ := reads before
  rw [noTurns]
  exact ⟨expression, after, isFormula, crosses, isLevel.depth_eq, isLevel.deepening,
    run_bind ran⟩

theorem ReadsTurns.operation (reads : ReadsTurns formula tokens)
    (before : Before formula tokens rest count env state)
    (isTight : least ≤ formula.precedence)
    (isLooser : ∀ operator, binaryOperator? (kind rest) = some operator →
      operator.precedence < least) :
    ReadsAs (operation (levels count) least) formula tokens rest env state := by
  have isBound := Nat.lt_trans formula.turns_lt_size before.turns
  obtain ⟨more, turnsLeft⟩ : ∃ more, env.bound = more + 1 + formula.turns :=
    ⟨env.bound - formula.turns - 1, by omega⟩
  have before : Before formula tokens rest count env
      { state with levels := state.levels.unlinked } := { before with }
  obtain ⟨expression, after, isFormula, crosses, -, leads, ran⟩ := reads before
    (fun operator isNext => Nat.le_of_lt (Nat.lt_of_lt_of_le (isLooser operator isNext) isTight))
    isTight (more + 1)
  have isKind := crosses.current_kind
  show ReadsAs (chained (operationFrom (levels count) least env.bound)) formula tokens rest env _
  rw [turnsLeft]
  refine .of_chained isFormula { crosses with } leads ?_
  rw [ran, iterateFrom, operationTurn_done (isKind ▸ before.ends) (isKind ▸ isLooser)]

theorem one_le_precedence (formula : Formula) : 1 ≤ formula.precedence := by
  cases formula with
  | binary operator =>
    show 1 ≤ operator.precedence
    cases operator <;> decide
  | name | unary | parenthesized => exact Nat.le_add_left 1 10

theorem ReadsTurns.expression (reads : ReadsTurns formula tokens)
    (before : Before formula tokens rest count env state)
    (isNoOperator : binaryOperator? (kind rest) = none) :
    ReadsAs (expression (levels count)) formula tokens rest env state := by
  obtain ⟨read, after, ran, isFormula, crosses, isLevel⟩ :=
    reads.operation before formula.one_le_precedence (by simp [isNoOperator])
  refine ⟨read, after, ?_, isFormula, crosses, isLevel⟩
  have apart := before.ends.apart
  have isKind := crosses.current_kind
  have isNoQuestion : (after.current.kind == .question) = false := by
    rw [isKind, beq_eq_false_iff_ne.2 apart.ne_question]
  have conditionalRan : conditional (levels count) env state = (some read, after) := by
    show (Grammar.operation (levels count) 1 >>= fun _ => _ : Parser _) env state = _
    rw [run_bind ran]
    simp only [bind, Parser.bind, accept, isNoQuestion]
    rfl
  show (conditional (levels count) >>= fun _ => _ : Parser _) env state = _
  rw [run_bind conditionalRan]
  simp only [bind, Parser.bind, peek, isKind, apart.assignmentOperator?]
  rfl

theorem readsOperand_name (isName : token.kind = .identifier)
    (isFree : token.lexeme ∉ ["assert", "enum", "_"]) :
    ReadsOperand (.name token.lexeme) [token] := by
  intro rest count env state before
  have isKind : state.current.kind = .identifier := (cons.inj before.start).1 ▸ isName
  refine .unary_of_chain (by rw [isKind]; rfl) (by rw [isKind]; rfl) ?_
  exact .chain before.ends (Nat.zero_lt_of_lt before.turns)
    (readsAs_name before.start isName isFree before.ends)

theorem readsOperand_unary (isOperator : token.kind = operator.written.1)
    (isPrefix : !operator.isIncrement) (reads : ReadsOperand formula tokens) :
    ReadsOperand (.unary operator formula) (token :: tokens) := by
  intro rest count env state before
  obtain ⟨start, ends, isDeep, depth, turns⟩ := before
  rw [size] at isDeep depth turns
  obtain ⟨count, rfl⟩ := Nat.exists_eq_succ_of_ne_zero (Nat.ne_zero_of_lt isDeep)
  obtain ⟨crosses, isLevel⟩ := crosses_advance start
    (isOperator ▸ (bare_sign operator).ne_endOfInput)
    (append_ne_nil_of_right_ne_nil _ ends.ne_nil)
  have isLevel : state.advance.depth = state.depth := isLevel.depth_eq
  refine readsAs_unary start isOperator isPrefix ends (.nested (by omega) ?_)
  refine reads ⟨crosses.stop, ends, by omega, ?_, by omega⟩
  show state.advance.depth + 1 + formula.size ≤ maxDepth
  omega

theorem readsOperand_parenthesized {opening closing : Token} (opens : opening.kind = .leftParen)
    (closes : closing.kind = .rightParen) (spelled : Spelled formula tokens)
    (reads : ReadsTurns formula tokens) :
    ReadsOperand (.parenthesized formula) (opening :: (tokens ++ [closing])) := by
  intro rest count env state before
  obtain ⟨start, ends, isDeep, depth, turns⟩ := before
  rw [size] at isDeep depth turns
  obtain ⟨count, rfl⟩ := Nat.exists_eq_succ_of_ne_zero (Nat.ne_zero_of_lt isDeep)
  rw [cons_append, append_assoc, singleton_append] at start
  have isKind : state.current.kind = .leftParen := (cons.inj start).1 ▸ opens
  let inner := { state with levels := state.levels.unlinked }
  obtain ⟨crosses, isLevel⟩ := @crosses_advance _ inner _ start (by rw [opens]; decide)
    (append_ne_nil_of_right_ne_nil _ (by simp))
  have isLevel : inner.advance.depth = inner.depth := isLevel.depth_eq
  have isDepth : inner.depth = state.depth := rfl
  refine .unary_of_chain (by rw [isKind]; rfl) ?_ (.chain ends (by omega) ?_)
  · rw [start, spelled.castFollows_eq_false closes ends, Bool.and_false]
  refine readsAs_parenthesized start opens closes ?_ ends (.withLambdas (.nested ?_ ?_))
  · show Lookahead.lambdaFollows state.tokens = false
    rw [start, spelled.lambdaFollows_eq_false opens closes ends]
  · show inner.advance.depth < maxDepth
    omega
  · have endsInner : Ends (kind (closing :: rest)) := (closes ▸ .closing : Ends closing.kind)
    refine reads.expression ⟨crosses.stop, endsInner, by omega, ?_, by omega⟩ ?_
    · show inner.advance.depth + 1 + formula.size ≤ maxDepth
      omega
    · rw [Lookahead.kind, closes]
      rfl

theorem readsTurns_binary {operator : BinaryOperator} {left right : Formula}
    (isOperator : token.kind = operator.kind) (isTightLeft : operator.precedence ≤ left.precedence)
    (isTightRight : operator.precedence < right.precedence) (readsLeft : ReadsTurns left first)
    (readsRight : ReadsTurns right second) :
    ReadsTurns (.binary operator left right) (first ++ token :: second) := by
  intro rest count env state before isLooser least isTight more
  obtain ⟨start, ends, isDeep, depth, turns⟩ := before
  rw [size] at isDeep depth turns
  rw [append_assoc, cons_append] at start
  obtain ⟨count, rfl⟩ := Nat.exists_eq_succ_of_ne_zero (Nat.ne_zero_of_lt isDeep)
  have endsLeft : Ends (kind (token :: (second ++ rest))) :=
    (isOperator ▸ .operator operator : Ends token.kind)
  have isNext : binaryOperator? (kind (token :: (second ++ rest))) = some operator := by
    rw [Lookahead.kind, isOperator, binaryOperator?_kind]
  have beforeLeft : Before left first (token :: (second ++ rest)) (count + 1) env state :=
    ⟨start, endsLeft, by omega, by omega, by omega⟩
  obtain ⟨leftRead, middle, isLeft, crossesLeft, isMiddle, leads, ranLeft⟩ := readsLeft beforeLeft
    (fun _ isOther => Option.some.inj (isNext.symm.trans isOther) ▸ isTightLeft)
    (Nat.le_trans isTight isTightLeft) (more + 1)
  have turnsLeft := left.turns_lt_size
  have isOpen : middle.depth < maxDepth := by omega
  -- The turn for this operator, one level above those for the operators of the left operand.
  have deeperStart : { middle with levels := middle.levels.opened.linked }.tokens =
      token :: (second ++ rest) := crossesLeft.stop
  obtain ⟨crossesToken, isTokenLevel⟩ := crosses_advance deeperStart
    (isOperator ▸ (bare_operator operator).ne_endOfInput)
    (append_ne_nil_of_right_ne_nil _ ends.ne_nil)
  have beforeRight : Before right second rest count env
      { middle with levels := middle.levels.opened.linked }.advance := by
    refine ⟨crossesToken.stop, ends, by omega, ?_, by omega⟩
    have isToken : State.depth _ = middle.depth + 1 := isTokenLevel.depth_eq
    omega
  obtain ⟨rightRead, after, span, turned, isRight, crossesRight, isLevel⟩ :=
    operationTurn_again (levels (count + 1)) leftRead crossesLeft.stop isOperator isTight
      isOpen ends
      (readsRight.operation beforeRight isTightRight fun other isOther =>
        Nat.lt_succ_of_le (isLooser other isOther))
  refine ⟨.binary operator leftRead rightRead span, after, ?_, crossesLeft.trans crossesRight, ?_,
    leads.trans ((Levels.Leads.linked isOpen).trans isLevel.deepening), ?_⟩
  · rw [Expression.formula?, isLeft, isRight]
    rfl
  · exact isLevel.depth_eq.trans (congrArg (· + 1) isMiddle)
  · show operationFrom _ least (more + (left.turns + 1)) env state = _
    rw [show more + (left.turns + 1) = more + 1 + left.turns by omega, ranLeft, iterateFrom, turned]

theorem Spelled.reads (spelled : Spelled formula tokens) (wellFormed : formula.WellFormed) :
    (formula.isOperand → ReadsOperand formula tokens) ∧ ReadsTurns formula tokens := by
  induction spelled with
  | name isName =>
    have reads := readsOperand_name isName wellFormed
    exact ⟨fun _ => reads, reads.readsTurns rfl⟩
  | unary isOperator _ ih =>
    obtain ⟨isPrefix, isOperand, wellFormed⟩ := wellFormed
    have reads :=
      readsOperand_unary isOperator isPrefix ((ih wellFormed).1 isOperand)
    exact ⟨fun _ => reads, reads.readsTurns rfl⟩
  | parenthesized opens closes spelled ih =>
    have reads :=
      readsOperand_parenthesized opens closes spelled (ih wellFormed).2
    exact ⟨fun _ => reads, reads.readsTurns rfl⟩
  | binary isOperator _ _ readLeft readRight =>
    obtain ⟨isTightLeft, isTightRight, wellFormedLeft, wellFormedRight⟩ := wellFormed
    exact ⟨nofun, readsTurns_binary isOperator isTightLeft isTightRight (readLeft wellFormedLeft).2
      (readRight wellFormedRight).2⟩

end Reading

/-! ### Reading back what is written -/

theorem exists_withEnd_eq (tokens : List Token) : ∃ more, withEnd tokens = tokens ++ more := by
  unfold withEnd
  split
  · split
    · exact ⟨[], (append_nil tokens).symm⟩
    · exact ⟨_, rfl⟩
  next isNil => exact ⟨_, by rw [getLast?_eq_none_iff.1 isNil]; rfl⟩

/-- Parsing the tokens of a formula up to a semicolon yields the formula: it passes exactly these
tokens and reports nothing. -/
theorem expression_inverts_written (configuration : Configuration) (formula : Formula)
    (tokens rest : List Token) (semicolon : Token) (wellFormed : formula.WellFormed)
    (isSmall : formula.size ≤ 200) (written : tokens.map Token.written = formula.written)
    (isSemicolon : semicolon.kind = .semicolon) :
    ∃ expression final,
      recursion.expression ⟨configuration, boundFor (tokens ++ semicolon :: rest).length⟩
          (.initial (tokens ++ semicolon :: rest)) = (some expression, final) ∧
        expression.formula? = some formula ∧ final.consumed = tokens.length ∧
        final.current = semicolon ∧ final.found = [] := by
  obtain ⟨more, isEnded⟩ := exists_withEnd_eq (tokens ++ semicolon :: rest)
  have start : (State.initial (tokens ++ semicolon :: rest)).tokens =
      tokens ++ semicolon :: (rest ++ more) := by
    rw [tokens_initial, isEnded, append_assoc, cons_append]
  have ends : Ends (kind (semicolon :: (rest ++ more))) :=
    (isSemicolon ▸ .semicolon : Ends semicolon.kind)
  have isBound : 200000 ≤ boundFor (tokens ++ semicolon :: rest).length := Nat.le_add_right _ _
  obtain ⟨count, isCount⟩ : ∃ count, boundFor (tokens ++ semicolon :: rest).length = count + 1 :=
    ⟨_, (Nat.sub_add_cancel (Nat.le_trans (by decide) isBound)).symm⟩
  have before : Before formula tokens (semicolon :: (rest ++ more)) count
      ⟨configuration, boundFor (tokens ++ semicolon :: rest).length⟩
      { State.initial (tokens ++ semicolon :: rest) with levels := Levels.opened {} } := by
    refine ⟨start, ends, by omega, ?_, ?_⟩
    · show 0 + 1 + formula.size ≤ 256
      omega
    · show formula.size < boundFor (tokens ++ semicolon :: rest).length
      omega
  have reads := ((spelled_of_written formula tokens written).reads wellFormed).2.expression before
    (by rw [Lookahead.kind, isSemicolon]; rfl)
  have production : levels (boundFor (tokens ++ semicolon :: rest).length) .expression =
      expression (levels count) := by
    rw [isCount]
    rfl
  rw [← production] at reads
  obtain ⟨expression, final, ran, isFormula, crosses, -⟩ :=
    ReadsAs.nested (by exact Nat.zero_lt_succ _) reads
  refine ⟨expression, final, ran, isFormula, ?_, (List.cons.inj crosses.stop).1, crosses.found⟩
  rw [crosses.consumed]
  exact Nat.zero_add _

/-- The formula `(a & b) - (c < d > (x))`, of which each opening parenthesis might begin a cast. -/
def typeLike : Formula :=
  .binary .subtract (.parenthesized (.binary .and (.name "a") (.name "b")))
    (.parenthesized
      (.binary .greater (.binary .less (.name "c") (.name "d")) (.parenthesized (.name "x"))))

def tokenOf (written : TokenKind × String) : Token :=
  ⟨written.1, true, written.2, ⟨.nowhere, .nowhere⟩⟩

/-- A formula in which intersections and type arguments might be seen is read back. -/
theorem expression_inverts_written_typeLike :
    typeLike.WellFormed ∧ typeLike.size = 12 ∧
      (typeLike.written.map tokenOf).map Token.written = typeLike.written ∧
      ∃ expression final,
        recursion.expression
            ⟨{}, boundFor (typeLike.written.map tokenOf ++ [tokenOf (.semicolon, ";")]).length⟩
            (.initial (typeLike.written.map tokenOf ++ [tokenOf (.semicolon, ";")])) =
          (some expression, final) ∧
        expression.formula? = some typeLike ∧
        final.consumed = (typeLike.written.map tokenOf).length ∧
        final.current = tokenOf (.semicolon, ";") ∧ final.found = [] :=
  ⟨by decide, rfl, rfl, expression_inverts_written {} typeLike (typeLike.written.map tokenOf) []
    (tokenOf (.semicolon, ";")) (by decide) (by decide) rfl rfl⟩

end Formula

end JavaFrontEnd
