/-
Blocks, statements and switches.
-/

import JavaFrontEnd.Grammar.Declaration

namespace JavaFrontEnd.Grammar

variable (self : Recursion) (before : List CaseElement) (start : Span)

/-! ### Ends and beginnings of statements -/

/-- A word that begins a statement, at which a block can be understood again. -/
def beginsStatement : TokenKind → Bool
  | .if | .for | .while | .do | .return | .switch | .try | .throw | .case | .default => true
  | _ => false

/-- Moves to where the next statement may begin: after a semicolon, before a brace, or before a
word on a new line that begins a statement. -/
def skipToStatement : Parser Unit :=
  iterate () fun _ => do
    let state ← Parser.get
    match state.current.kind with
    | .endOfInput | .rightBrace | .leftBrace => pure (.done ())
    | .semicolon =>
      let _ ← advance
      pure (.done ())
    | kind =>
      if beginsStatement kind && onNewLine state then pure (.done ())
      else
        let _ ← advance
        pure (.again ())

/-- The semicolon that ends a statement. A missing one is reported and counts as written where a
line ends; a single stray token before it is dropped. -/
def endStatement : Parser Unit := do
  if ← accept .semicolon then pure ()
  else
    let state ← Parser.get
    let token := state.current
    let sameLine := token.span.start.line == state.last.span.stop.line
    let closing := token.kind == .endOfInput || token.kind == .rightBrace
    if sameLine && !closing && state.kindAt 1 == .semicolon then
      violation (.delete token.lexeme) token.span
      let _ ← advance
      let _ ← advance
    else
      reportMissing .semicolon "BlockStatements"
      if !sameLine || closing then pure () else Parser.fail

def parenthesizedCondition (construct : String) : Parser Expression := do
  let _ ← expect .leftParen construct
  let condition ← self.expression
  let _ ← expect .rightParen construct
  pure condition

/-! ### Local declarations -/

def declarator (name : String × Span) : Parser Declarator := do
  let dimensions ← dimensions
  let initializer ← optionalAfter .assign (variableInitializer self)
  pure
    { header :=
        { name := name.1, nameSpan := name.2, dimensions, span := name.2.cover (← lastSpan) },
      initializer }

def declaratorTurn (found : List Declarator × String × Span) :
    Parser (Turn (List Declarator × String × Span) (List Declarator)) := do
  let next ← declarator self found.2
  if ← accept .comma then
    let name ← identifier
    pure (.again (next :: found.1, name))
  else pure (.done (next :: found.1).reverse)

def declarators (name : String) (nameSpan : Span) :
    Parser (List Declarator) :=
  iterate ([], name, nameSpan) (declaratorTurn self)

def localDeclaration (opening : TypeStart) : Parser Statement := do
  let type ← self.writtenType
  let (name, nameSpan) ← identifier
  let declarations ← declarators self name nameSpan
  let { start, modifiers, annotations } := opening
  pure (.locals { modifiers, annotations, type } declarations (start.cover (← lastSpan)))

def localStatement (opening : TypeStart) : Parser Statement := do
  let declaration ← localDeclaration self opening
  endStatement
  pure declaration

def noteLocalType (keyword : Token) : Parser Unit := do
  if keyword.kind == .interface || keyword.kind == .enum then
    needFeature .localEnumsAndInterfaces keyword.span

def modifiedStatement : Parser Statement := do
  let (modifiers, annotations) ← modifiers self
  let keyword ← peek
  let opening : TypeStart := { start, modifiers, annotations }
  match ← typeDeclaration? self opening with
  | some declaration =>
    noteLocalType keyword
    pure (.typeDeclaration declaration)
  | none => localStatement self opening

def beginsLocalType : TokenKind → Bool
  | .class | .interface | .enum | .abstract | .static | .strictfp => true
  | _ => false

def yieldFollows : Parser Bool := do
  let level := (← Parser.configuration).level
  lookahead (Lookahead.yieldFollows level)

def blockStatement : Parser Statement := do
  let token ← peek
  if beginsLocalType token.kind || (← lookahead Lookahead.recordFollows) || token.kind == .final
      || (← annotationFollows) then
    modifiedStatement self token.span
  else if ← yieldFollows then self.statement
  else if (← lookahead Lookahead.declarationFollows) && !(← checkAt 1 .colon) then
    localStatement self { start := token.span, modifiers := [], annotations := [] }
  else self.statement

def statementTurn (stop : List Token → Bool) (found : List Statement) :
    Parser (Turn (List Statement) (List Statement)) := do
  if (← lookahead stop) || (← check .rightBrace) || (← atEnd) then pure (.done found.reverse)
  else if ← exhausted then pure (.done found.reverse)
  else
    match ← recovering (blockStatement self) skipToStatement with
    | some next => pure (.again (next :: found))
    | none => pure (.again found)

def statementsUntil (stop : List Token → Bool) : Parser (List Statement) :=
  iterate [] (statementTurn self stop)

def closingBrace (construct : String) : Parser Span := do
  if ← check .rightBrace then pure (← advance).span
  else
    let span ← lastSpan
    violation (.insert "\x7d" construct) span
    pure span

def block : Parser Block := do
  let opening := (← expect .leftBrace "Block").span
  let statements ← statementsUntil self fun _ => false
  let closing ← closingBrace "Block"
  pure { statements, span := opening.cover closing }

/-! ### Switches -/

def labelProblem (problem : LabelProblem) (span : Span) : Parser Unit :=
  report (.error problem.category problem.message span)

def noteDefault (span : Span) : Parser Unit := do
  if (← Parser.get).labels.hasDefault then labelProblem .duplicateDefault span
  Parser.modify fun state => { state with labels := { state.labels with hasDefault := true } }

def noteArrow (arrow : Bool) (span : Span) : Parser Unit := do
  match (← Parser.get).labels.arrows with
  | none =>
    Parser.modify fun state => { state with labels := { state.labels with arrows := some arrow } }
  | some kind => if kind ≠ arrow then violation .differentCaseKinds span

/-- The word `default` among the elements of a label, where only `null` may come before it. -/
def defaultElement : Parser CaseElement := do
  let span := (← advance).span
  match before with
  | [.null _] => pure ()
  | _ => labelProblem .defaultPlacement span
  noteDefault span
  pure (.default span)

def patternElement : Parser CaseElement := do
  let tested ← pattern self
  needFeature .switchPatterns tested.span
  if before.any fun element => element.pattern?.isSome then
    labelProblem .severalPatterns tested.span
  else if before.any fun element => element.constant?.isSome then
    labelProblem .mixedPatterns tested.span
  pure (.pattern tested)

def constantElement : Parser CaseElement := do
  let value ← withLambdas false (conditional self)
  if before.any fun element => element.pattern?.isSome then
    labelProblem .mixedPatterns value.span
  match before with
  | [.constant _] => needFeature .multiConstantCaseLabels value.span
  | _ => pure ()
  pure (.constant value)

def caseElement : Parser CaseElement := do
  let token ← peek
  if token.kind = .default then defaultElement before
  else if token.kind == .nullWord
      && ((← checkAt 1 .comma) || (← checkAt 1 .colon) || (← checkAt 1 .arrow)) then
    let _ ← advance
    needFeature .switchPatterns token.span
    pure (.null token.span)
  else if ← lookahead Lookahead.patternFollows then patternElement self before
  else constantElement self before

def caseElements : Parser (List CaseElement) :=
  iterate [] fun found => do
    let element ← caseElement self found
    let found := found ++ [element]
    if ← accept .comma then pure (.again found) else pure (.done found)

def guardOf (elements : List CaseElement) : Parser (Option Expression) := do
  let guarded := elements.any fun element => element.pattern?.isSome
  if guarded && ((← check .andAnd) || (← checkWord "when")) then
    let _ ← advance
    pure (some (← withLambdas false self.expression))
  else pure none

def labelEnd : Parser Bool := do
  if ← check .arrow then
    let span := (← advance).span
    needFeature .arrowCases span
    pure true
  else
    let _ ← expect .colon "SwitchLabel"
    pure false

def labelParts : Parser (List CaseElement × Option Expression) := do
  if ← check .default then
    let span := (← advance).span
    noteDefault span
    pure ([.default span], none)
  else
    let _ ← expect .case "SwitchLabel"
    let elements ← caseElements self
    let guard ← guardOf self elements
    pure (elements, guard)

def switchLabel : Parser (SwitchLabel × Bool) := do
  let start ← here
  let (elements, guard) ← labelParts self
  let arrow ← labelEnd
  noteArrow arrow start
  pure ({ elements, guard, span := start.cover (← lastSpan) }, arrow)

def thrownValue : Parser (Expression × Span) := do
  let start := (← advance).span
  let value ← self.expression
  endStatement
  pure (value, start.cover (← lastSpan))

def switchRule (label : SwitchLabel) : Parser SwitchCase := do
  if ← check .leftBrace then
    let block ← self.block
    pure (.blockRule label block (start.cover (← lastSpan)))
  else if ← check .throw then
    let (value, throwSpan) ← thrownValue self
    pure (.throwRule label value throwSpan (start.cover (← lastSpan)))
  else
    let value ← self.expression
    endStatement
    pure (.valueRule label value (start.cover (← lastSpan)))

def furtherLabels (first : SwitchLabel) : Parser (List SwitchLabel) :=
  iterate [first] fun found => do
    if ← lookahead Lookahead.labelFollows then
      let (label, _) ← switchLabel self
      pure (.again (label :: found))
    else pure (.done found.reverse)

def switchGroup (first : SwitchLabel) : Parser SwitchCase := do
  let labels ← furtherLabels self first
  let statements ← statementsUntil self Lookahead.labelFollows
  pure (.group labels statements (start.cover (← lastSpan)))

def switchCase : Parser SwitchCase := do
  let start ← here
  let (first, arrow) ← switchLabel self
  if arrow then switchRule self start first else switchGroup self start first

def skipToLabel : Parser Unit :=
  iterate 0 fun depth => do
    let kind := (← peek).kind
    if kind == .endOfInput then pure (.done ())
    else if kind == .leftBrace then
      let _ ← advance
      pure (.again (depth + 1))
    else if depth == 0 && (kind == .rightBrace || kind == .case || kind == .default) then
      pure (.done ())
    else
      let _ ← advance
      pure (.again (if kind == .rightBrace then depth - 1 else depth))

/-- A statement where a label should be: it is reported and dropped. -/
def strayStatement : Parser Unit := do
  let state ← Parser.get
  violation (.expected state.current.lexeme "case") state.current.span
  let _ ← Parser.attempt (blockStatement self)
  if (← Parser.get).consumed = state.consumed then
    let _ ← advance

def caseTurn (found : List SwitchCase) :
    Parser (Turn (List SwitchCase) (List SwitchCase)) := do
  if (← check .rightBrace) || (← atEnd) then pure (.done found.reverse)
  else if ← exhausted then pure (.done found.reverse)
  else if ← lookahead Lookahead.labelFollows then
    match ← recovering (switchCase self) skipToLabel with
    | some next => pure (.again (next :: found))
    | none => pure (.again found)
  else
    strayStatement self
    pure (.again found)

def switchCases : Parser (List SwitchCase) :=
  iterate [] (caseTurn self)

def switchParts : Parser SwitchParts := do
  let keywordSpan := (← expect .switch "SwitchStatement").span
  let _ ← expect .leftParen "SwitchStatement"
  let selector ← self.expression
  let _ ← expect .rightParen "SwitchStatement"
  let _ ← expect .leftBrace "SwitchBlock"
  let cases ← withLabels (switchCases self)
  let closing ← closingBrace "SwitchBlock"
  pure { selector, cases, keywordSpan, span := keywordSpan.cover closing }

/-! ### Statements -/

def ifStatement : Parser Statement := do
  let start := (← expect .if "IfStatement").span
  let condition ← parenthesizedCondition self "IfStatement"
  let yes ← self.statement
  let no ← optionalAfter .else self.statement
  pure (.conditional condition yes no (start.cover (← lastSpan)))

def whileStatement : Parser Statement := do
  let start := (← advance).span
  let condition ← parenthesizedCondition self "WhileStatement"
  let body ← self.statement
  pure (.while condition body (start.cover (← lastSpan)))

def doStatement : Parser Statement := do
  let start := (← advance).span
  let body ← self.statement
  let _ ← expect .while "DoStatement"
  let condition ← parenthesizedCondition self "DoStatement"
  endStatement
  pure (.doWhile body condition (start.cover (← lastSpan)))

def forRest (initial : List Statement) :
    Parser Statement := do
  let _ ← expect .semicolon "ForStatement"
  let condition ← optionalUnless .semicolon self.expression
  let _ ← expect .semicolon "ForStatement"
  let update ← commaSeparatedBefore .rightParen self.expression
  let _ ← expect .rightParen "ForStatement"
  let body ← self.statement
  pure (.for initial condition update body (start.cover (← lastSpan)))

def forEachRest (bound : BoundVariable) :
    Parser Statement := do
  let colon := (← advance).span
  needFeature .forEach colon
  let iterable ← self.expression
  let _ ← expect .rightParen "ForStatement"
  let body ← self.statement
  pure (.forEach bound iterable body (start.cover (← lastSpan)))

def forDeclared : Parser Statement := do
  let declarationStart ← here
  let (modifiers, annotations) ← modifiers self
  let type ← self.writtenType
  let (name, nameSpan) ← identifier
  if ← check .colon then forEachRest self start { modifiers, type, name, nameSpan }
  else
    let declarations ← declarators self name nameSpan
    let span := declarationStart.cover (← lastSpan)
    forRest self start [.locals { modifiers, annotations, type } declarations span]

def forStatement : Parser Statement := do
  let start := (← expect .for "ForStatement").span
  let _ ← expect .leftParen "ForStatement"
  if (← check .final) || (← annotationFollows) || (← lookahead Lookahead.declarationFollows) then
    forDeclared self start
  else if ← check .semicolon then forRest self start []
  else
    let initial ← commaSeparated self.expression
    forRest self start (initial.map fun value => .expression value value.span)

def resource : Parser Resource := do
  let start ← here
  if (← check .final) || (← lookahead Lookahead.declarationFollows) then
    let (modifiers, _) ← modifiers self
    let type ← self.writtenType
    let (name, nameSpan) ← identifier
    let _ ← expect .assign "Resource"
    let initializer ← self.expression
    pure (.declared { modifiers, type, name, nameSpan } initializer (start.cover (← lastSpan)))
  else
    let value ← self.expression
    pure (.expression value value.span)

def resources : Parser (List Resource) := do
  if ← accept .leftParen then
    let found ← separatedUntil .rightParen .semicolon (resource self)
    let _ ← expect .rightParen "ResourceSpecification"
    pure found
  else pure []

def alternatives : Parser (List WrittenType) :=
  iterate [] fun found => do
    if ← accept .pipe then pure (.again ((← self.writtenType) :: found))
    else pure (.done found.reverse)

def catchParameter : Parser (Parameter × List WrittenType) := do
  let start ← here
  let (modifiers, annotations) ← modifiers self
  let type ← self.writtenType
  let alternatives ← alternatives self
  let (name, nameSpan) ← identifier
  pure
    ({ modifiers, annotations, type, name, nameSpan, variadic := false,
       span := start.cover nameSpan },
     alternatives)

def catchClause : Parser CatchClause := do
  let start := (← advance).span
  let _ ← expect .leftParen "CatchClause"
  let (parameter, alternatives) ← catchParameter self
  let _ ← expect .rightParen "CatchClause"
  let block ← self.block
  pure { parameter, alternatives, block, span := start.cover block.span }

def catchClauses : Parser (List CatchClause) :=
  iterate [] fun found => do
    if ← check .catch then pure (.again ((← catchClause self) :: found))
    else pure (.done found.reverse)

def tryStatement : Parser Statement := do
  let start := (← expect .try "TryStatement").span
  let resources ← resources self
  let body ← self.block
  let catches ← catchClauses self
  let finallyBlock ← optionalAfter .finally self.block
  if resources.isEmpty && catches.isEmpty && finallyBlock.isNone then
    violation (.insert "Finally" "BlockStatements") (← lastSpan)
  pure (.try resources body catches finallyBlock (start.cover (← lastSpan)))

def jumpLabel : Parser (Option String) := do
  let _ ← advance
  let label ← optionalAt .identifier identifier
  endStatement
  pure (label.map Prod.fst)

def wordStatement (build : Expression → Span → Statement) :
    Parser Statement := do
  let start := (← advance).span
  let value ← self.expression
  endStatement
  pure (build value (start.cover (← lastSpan)))

def returnStatement : Parser Statement := do
  let start := (← advance).span
  let value ← optionalUnless .semicolon self.expression
  endStatement
  pure (.return value (start.cover (← lastSpan)))

def synchronizedStatement : Parser Statement := do
  let start := (← advance).span
  let lock ← parenthesizedCondition self "SynchronizedStatement"
  let body ← self.block
  pure (.synchronized lock body (start.cover (← lastSpan)))

def assertStatement : Parser Statement := do
  let start := (← advance).span
  let condition ← self.expression
  let message ← optionalAfter .colon self.expression
  endStatement
  pure (.assert condition message (start.cover (← lastSpan)))

def labeledStatement : Parser Statement := do
  let start ← here
  let (label, _) ← identifier
  let _ ← advance
  let body ← self.statement
  pure (.labeled label body (start.cover (← lastSpan)))

def expressionStatement : Parser Statement := do
  let start ← here
  let value ← self.expression
  endStatement
  pure (.expression value (start.cover (← lastSpan)))

def identifierStatement : Parser Statement := do
  if ← checkAt 1 .colon then labeledStatement self
  else if ← yieldFollows then wordStatement self .yield
  else expressionStatement self

def strayToken : Parser Statement := do
  let token ← peek
  violation (.delete token.lexeme) token.span
  let _ ← advance
  Parser.fail

def statement : Parser Statement := do
  let start ← here
  match (← peek).kind with
  | .leftBrace => pure (.block (← self.block))
  | .semicolon =>
    let _ ← advance
    pure (.empty start)
  | .if => ifStatement self
  | .while => whileStatement self
  | .do => doStatement self
  | .for => forStatement self
  | .switch =>
    let parts ← self .switch
    pure (.switch parts.selector parts.cases parts.keywordSpan parts.span)
  | .return => returnStatement self
  | .break => pure (.break (← jumpLabel) (start.cover (← lastSpan)))
  | .continue => pure (.continue (← jumpLabel) (start.cover (← lastSpan)))
  | .throw => wordStatement self .throw
  | .try => tryStatement self
  | .synchronized => synchronizedStatement self
  | .assert => assertStatement self
  | .identifier => identifierStatement self
  | .else | .case | .default | .catch | .finally | .rightParen | .rightBracket => strayToken
  | _ => expressionStatement self

end JavaFrontEnd.Grammar
