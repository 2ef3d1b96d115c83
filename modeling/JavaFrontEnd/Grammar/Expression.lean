/-
Expressions. Binary operators are read by climbing their precedences; below them come prefix
operators and casts, then the parts that follow a primary expression, then primaries. Each operator
and each part of a chain opens a level, because it makes the tree deeper.
-/

import JavaFrontEnd.Grammar.Type
import JavaFrontEnd.Literal

namespace JavaFrontEnd.Grammar

variable (self : Recursion) (target : Expression)

/-! ### Operators -/

def binaryOperator? : TokenKind → Option BinaryOperator
  | .orOr => some .logicalOr
  | .andAnd => some .logicalAnd
  | .pipe => some .or
  | .caret => some .xor
  | .amp => some .and
  | .equal => some .equal
  | .notEqual => some .notEqual
  | .less => some .less
  | .lessEqual => some .lessEqual
  | .greater => some .greater
  | .greaterEqual => some .greaterEqual
  | .leftShift => some .leftShift
  | .rightShift => some .rightShift
  | .unsignedRightShift => some .unsignedRightShift
  | .plus => some .add
  | .minus => some .subtract
  | .star => some .multiply
  | .slash => some .divide
  | .percent => some .remainder
  | _ => none

def assignmentOperator? : TokenKind → Option AssignmentOperator
  | .assign => some .assign
  | .addAssign => some .add
  | .subAssign => some .subtract
  | .mulAssign => some .multiply
  | .divAssign => some .divide
  | .modAssign => some .remainder
  | .andAssign => some .and
  | .orAssign => some .or
  | .xorAssign => some .xor
  | .leftShiftAssign => some .leftShift
  | .rightShiftAssign => some .rightShift
  | .unsignedRightShiftAssign => some .unsignedRightShift
  | _ => none

def prefixOperator? : TokenKind → Option UnaryOperator
  | .plus => some .plus
  | .minus => some .minus
  | .bang => some .not
  | .tilde => some .bitNot
  | .increment => some .preIncrement
  | .decrement => some .preDecrement
  | _ => none

def instanceOfPrecedence : Nat :=
  BinaryOperator.less.precedence

/-! ### Arguments and creations -/

def arguments : Parser (List Expression) := do
  let _ ← expect .leftParen "ArgumentList"
  if ← accept .rightParen then pure []
  else
    let found ← commaSeparated self.freeExpression
    let _ ← expect .rightParen "ArgumentList"
    pure found

def variableInitializer : Parser Expression := do
  if ← check .leftBrace then self.arrayInitializer else self.expression

def arrayInitializer : Parser Expression := do
  let start := (← expect .leftBrace "ArrayInitializer").span
  let elements ←
    separatedUntil .rightBrace .comma (withLambdas true (variableInitializer self))
  let _ ← expect .rightBrace "ArrayInitializer"
  pure (.arrayInitializer elements (start.cover (← lastSpan)))

def arraySizes : Parser (List Expression) :=
  iterate [] fun sizes => do
    if (← check .leftBracket) && !(← checkAt 1 .rightBracket) then
      let _ ← advance
      let size ← self.freeExpression
      let _ ← expect .rightBracket "DimWithOrWithOutExpr"
      pure (.again (size :: sizes))
    else pure (.done sizes.reverse)

def filledArray (start : Span) (type : WrittenType) : Parser Expression := do
  let elements ← self.arrayInitializer
  pure (.createArray { type with dimensions := 0 } [] type.dimensions (some elements)
    (start.cover elements.span))

def sizedArray (start : Span) (type : WrittenType) : Parser Expression := do
  let sizes ← arraySizes self
  let extra ← dimensions
  let elements ← optionalAt .leftBrace self.arrayInitializer
  pure (.createArray type sizes extra elements (start.cover (← lastSpan)))

def createdObject (start : Span) (type : WrittenType) :
    Parser Expression := do
  let arguments ← arguments self
  let body ← optionalAt .leftBrace (self.classBody "" .anonymous)
  let id ← freshId
  pure (.create none type arguments body id (start.cover (← lastSpan)))

def droppedTypeArguments : Parser Unit := do
  if ← check .less then
    let _ ← typeArguments self

def creation : Parser Expression := do
  let start := (← expect .new "ClassInstanceCreationExpression").span
  droppedTypeArguments self
  let type ← self.writtenType
  if 0 < type.dimensions then filledArray self start type
  else if ← check .leftBracket then sizedArray self start type
  else createdObject self start type

/-! ### Lambda expressions and method references -/

/-- One parameter of a lambda expression; without a type it is a name before a comma or a closing
parenthesis. -/
def lambdaParameter : Parser LambdaParameter := do
  let start ← here
  let token ← peek
  if Lookahead.isVariableName token.kind && ((← checkAt 1 .comma) || (← checkAt 1 .rightParen)) then
    let (name, nameSpan) ← identifier
    pure { modifiers := [], type := none, name, nameSpan, span := nameSpan }
  else
    let (modifiers, _) ← modifiers self
    let type ← self.writtenType
    let variadic ← accept .ellipsis
    let (name, nameSpan) ← identifier
    let extra ← dimensions
    let total := if variadic then extra + 1 else extra
    pure
      { modifiers, type := some (type.addDimensions total), name, nameSpan,
        span := start.cover nameSpan }

def lambdaParameters : Parser (List LambdaParameter) := do
  if ← accept .leftParen then
    let parameters ← commaSeparatedBefore .rightParen (lambdaParameter self)
    let _ ← expect .rightParen "LambdaParameters"
    pure parameters
  else
    let (name, nameSpan) ← identifier
    pure [{ modifiers := [], type := none, name, nameSpan, span := nameSpan }]

def lambda : Parser Expression := do
  let start ← here
  let parameters ← lambdaParameters self
  let arrow := (← expect .arrow "LambdaExpression").span
  needFeature .lambdas arrow
  if ← check .leftBrace then
    let body ← withLambdas true self.block
    pure (.blockLambda parameters body (start.cover (← lastSpan)))
  else
    let body ← self.freeExpression
    pure (.lambda parameters body (start.cover (← lastSpan)))

def needMethodReferences (colons : Span) : Parser Unit := do
  if (← Parser.configuration).level.release < 8 then
    report (.error .featureNotAvailable
      "Method references are allowed only at source level 1.8 or above" colons)

def referencedMethod : Parser String := do
  let colons := (← expect .doubleColon "MethodReference").span
  needMethodReferences colons
  droppedTypeArguments self
  if ← accept .new then pure "new"
  else
    let (name, _) ← identifier
    pure name

def typeSuffix (type : WrittenType) : Parser Expression := do
  if (← check .dot) && (← checkAt 1 .class) then
    let _ ← advance
    let stop := (← advance).span
    pure (.classLiteral type (type.span.cover stop))
  else if ← check .doubleColon then
    let name ← referencedMethod self
    pure (.typeMethodReference type name (type.span.cover (← lastSpan)))
  else
    reportMissing .dot "ClassLiteral"
    Parser.fail

/-! ### Primaries and what follows them -/

def unqualifiedCall (name : String) (nameSpan : Span) :
    Parser Expression := do
  let arguments ← arguments self
  let id ← freshId
  pure (.call none [] name nameSpan arguments id (nameSpan.cover (← lastSpan)))

def nameOrCall : Parser Expression := do
  let (name, span) ← identifier
  if ← check .leftParen then unqualifiedCall self name span
  else pure (.name name (← freshId) span)

def selfReference (word : String) (alone : Span → Expression) :
    Parser Expression := do
  let span := (← advance).span
  if ← check .leftParen then unqualifiedCall self word span else pure (alone span)

def parenthesized : Parser Expression := do
  let start := (← advance).span
  let inner ← self.freeExpression
  let _ ← expect .rightParen "Expression"
  pure (.parenthesized inner (start.cover (← lastSpan)))

def switchExpression : Parser Expression := do
  needFeature .switchExpressions (← here)
  let parts ← withLambdas true (self .switch)
  pure (.switch parts.selector parts.cases parts.keywordSpan parts.span)

/-- Notes that a literal has no value, if it has none. -/
def noteMissing (value : Option Literal) : Parser Unit :=
  Parser.modify fun state => { state with stopped := state.stopped || value.isNone }

def literal : Parser Expression := do
  let token ← advance
  noteMissing token.literal?
  if token.kind = .textBlock then
    needFeature .textBlocks token.span
  pure (.literal (token.literal?.getD .null) token.span)

def primitiveSuffix : Parser Expression := do
  let token ← advance
  let extra ← dimensions
  typeSuffix self ((WrittenType.simple token.lexeme token.span).addDimensions extra)

def missingExpression : Parser Expression := do
  let state ← Parser.get
  match state.current.kind with
  | .semicolon | .rightParen | .rightBrace | .rightBracket | .comma | .endOfInput =>
    reject (.expectedAfter state.last.lexeme "Expression") state.last.span
  | _ => reject (.expected state.current.lexeme "Expression") state.current.span

def primary : Parser Expression := do
  let state ← Parser.get
  let kind := state.current.kind
  if kind.isLiteral then literal
  else if kind.isPrimitiveType || kind == .void then primitiveSuffix self
  else
    match kind with
    | .this => selfReference self "this" (.this none)
    | .super => selfReference self "super" .super
    | .new => creation self
    | .leftParen =>
      if state.lambdas && Lookahead.lambdaFollows state.tokens then lambda self
      else parenthesized self
    | .switch => switchExpression self
    | .identifier | .underscore =>
      if state.lambdas && state.kindAt 1 == .arrow then lambda self else nameOrCall self
    | _ => missingExpression

def targetCall (typeArguments : List WrittenType)
    (name : String) (nameSpan : Span) : Parser Expression := do
  let arguments ← arguments self
  let span := target.span.cover (← lastSpan)
  pure (.call (some target) typeArguments name nameSpan arguments (← freshId) span)

/-- A call with explicit type arguments, of which wildcards are dropped. -/
def genericCall : Parser Expression := do
  let (arguments, _) ← typeArguments self
  let types := arguments.filterMap fun
    | .type type => some type
    | _ => none
  let (name, nameSpan) ← identifier
  targetCall self target types name nameSpan

/-- The creation of an inner object of a target. The target of an array creation is dropped. -/
def innerCreation : Parser Expression := do
  match ← creation self with
  | .create _ type arguments body id span =>
    pure (.create (some target) type arguments body id (target.span.cover span))
  | other => pure other

def selection : Parser Expression := do
  let token ← peek
  let span := target.span.cover token.span
  match token.kind with
  | .new => innerCreation self target
  | .this =>
    let _ ← advance
    pure (.this target.qualifiedName? span)
  | .class =>
    let _ ← advance
    pure (.classLiteral (.simple (target.qualifiedName?.getD "") target.span) span)
  | .super =>
    let _ ← advance
    pure (.super span)
  | .less => genericCall self target
  | _ =>
    let (name, nameSpan) ← identifier
    if ← check .leftParen then targetCall self target [] name nameSpan
    else
      pure (.field target name nameSpan (← freshId) (target.span.cover nameSpan))

/-- An array type in the place of an expression, which can only be followed by what follows a
type. -/
def arrayTypeSuffix : Parser Expression := do
  match target.qualifiedName? with
  | some name =>
    let extra ← dimensions
    typeSuffix self ((WrittenType.simple name target.span).addDimensions extra)
  | none =>
    let token ← peekNext
    reject (.expected token.lexeme "Expression") token.span

def element (array : Expression) : Parser Expression := do
  let _ ← advance
  let index ← self.freeExpression
  let _ ← expect .rightBracket "ArrayAccess"
  pure (.index array index (array.span.cover (← lastSpan)))

def continuesPrimary : TokenKind → Bool
  | .dot | .leftBracket | .increment | .decrement | .doubleColon => true
  | _ => false

def chainPart : Parser Expression := do
  let token ← peek
  match token.kind with
  | .dot =>
    let _ ← advance
    selection self target
  | .leftBracket =>
    if ← checkAt 1 .rightBracket then arrayTypeSuffix self target else element self target
  | .increment =>
    let _ ← advance
    pure (.unary .postIncrement target (target.span.cover token.span))
  | .decrement =>
    let _ ← advance
    pure (.unary .postDecrement target (target.span.cover token.span))
  | _ =>
    let name ← referencedMethod self
    pure (.methodReference target name (target.span.cover (← lastSpan)))

def chainTurn : Parser (Turn Expression Expression) := do
  if continuesPrimary (← peek).kind then
    link
    pure (.again (← chainPart self target))
  else pure (.done target)

def chain : Parser Expression :=
  chained do
    let first ← primary self
    iterate first (chainTurn self)

/-! ### Operations -/

def cast : Parser Expression := do
  let start := (← expect .leftParen "CastExpression").span
  let type ← self.writtenType
  let bounds ← furtherBounds self
  let _ ← expect .rightParen "CastExpression"
  let operand ← self.operand
  pure (.cast type bounds operand (start.cover operand.span))

def unary : Parser Expression := do
  let token ← peek
  match prefixOperator? token.kind with
  | some operator =>
    let _ ← advance
    let operand ← self.operand
    pure (.unary operator operand (token.span.cover operand.span))
  | none =>
    if token.kind == .leftParen && (← lookahead Lookahead.castFollows) then cast self
    else chain self

def instanceTest (operand : Expression) : Parser Expression := do
  let _ ← expect .instanceOf "InstanceofExpression"
  if ← lookahead Lookahead.patternFollows then
    let tested ← pattern self
    needFeature .instanceofPatterns tested.span
    pure (.instanceOfPattern operand tested (operand.span.cover (← lastSpan)))
  else
    let type ← self.writtenType
    pure (.instanceOf operand type (operand.span.cover (← lastSpan)))

def operationPart (operator : BinaryOperator) (left : Expression) :
    Parser Expression := do
  let _ ← advance
  let right ← self (.operation (operator.precedence + 1))
  pure (.binary operator left right (left.span.cover right.span))

def operationTurn (least : Nat) (left : Expression) :
    Parser (Turn Expression Expression) := do
  let kind := (← peek).kind
  if kind == .instanceOf && least ≤ instanceOfPrecedence then
    link
    pure (.again (← instanceTest self left))
  else
    match binaryOperator? kind with
    | some operator =>
      if operator.precedence < least then pure (.done left)
      else
        link
        pure (.again (← operationPart self operator left))
    | none => pure (.done left)

def operation (least : Nat) : Parser Expression :=
  chained do
    let first ← unary self
    iterate first (operationTurn self least)

def conditional : Parser Expression := do
  let condition ← operation self 1
  if ← accept .question then
    let yes ← self.freeExpression
    let _ ← expect .colon "ConditionalExpression"
    let no ← nested (self .conditional)
    pure (.conditional condition yes no (condition.span.cover no.span))
  else pure condition

def expression : Parser Expression := do
  let target ← conditional self
  match assignmentOperator? (← peek).kind with
  | some operator =>
    let _ ← advance
    let value ← self.expression
    pure (.assignment operator target value (target.span.cover value.span))
  | none => pure target

end JavaFrontEnd.Grammar
