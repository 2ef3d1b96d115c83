/-
Names, annotations, modifiers and types.
-/

import JavaFrontEnd.Grammar.Lookahead
import JavaFrontEnd.Grammar.Parser

namespace JavaFrontEnd.Grammar

/-! The recursive part of the grammar. Productions that contain each other do not call each other:
they name the nonterminal they need, and take the parser of every nonterminal as an argument. So
each production is a plain function, which can be read and reasoned about by itself; the circle is
closed once, in the last module of the grammar. -/

inductive BodyKind where
  | «class» | interface | enum | record | annotationType | anonymous
  deriving DecidableEq, Repr

structure SwitchParts where
  selector : Expression
  cases : List SwitchCase
  keywordSpan : Span
  span : Span

inductive Nonterminal where
  | type
  /-- An annotation as the value of an element; only its span is kept. -/
  | annotationValue
  | expression
  | conditional
  | operation (precedence : Nat)
  | unary
  | pattern
  | arrayInitializer
  | block
  | statement
  | switch
  /-- The members of a body; `owner` is the name of the type, which its constructors have. -/
  | members (owner : String) (kind : BodyKind)

abbrev Nonterminal.Result : Nonterminal → Type
  | .type => WrittenType
  | .annotationValue => Span
  | .expression | .conditional | .operation _ | .unary | .arrayInitializer => Expression
  | .pattern => Pattern
  | .block => Block
  | .statement => Statement
  | .switch => SwitchParts
  | .members _ _ => List Member

abbrev Recursion : Type :=
  (nonterminal : Nonterminal) → Parser nonterminal.Result

namespace Recursion

variable (self : Recursion)

@[inline]
def writtenType : Parser WrittenType :=
  nested (self .type)

@[inline]
def expression : Parser Expression :=
  nested (self .expression)

@[inline]
def freeExpression : Parser Expression :=
  withLambdas true self.expression

@[inline]
def statement : Parser Statement :=
  nested (self .statement)

@[inline]
def arrayInitializer : Parser Expression :=
  nested (self .arrayInitializer)

@[inline]
def operand : Parser Expression :=
  nested (self .unary)

@[inline]
def block : Parser Block :=
  self .block

def classBody (owner : String) (kind : BodyKind) : Parser ClassBody := do
  let opening := (← expect .leftBrace "ClassBody").span
  let members ← nested (self (.members owner kind))
  if ← check .rightBrace then
    let closing := (← advance).span
    pure ⟨members, opening.cover closing⟩
  else
    let closing ← lastSpan
    violation (.insert "\x7d" "ClassBody") closing
    pure ⟨members, opening.cover closing⟩

end Recursion

variable (self : Recursion)

/-! ### Names -/

def warnReserved (token : Token) : Parser Unit := do
  match reservedWarning? token.lexeme (← Parser.configuration).level with
  | some message => report (.warning .reservedKeywordAsIdentifier message token.span)
  | none => pure ()

/-- An identifier with its span. A word that is reserved at another level gives a warning, and the
underscore an error where it is a keyword. -/
def identifier : Parser (String × Span) := do
  let token ← peek
  if token.kind = .identifier then
    let _ ← advance
    warnReserved token
    pure (token.lexeme, token.span)
  else if token.kind = .underscore then
    let _ ← advance
    violation .underscoreIdentifier token.span
    pure (token.lexeme, token.span)
  else
    reportMissing .identifier "Identifier"
    Parser.fail

def segmentFollows : Parser Bool := do
  pure ((← check .dot) && (← checkAt 1 .identifier))

def qualifiedName : Parser String := do
  let (first, _) ← identifier
  iterate first fun name => do
    if ← segmentFollows then
      let _ ← advance
      let (part, _) ← identifier
      pure (.again s!"{name}.{part}")
    else pure (.done name)

def dimensions : Parser Nat :=
  iterate 0 fun count => do
    if (← check .leftBracket) && (← checkAt 1 .rightBracket) then
      let _ ← advance
      let _ ← advance
      pure (.again (count + 1))
    else pure (.done count)

/-! ### Annotations and modifiers -/

def elementValue : Parser Expression := do
  if ← check .at then
    let span ← nested (self .annotationValue)
    pure (.erroneous span)
  else if ← check .leftBrace then self.arrayInitializer
  else self .conditional

def annotationArgument : Parser AnnotationArgument := do
  if (← check .identifier) && (← checkAt 1 .assign) then
    let (name, _) ← identifier
    let _ ← advance
    pure (.named name (← elementValue self))
  else pure (.value (← elementValue self))

def annotationArguments : Parser (List AnnotationArgument) := do
  if ← accept .leftParen then
    let arguments ← commaSeparatedBefore .rightParen (annotationArgument self)
    let _ ← expect .rightParen "Annotation"
    pure arguments
  else pure []

def annotationParts :
    Parser (String × List AnnotationArgument × Span) := do
  let start := (← expect .at "Annotation").span
  needFeature .annotations start
  let name ← qualifiedName
  let arguments ← annotationArguments self
  pure (name, arguments, start.cover (← lastSpan))

def annotationUse : Parser AnnotationUse := do
  let (name, arguments, span) ← annotationParts self
  let place := (← Parser.get).annotationArguments.size
  Parser.modify fun state =>
    { state with annotationArguments := state.annotationArguments.push arguments }
  pure { name, arguments := place, span }

def annotationFollows : Parser Bool := do
  pure ((← check .at) && !(← checkAt 1 .interface))

def annotations : Parser (List AnnotationUse) :=
  iterate [] fun found => do
    if ← annotationFollows then pure (.again ((← annotationUse self) :: found))
    else pure (.done found.reverse)

def modifierOf? : TokenKind → Option Modifier
  | .public => some .public
  | .protected => some .protected
  | .private => some .private
  | .abstract => some .abstract
  | .static => some .static
  | .final => some .final
  | .native => some .native
  | .synchronized => some .synchronized
  | .transient => some .transient
  | .volatile => some .volatile
  | .strictfp => some .strictfp
  | .default => some .default
  | _ => none

/-- The modifier that begins at the cursor, which stands before its last token afterwards. The
words `synchronized` and `default` are none where a statement or a label begins. -/
def modifier : Parser (Option Modifier) := do
  let token ← peek
  match modifierOf? token.kind with
  | some .synchronized =>
    if ← checkAt 1 .leftParen then pure none else pure (some .synchronized)
  | some .default =>
    if (← checkAt 1 .colon) || (← checkAt 1 .arrow) then pure none else pure (some .default)
  | some other => pure (some other)
  | none =>
    if ← lookahead Lookahead.sealedFollows then
      needFeature .sealedTypes token.span
      pure (some .sealed)
    else if ← lookahead Lookahead.nonSealedFollows then
      let _ ← advance
      let _ ← advance
      needFeature .sealedTypes (token.span.cover (← here))
      pure (some .nonSealed)
    else pure none

def modifierTurn (found : List Modifier × List AnnotationUse) :
    Parser (Turn (List Modifier × List AnnotationUse) (List Modifier × List AnnotationUse)) := do
  if ← annotationFollows then
    let next ← annotationUse self
    pure (.again (found.1, next :: found.2))
  else
    match ← modifier with
    | some next =>
      let _ ← advance
      pure (.again (next :: found.1, found.2))
    | none => pure (.done (found.1.reverse, found.2.reverse))

def modifiers : Parser (List Modifier × List AnnotationUse) :=
  iterate ([], []) (modifierTurn self)

/-! ### Types -/

/-- What is left of a token whose first angle bracket closes something. -/
def afterAngle? : TokenKind → Option (TokenKind × String)
  | .rightShift => some (.greater, ">")
  | .unsignedRightShift => some (.rightShift, ">>")
  | .greaterEqual => some (.assign, "=")
  | .rightShiftAssign => some (.greaterEqual, ">=")
  | .unsignedRightShiftAssign => some (.rightShiftAssign, ">>=")
  | _ => none

/-- Closes an angle bracket. Of a token that begins with one and goes on, the rest stays under the
cursor. -/
def closeAngle : Parser Unit := do
  let token ← peek
  if token.kind = .greater then
    let _ ← advance
  else
    match afterAngle? token.kind with
    | some (kind, lexeme) =>
      let start := token.span.start
      let moved : Location := ⟨start.line, start.column + 1, start.offset + 1⟩
      replace { token with kind, lexeme, span := ⟨moved, token.span.stop⟩ }
    | none =>
      reportMissing .greater "ReferenceType"
      Parser.fail

def typeArgument : Parser TypeArgument := do
  let _ ← annotations self
  if ← check .question then
    let start := (← advance).span
    if ← accept .extends then
      let bound ← self.writtenType
      pure (.bounded .upper bound (start.cover (← lastSpan)))
    else if ← accept .super then
      let bound ← self.writtenType
      pure (.bounded .lower bound (start.cover (← lastSpan)))
    else pure (.wildcard (start.cover (← lastSpan)))
  else pure (.type (← self.writtenType))

def typeArguments : Parser (List TypeArgument × Bool) := do
  let opening := (← expect .less "TypeArguments").span
  needFeature .generics opening
  if ← accept .greater then pure ([], true)
  else
    let arguments ← commaSeparated (typeArgument self)
    closeAngle
    pure (arguments, false)

/-- The arguments that follow a part of the name of a class type; without any it keeps those of the
part before it. -/
def laterArguments (before : List TypeArgument × Bool) :
    Parser (List TypeArgument × Bool) := do
  if ← check .less then typeArguments self else pure before

def classNameTurn (found : String × List TypeArgument × Bool) :
    Parser (Turn (String × List TypeArgument × Bool) (String × List TypeArgument × Bool)) := do
  let arguments ← laterArguments self found.2
  if ← segmentFollows then
    let _ ← advance
    let (part, _) ← identifier
    pure (.again (s!"{found.1}.{part}", arguments))
  else pure (.done (found.1, arguments))

/-- The name of a class type with its arguments; of several argument lists the last one counts. -/
def className : Parser (String × List TypeArgument × Bool) := do
  let (first, _) ← identifier
  iterate (first, [], false) (classNameTurn self)

def typeName : Parser (String × List TypeArgument × Bool) := do
  let first ← peek
  if first.kind.isPrimitiveType then
    let _ ← advance
    pure (first.lexeme, [], false)
  else className self

def writtenType : Parser WrittenType := do
  let annotations ← annotations self
  let first ← peek
  let (name, arguments, diamond) ← typeName self
  let dimensions ← dimensions
  pure
    { name, arguments, diamond, annotations, dimensions,
      span := first.span.cover (← lastSpan) }

def typeList : Parser (List WrittenType) :=
  commaSeparated self.writtenType

def typesAfter (word : TokenKind) : Parser (List WrittenType) := do
  if ← accept word then typeList self else pure []

def furtherBounds : Parser (List WrittenType) :=
  iterate [] fun bounds => do
    if ← accept .amp then pure (.again ((← self.writtenType) :: bounds))
    else pure (.done bounds.reverse)

def typeBounds : Parser (List WrittenType) := do
  if ← accept .extends then
    let first ← self.writtenType
    let further ← furtherBounds self
    pure (first :: further)
  else pure []

def typeParameter : Parser TypeParameter := do
  let _ ← annotations self
  let (name, span) ← identifier
  let bounds ← typeBounds self
  pure { name, bounds, span := span.cover (← lastSpan) }

def typeParameters : Parser (List TypeParameter) := do
  if ← check .less then
    let opening := (← advance).span
    needFeature .typeParameters opening
    let parameters ← commaSeparated (typeParameter self)
    closeAngle
    pure parameters
  else pure []

def permittedTypes : Parser (List WrittenType) := do
  if ← checkWord "permits" then
    let span := (← advance).span
    needFeature .sealedTypes span
    typeList self
  else pure []

/-! ### Parameters and patterns -/

def variadicMark : Parser Bool := do
  if ← check .ellipsis then
    let span := (← advance).span
    needFeature .varargs span
    pure true
  else pure false

/-- One formal parameter. The receiver parameter `this` is read and dropped. -/
def formalParameter : Parser (Option Parameter) := do
  let start ← here
  let (modifiers, annotations) ← modifiers self
  let type ← self.writtenType
  let variadic ← variadicMark
  if ← accept .this then pure none
  else
    let (name, nameSpan) ← identifier
    let extra ← dimensions
    pure (some
      { modifiers, annotations, type := type.addDimensions extra, name, nameSpan, variadic,
        span := start.cover (← lastSpan) })

def formalParameters : Parser (List Parameter) := do
  let _ ← expect .leftParen "MethodHeaderParameters"
  if ← accept .rightParen then pure []
  else
    let parameters ← commaSeparated (formalParameter self)
    let _ ← expect .rightParen "FormalParameterList"
    pure (parameters.filterMap id)

def pattern : Parser Pattern := do
  let start ← here
  let (modifiers, _) ← modifiers self
  let type ← self.writtenType
  if ← check .leftParen then
    let opening := (← advance).span
    needFeature .recordPatterns (start.cover opening)
    let components ← commaSeparatedBefore .rightParen (nested (self .pattern))
    let _ ← expect .rightParen "RecordPattern"
    pure (.record type components (start.cover (← lastSpan)))
  else
    let (name, nameSpan) ← identifier
    pure (.type { modifiers, type, name, nameSpan, span := start.cover nameSpan })

end JavaFrontEnd.Grammar
