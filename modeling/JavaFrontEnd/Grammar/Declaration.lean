/-
Declarations of types and of their members. A list of members, like a list of constants, goes on
after a member that cannot be understood: the cursor moves to where the next one may begin.
-/

import JavaFrontEnd.Grammar.Expression

namespace JavaFrontEnd.Grammar

variable (self : Recursion) (owner : String) (kind : BodyKind)

/-! ### Where to go on after a failure -/

def skipToConstant : Parser Unit :=
  iterate () fun _ => do
    match (← peek).kind with
    | .comma | .semicolon | .rightBrace | .endOfInput => pure (.done ())
    | _ =>
      let _ ← advance
      pure (.again ())

def onNewLine (state : State) : Bool :=
  state.last.span.stop.line < state.current.span.start.line

/-- Moves to where the next member may begin: after a semicolon or a braced part, before the brace
that closes the body, or before a word on a new line that begins a declaration. -/
def skipToMember : Parser Unit :=
  iterate 0 fun depth => do
    let state ← Parser.get
    let kind := state.current.kind
    if kind == .endOfInput then pure (.done ())
    else if kind == .leftBrace then
      let _ ← advance
      pure (.again (depth + 1))
    else if kind == .rightBrace then
      if depth = 0 then pure (.done ())
      else
        let _ ← advance
        if depth = 1 then pure (.done ()) else pure (.again (depth - 1))
    else if kind == .semicolon && depth == 0 then
      let _ ← advance
      pure (.done ())
    else if depth == 0 && (kind.isModifier || kind == .class || kind == .interface)
        && onNewLine state then
      pure (.done ())
    else
      let _ ← advance
      pure (.again depth)

/-! ### Members -/

def splitConstructorCall (body : Block) : ConstructorCall × Block :=
  match body.statements with
  | .expression (.call none _ name _ arguments _ _) span :: rest =>
    if name = "this" then (.this arguments span, { body with statements := rest })
    else if name = "super" then (.super arguments span, { body with statements := rest })
    else (.implicit, body)
  | _ => (.implicit, body)

structure MemberStart where
  start : Span
  modifiers : List Modifier
  annotations : List AnnotationUse
  typeParameters : List TypeParameter

def checkConstructorName (owner name : String) (nameSpan : Span) : Parser Unit := do
  if name ≠ owner then violation .missingReturnType nameSpan

/-- A constructor. With another name than its type it is a method whose type is missing. -/
def constructorMember (opening : MemberStart) :
    Parser Member := do
  let (name, nameSpan) ← identifier
  checkConstructorName owner name nameSpan
  let parameters ← formalParameters self
  let throws ← typesAfter self .throws
  let (call, body) := splitConstructorCall (← self.block)
  let span := opening.start.cover (← lastSpan)
  let { modifiers, annotations, typeParameters, .. } := opening
  if name ≠ owner then
    pure (.method
      { modifiers, annotations, typeParameters, returnType := none, name, nameSpan, parameters,
        throws, span }
      (some body) none)
  else
    pure (.constructor
      { modifiers, annotations, typeParameters, name, nameSpan, parameters, throws,
        compact := false, span }
      call body)

def compactConstructor (opening : MemberStart) : Parser Member := do
  let (name, nameSpan) ← identifier
  let body ← self.block
  let { modifiers, annotations, typeParameters, .. } := opening
  pure (.constructor
    { modifiers, annotations, typeParameters, name, nameSpan, parameters := [], throws := [],
      compact := true, span := opening.start.cover body.span }
    .implicit body)

def defaultValueOf : Parser (Option Expression) := do
  if kind = .annotationType then optionalAfter .default (elementValue self) else pure none

def methodBody : Parser (Option Block) := do
  if ← check .leftBrace then pure (some (← self.block))
  else
    let _ ← expect .semicolon "MethodDeclaration"
    pure none

def methodMember (opening : MemberStart)
    (returnType : Option WrittenType) (name : String) (nameSpan : Span) : Parser Member := do
  let parameters ← formalParameters self
  let extra ← dimensions
  let throws ← typesAfter self .throws
  let defaultValue ← defaultValueOf self kind
  let body ← methodBody self
  let { modifiers, annotations, typeParameters, .. } := opening
  pure (.method
    { modifiers, annotations, typeParameters, returnType := returnType.map (·.addDimensions extra),
      name, nameSpan, parameters, throws, span := opening.start.cover (← lastSpan) }
    body defaultValue)

def fieldMember (opening : MemberStart) (type : WrittenType)
    (name : String × Span) : Parser Member := do
  let extra ← dimensions
  let initializer ← optionalAfter .assign (variableInitializer self)
  pure (.field
    { modifiers := opening.modifiers, annotations := opening.annotations,
      type := type.addDimensions extra, name := name.1, nameSpan := name.2,
      span := opening.start.cover (← lastSpan) }
    initializer)

def fieldTurn (opening : MemberStart) (type : WrittenType) (found : List Member × String × Span) :
    Parser (Turn (List Member × String × Span) (List Member)) := do
  let field ← fieldMember self opening type found.2
  if ← accept .comma then
    let name ← identifier
    pure (.again (field :: found.1, name))
  else pure (.done (field :: found.1).reverse)

def fieldMembers (opening : MemberStart) (type : WrittenType)
    (name : String) (nameSpan : Span) : Parser (List Member) := do
  let fields ← iterate ([], name, nameSpan) (fieldTurn self opening type)
  let _ ← expect .semicolon "FieldDeclaration"
  pure fields

def resultType : Parser (Option WrittenType) := do
  if ← accept .void then pure none else pure (some (← self.writtenType))

def typedMembers (opening : MemberStart) :
    Parser (List Member) := do
  let type ← resultType self
  let (name, nameSpan) ← identifier
  if ← check .leftParen then
    pure [← methodMember self kind opening type name nameSpan]
  else
    match type with
    | some type => fieldMembers self opening type name nameSpan
    | none => reject (.expected name "Identifier") nameSpan

/-! ### Types -/

structure TypeStart where
  start : Span
  modifiers : List Modifier
  annotations : List AnnotationUse

variable (opening : TypeStart)

def TypeStart.declare (name : String) (nameSpan : Span) (shape : TypeShape)
    (body : ClassBody) : TypeDeclaration :=
  { header :=
      { modifiers := opening.modifiers, annotations := opening.annotations, name, nameSpan, shape,
        span := opening.start.cover body.span },
    constants := [], members := body.members }

def classDeclaration : Parser TypeDeclaration := do
  let _ ← expect .class "ClassDeclaration"
  let (name, nameSpan) ← identifier
  let parameters ← typeParameters self
  let superclass ← optionalAfter .extends self.writtenType
  let interfaces ← typesAfter self .implements
  let permits ← permittedTypes self
  let body ← self.classBody name .class
  pure (opening.declare name nameSpan (.class parameters superclass interfaces permits) body)

def interfaceDeclaration : Parser TypeDeclaration := do
  let _ ← expect .interface "InterfaceDeclaration"
  let (name, nameSpan) ← identifier
  let parameters ← typeParameters self
  let interfaces ← typesAfter self .extends
  let permits ← permittedTypes self
  let body ← self.classBody name .interface
  pure (opening.declare name nameSpan (.interface parameters interfaces permits) body)

def annotationDeclaration : Parser TypeDeclaration := do
  let mark := (← advance).span
  needFeature .annotations mark
  let _ ← expect .interface "AnnotationTypeDeclaration"
  let (name, nameSpan) ← identifier
  let body ← self.classBody name .annotationType
  pure (opening.declare name nameSpan .annotationType body)

def recordDeclaration : Parser TypeDeclaration := do
  let keyword := (← advance).span
  needFeature .records keyword
  let (name, nameSpan) ← identifier
  let parameters ← typeParameters self
  let components ← formalParameters self
  let interfaces ← typesAfter self .implements
  let body ← self.classBody name .record
  pure (opening.declare name nameSpan (.record parameters components interfaces) body)

def constantArguments : Parser (List Expression) := do
  if ← check .leftParen then arguments self else pure []

def enumConstant : Parser EnumConstant := do
  let start ← here
  let (modifiers, annotations) ← modifiers self
  let (name, nameSpan) ← identifier
  let parenthesized ← check .leftParen
  let arguments ← constantArguments self
  let body ← optionalAt .leftBrace (self.classBody "" .anonymous)
  pure
    { header :=
        { modifiers, annotations, name, nameSpan, parenthesized,
          span := start.cover (← lastSpan) },
      arguments, body }

def constantStep (constants : List EnumConstant) :
    Parser (Turn (List EnumConstant) (List EnumConstant × Bool)) := do
  if ← atEnd then pure (.done (constants.reverse, false))
  else if ← accept .semicolon then pure (.done (constants.reverse, true))
  else if ← check .rightBrace then pure (.done (constants.reverse, false))
  else
    match ← recovering (enumConstant self) skipToConstant with
    | none => pure (.again constants)
    | some constant =>
      let constants := constant :: constants
      if ← accept .comma then pure (.again constants)
      else if ← accept .semicolon then pure (.done (constants.reverse, true))
      else if ← check .rightBrace then pure (.done (constants.reverse, false))
      else
        violation (.insert "\x7d" "EnumBody") (← lastSpan)
        if ← check .identifier then pure (.again constants)
        else
          skipToConstant
          pure (.again constants)

def constantTurn (constants : List EnumConstant) :
    Parser (Turn (List EnumConstant) (List EnumConstant × Bool)) := do
  if ← exhausted then pure (.done (constants.reverse, false)) else constantStep self constants

def enumConstants : Parser (List EnumConstant × Bool) := do
  let _ ← expect .leftBrace "EnumBody"
  iterate [] (constantTurn self)

def enumEnd : Parser Span := do
  match ← Parser.attempt (expect .rightBrace "EnumBody") with
  | some closing => pure closing.span
  | none => lastSpan

def enumMembers (name : String) (terminated : Bool) : Parser (List Member) := do
  if terminated then self (.members name .enum) else pure []

def enumDeclaration : Parser TypeDeclaration := do
  let keyword := (← advance).span
  needFeature .enums keyword
  let (name, nameSpan) ← identifier
  let interfaces ← typesAfter self .implements
  let (constants, terminated) ← enumConstants self
  let members ← enumMembers self name terminated
  let stop ← enumEnd
  let { start, modifiers, annotations } := opening
  pure
    { header :=
        { modifiers, annotations, name, nameSpan, shape := .enum interfaces terminated,
          span := start.cover stop },
      constants, members }

def typeDeclaration? :
    Parser (Option TypeDeclaration) := do
  if ← check .class then pure (some (← classDeclaration self opening))
  else if ← check .interface then pure (some (← interfaceDeclaration self opening))
  else if (← check .at) && (← checkAt 1 .interface) then
    pure (some (← annotationDeclaration self opening))
  else if (← check .enum) || (← lookahead Lookahead.enumWordFollows) then
    pure (some (← enumDeclaration self opening))
  else if ← lookahead Lookahead.recordFollows then
    pure (some (← recordDeclaration self opening))
  else pure none

/-! ### Bodies -/

def initializer (static : Bool) (start : Span) : Parser (List Member) := do
  let body ← self.block
  pure [.initializer static body (start.cover body.span)]

def otherMembers (opening : TypeStart) :
    Parser (List Member) := do
  let typeParameters ← typeParameters self
  let { start, modifiers, annotations } := opening
  let memberStart : MemberStart := { start, modifiers, annotations, typeParameters }
  if (← check .identifier) && (← checkAt 1 .leftParen) then
    pure [← constructorMember self owner memberStart]
  else if kind == .record && (← checkWord owner) && (← checkAt 1 .leftBrace) then
    pure [← compactConstructor self memberStart]
  else typedMembers self kind memberStart

def bodyMembers :
    Parser (List Member) := do
  let start ← here
  if ← check .leftBrace then initializer self false start
  else if (← check .static) && (← checkAt 1 .leftBrace) then
    let _ ← advance
    initializer self true start
  else
    let (modifiers, annotations) ← modifiers self
    let opening : TypeStart := { start, modifiers, annotations }
    match ← typeDeclaration? self opening with
    | some declaration => pure [.type declaration]
    | none => otherMembers self owner kind opening

def memberTurn (found : List Member) :
    Parser (Turn (List Member) (List Member)) := do
  if (← check .rightBrace) || (← atEnd) then pure (.done found.reverse)
  else if ← exhausted then pure (.done found.reverse)
  else if ← accept .semicolon then pure (.again found)
  else
    match ← recovering (bodyMembers self owner kind) skipToMember with
    | some next => pure (.again (next.reverse ++ found))
    | none => pure (.again found)

def members : Parser (List Member) :=
  iterate [] (memberTurn self owner kind)

end JavaFrontEnd.Grammar
