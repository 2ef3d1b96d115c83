/-
The walk that binds the names of a unit. It goes through the unit in the order of the text, so that
a name can only denote a variable that is declared before it; the fields and constants of a type
are declared when its body is entered.
-/

import JavaFrontEnd.Binding.Binder
import JavaFrontEnd.Completion

namespace JavaFrontEnd

namespace Binder

structure BoundExpression where
  flow : PatternFlow := {}
  referent : Option Referent := none

variable (context : UnitContext)

/-! ### Headers -/

def bindHeader (place : Place) (header : TypeHeader) : Binder Unit := do
  header.shape.typeParameters.forM fun parameter => bindTypes context place parameter.bounds
  bindTypes context place header.shape.supertypes
  header.shape.permits.forM fun type => discard (bindTypeChecked context place false type)

def declareComponents (place : Place) : TypeShape → Binder Unit
  | .record _ components _ =>
    components.forM fun component => do
      let type ← bindParameterType context place component
      declareField place type [.private, .final] true component.name component.nameSpan none
  | _ => pure ()

/-- Declares a member of the innermost type. Methods and types are not bound to their names: they
are found through the class path. -/
def declareMember (place : Place) (known : Option KnownType) : Member → Binder Unit
  | .field header initializer =>
    let type := ((known.bind (·.field? header.name)).map KnownField.type).getD .unknown
    declareField place type header.modifiers initializer.isSome header.name header.nameSpan none
  | .method header _ _ =>
    let methods := (known.map (·.methodsNamed header.name)).getD []
    let declared := methods.find? fun method =>
      method.parameters.length == header.parameters.length
    discard (addSymbol
      { name := header.name, kind := .method
        type := (declared.map KnownMethod.result).getD .unknown
        modifiers := header.modifiers, scope := place.scope, span := header.nameSpan })
  | .type declaration =>
    let header := declaration.header
    let key := context.keyAt header.nameSpan.start.offset header.name
    discard (addSymbol
      { name := header.name, kind := .type, type := .ofKey key, modifiers := header.modifiers
        scope := place.scope, span := header.nameSpan })
  | .constructor .. | .initializer .. => pure ()

def declareMembers (place : Place) (members : List Member) : Binder Unit :=
  members.forM (declareMember context place (place.frames.head?.bind Frame.type))

def declareConstants (place : Place) (key : String) (constants : List EnumConstant) :
    Binder Unit :=
  let required := (context.path.unimplemented? key).getD []
  constants.zipIdx.forM fun (constant, ordinal) =>
    let bodyKey := constant.body.bind fun body => context.keyAt? body.span.start.offset
    declareField place (.ofKey key) [.public, .static, .final] true constant.header.name
      constant.header.nameSpan
      (some { ordinal, hasBody := constant.body.isSome, bodyKey, required })

/-- Declares a local class, which is in scope in its own body and after. -/
def declareClass (place : Place) (header : TypeHeader) (key : String) : Binder Unit := do
  modify fun state => { state with locals := state.locals ++ [(header.name, key)] }
  let symbol ← addSymbol
    { name := header.name, kind := .type, type := .ofKey key, scope := place.scope
      span := header.nameSpan }
  let state ← get
  bindName (declaringScope state.bindings.tree place.scope) header.name symbol

def bindMethodHeader (place : Place) (header : MethodHeader) : Binder Unit := do
  header.typeParameters.forM fun parameter => bindTypes context place parameter.bounds
  bindTypes context place header.returnType.toList
  bindTypes context place header.throws
  header.parameters.forM (bindParameter context place)

def bindConstructorHeader (place : Place) (header : ConstructorHeader) : Binder Unit := do
  bindTypes context place header.throws
  header.parameters.forM (bindParameter context place)

/-- The parameter of a `catch` clause. One that catches several types is seen as their common
superclass. -/
def bindCatchParameter (place : Place) (parameter : Parameter) (alternatives : List WrittenType) :
    Binder Unit := do
  let first ← bindType context place parameter.type
  bindTypes context place alternatives
  let type := if alternatives.isEmpty then first else .ofKey "java.lang.Throwable"
  declareVariable place .variable type parameter.modifiers true place.scope parameter.name
    parameter.nameSpan

def bindVariable (place : Place) (bound : BoundVariable) : Binder Unit := do
  let type ← bindType context place bound.type
  declareVariable place .variable type bound.modifiers true place.scope bound.name bound.nameSpan

/-! ### The walk -/

mutual

def bindDeclaration (place : Place) (key : String) : TypeDeclaration → Binder Unit
  | ⟨header, constants, members⟩ =>
    let frame := context.frameOf key header constants members
    inScope (.type key) (place.inside frame) fun inner => do
      bindHeader context inner header
      declareComponents context inner header.shape
      declareMembers context inner members
      declareConstants context inner key constants
      bindConstants (inner.inPart .staticFieldValue) key constants
      bindMembers inner key members

def bindConstants (place : Place) (key : String) : List EnumConstant → Binder Unit
  | [] => pure ()
  | ⟨header, arguments, body⟩ :: rest => do
    let inner := place.initializing header.name
    bindExpressions inner arguments
    bindOptionalBody inner s!"{key}$" body
    bindConstants place key rest

def bindOptionalBody (place : Place) (substitute : String) : Option ClassBody → Binder Unit
  | none => pure ()
  | some ⟨members, span⟩ =>
    let key := context.keyAt span.start.offset substitute
    inScope (.type key) (place.inside (context.frameOfBody key members)) fun inner => do
      declareMembers context inner members
      bindMembers inner key members

def bindMembers (place : Place) (owner : String) : List Member → Binder Unit
  | [] => pure ()
  | member :: rest => do
    bindMember place owner member
    bindMembers place owner rest

def bindMember (place : Place) (owner : String) : Member → Binder Unit
  | .field header initializer => do
    let isStatic := header.modifiers.contains .static || place.isInterface
    let inner := place.inPart (if isStatic then .staticFieldValue else .instanceFieldValue)
    let _ ← bindType context inner header.type
    let _ ← bindOptional (inner.initializing header.name) initializer
  | .method header body defaultValue =>
    let isStatic := header.modifiers.contains .static
    let part := if isStatic then BodyPart.staticMethod else .instanceMethod
    let inner := (place.withVariables header.typeParameters).inPart part
    inScope (.method isStatic) inner fun inner => do
      bindMethodHeader context inner header
      bindOptionalBlock inner body
      let _ ← bindOptional inner defaultValue
  | .constructor header call body =>
    let inner := (place.withVariables header.typeParameters).inPart .constructor
    inScope (.method false) inner fun inner => do
      bindConstructorHeader context inner header
      bindCall inner call
      bindBlock inner body
  | .initializer isStatic body _ =>
    let part := if isStatic then BodyPart.staticInitializer else .instanceInitializer
    inScope (.initializer isStatic) (place.inPart part) fun inner => bindBlock inner body
  | .type declaration =>
    let offset := declaration.header.nameSpan.start.offset
    let key := context.keyAt offset s!"{owner}${declaration.name}"
    bindDeclaration (place.inPart .body) key declaration

def bindCall (place : Place) : ConstructorCall → Binder Unit
  | .implicit => pure ()
  | .this arguments _ | .super arguments _ => bindExpressions place arguments

def bindExpressions (place : Place) : List Expression → Binder Unit
  | [] => pure ()
  | expression :: rest => do
    let _ ← bindExpression place .value expression
    bindExpressions place rest

def bindOptional (place : Place) : Option Expression → Binder PatternFlow
  | none => pure {}
  | some expression => return (← bindExpression place .value expression).flow

def bindTarget (place : Place) : Option Expression → Binder Unit
  | none => pure ()
  | some target => discard (bindExpression place .qualifier target)

def bindExpression (place : Place) (position : Position) : Expression → Binder BoundExpression
  | .literal .. | .erroneous _ => pure {}
  | .name name id span => do
    let referent ← bindSimpleName context place position name id span
    return { referent }
  | .field (.this none thisSpan) name _ id span => do
    bindThis place none thisSpan
    let referent ← bindOwnField context place position name id span
    return { referent }
  | .field target name _ id span => do
    let bound ← bindExpression place .qualifier target
    let referent ← bindSelection context place position bound.referent name id span
    return { referent }
  | .call target typeArguments _ _ arguments _ _ => do
    bindTarget place target
    bindTypes context place typeArguments
    bindExpressions place arguments
    return {}
  | .binary .logicalAnd left right _ => do
    let first ← bindExpression place .value left
    let second ← withSymbols place first.flow.whenTrue fun inner =>
      bindExpression inner .value right
    return { flow := first.flow.and second.flow }
  | .binary .logicalOr left right _ => do
    let first ← bindExpression place .value left
    let second ← withSymbols place first.flow.whenFalse fun inner =>
      bindExpression inner .value right
    return { flow := first.flow.or second.flow }
  | .binary _ left right _ => do
    let _ ← bindExpression place .value left
    let _ ← bindExpression place .value right
    return {}
  | .unary .not operand _ => do
    let bound ← bindExpression place .value operand
    return { flow := bound.flow.negate }
  | .unary operator operand _ => do
    let _ ← bindExpression place (if operator.isIncrement then .updated else .value) operand
    return {}
  | .assignment operator target value _ => do
    let _ ← bindExpression place (if operator = .assign then .assigned else .updated) target
    let _ ← bindExpression place .value value
    return {}
  | .index array index _ => do
    let _ ← bindExpression place .value array
    let _ ← bindExpression place .value index
    return {}
  | .cast type bounds operand _ => do
    let _ ← bindType context place type
    bindTypes context place bounds
    let bound ← bindExpression place .value operand
    return { flow := bound.flow }
  | .instanceOf operand type _ => do
    let _ ← bindExpression place .value operand
    let _ ← bindTypeChecked context place false type
    return {}
  | .instanceOfPattern operand pattern _ => do
    let _ ← bindExpression place .value operand
    let whenTrue ← bindPattern context place pattern
    return { flow := { whenTrue } }
  | .conditional condition yes no _ => do
    let bound ← bindExpression place .value condition
    let _ ← withSymbols place bound.flow.whenTrue fun inner => bindExpression inner .value yes
    let _ ← withSymbols place bound.flow.whenFalse fun inner => bindExpression inner .value no
    return {}
  | .create outer type arguments body _ _ => do
    let _ ← bindOptional place outer
    if outer.isNone then
      let _ ← bindType context place type
    bindExpressions place arguments
    bindOptionalBody place s!"{type.name}$" body
    return {}
  | .createArray element sizes _ initializer _ => do
    let _ ← bindType context place element
    bindExpressions place sizes
    let _ ← bindOptional place initializer
    return {}
  | .arrayInitializer elements _ => do
    bindExpressions place elements
    return {}
  | .lambda parameters body _ =>
    inScope .lambda place fun inner => do
      parameters.forM (bindLambdaParameter context inner place.scope)
      let _ ← bindExpression inner .value body
      return {}
  | .blockLambda parameters body _ =>
    inScope .lambda place fun inner => do
      parameters.forM (bindLambdaParameter context inner place.scope)
      bindBlock inner body
      return {}
  | .methodReference target _ _ => do
    let _ ← bindExpression place .qualifier target
    return {}
  | .typeMethodReference target _ _ => do
    let _ ← bindType context place target
    return {}
  | .switch selector cases _ _ => do
    let _ ← bindExpression place .value selector
    inScope .switch place fun inner => bindCases inner cases
    return {}
  | .this qualifier span => do
    bindThis place qualifier span
    return {}
  | .super span => do
    bindSuper place span
    return {}
  | .classLiteral type _ => do
    let _ ← bindTypeChecked context place false type
    return {}
  | .parenthesized inner _ => do
    let bound ← bindExpression place position.insideParentheses inner
    return { flow := bound.flow }

def bindBlock (place : Place) : Block → Binder Unit
  | ⟨statements, _⟩ => inScope .block place fun inner => bindStatements inner statements

def bindOptionalBlock (place : Place) : Option Block → Binder Unit
  | none => pure ()
  | some block => bindBlock place block

def bindStatements (place : Place) : List Statement → Binder Unit
  | [] => pure ()
  | statement :: rest => do
    bindStatement place statement
    bindStatements place rest

/-- Binds the branch of a condition that pattern variables of the condition reach, if there is
one. -/
def bindBranch (place : Place) (symbols : List SymbolId) : Option Statement → Binder Unit
  | none => pure ()
  | some branch =>
    withSymbols place symbols fun outer =>
      inScope .block outer fun inner => bindStatement inner branch

/-- Binds a statement. Pattern variables of a condition are in scope after the statement if it
completes only when the condition has given them a value. -/
def bindStatement (place : Place) : Statement → Binder Unit
  | .expression expression _ => discard (bindExpression place .value expression)
  | .locals header declarations _ => do
    let base ← bindType context place header.type
    bindDeclarators place base header.modifiers declarations
  | .typeDeclaration declaration => do
    let header := declaration.header
    let key := context.keyAt header.nameSpan.start.offset header.name
    declareClass place header key
    bindDeclaration place key declaration
  | .conditional condition yes no _ => do
    let bound ← bindExpression place .value condition
    withSymbols place bound.flow.whenTrue fun outer =>
      inScope .block outer fun inner => bindStatement inner yes
    bindBranch place bound.flow.whenFalse no
    if !yes.canComplete then bindSymbols place bound.flow.whenFalse
    if no.any fun branch => !branch.canComplete then bindSymbols place bound.flow.whenTrue
  | .while condition body _ => do
    let bound ← bindExpression place .value condition
    withSymbols place bound.flow.whenTrue fun outer =>
      inScope .block outer fun inner => bindStatement inner body
    if !body.hasExitingBreak then bindSymbols place bound.flow.whenFalse
  | .doWhile body condition _ => do
    inScope .block place fun inner => bindStatement inner body
    let bound ← bindExpression place .value condition
    if !body.hasExitingBreak then bindSymbols place bound.flow.whenFalse
  | .for initial condition update body _ => do
    let flow ← inScope .block place fun loop => do
      bindStatements loop initial
      let flow ← bindOptional loop condition
      withSymbols loop flow.whenTrue fun outer => do
        inScope .block outer fun inner => bindStatement inner body
        bindExpressions outer update
      return flow
    if !body.hasExitingBreak then bindSymbols place flow.whenFalse
  | .forEach bound iterable body _ =>
    inScope .block place fun loop => do
      let _ ← bindExpression loop .value iterable
      bindVariable context loop bound
      inScope .block loop fun inner => bindStatement inner body
  | .switch selector cases _ _ => do
    let _ ← bindExpression place .value selector
    inScope .switch place fun inner => bindCases inner cases
  | .return value _ => discard (bindOptional place value)
  | .yield value _ | .throw value _ => discard (bindExpression place .value value)
  | .assert condition message _ => do
    let _ ← bindExpression place .value condition
    let _ ← bindOptional place message
  | .synchronized lock body _ => do
    let _ ← bindExpression place .value lock
    bindBlock place body
  | .labeled _ body _ => bindStatement place body
  | .block body => bindBlock place body
  | .try resources body catches finallyBlock _ => do
    inScope .block place fun inner => do
      bindResources inner resources
      bindBlock inner body
    bindCatches place catches
    bindOptionalBlock place finallyBlock
  | .break .. | .continue .. | .empty _ => pure ()

def bindDeclarators (place : Place) (base : Ty) (modifiers : List Modifier) :
    List Declarator → Binder Unit
  | [] => pure ()
  | ⟨header, initializer⟩ :: rest => do
    let _ ← bindOptional place initializer
    let type := if base.isUnknown then .unknown else base.arrayOf header.dimensions
    declareLocal place type modifiers initializer.isSome header.name header.nameSpan
    bindDeclarators place base modifiers rest

def bindResources (place : Place) : List Resource → Binder Unit
  | [] => pure ()
  | .declared bound initializer _ :: rest => do
    let _ ← bindExpression place .value initializer
    bindVariable context place bound
    bindResources place rest
  | .expression expression _ :: rest => do
    let _ ← bindExpression place .value expression
    bindResources place rest

def bindCatches (place : Place) : List CatchClause → Binder Unit
  | [] => pure ()
  | ⟨parameter, alternatives, block, _⟩ :: rest => do
    inScope .block place fun inner => do
      bindCatchParameter context inner parameter alternatives
      bindBlock inner block
    bindCatches place rest

def bindCases (place : Place) : List SwitchCase → Binder Unit
  | [] => pure ()
  | .group labels statements _ :: rest => do
    inScope .caseGroup place fun inner => do
      bindLabels inner labels
      bindStatements inner statements
    bindCases place rest
  | .valueRule label value _ :: rest | .throwRule label value _ _ :: rest => do
    inScope .caseGroup place fun inner => do
      bindLabel inner label
      let _ ← bindExpression inner .value value
    bindCases place rest
  | .blockRule label block _ :: rest => do
    inScope .caseGroup place fun inner => do
      bindLabel inner label
      bindBlock inner block
    bindCases place rest

def bindLabels (place : Place) : List SwitchLabel → Binder Unit
  | [] => pure ()
  | label :: rest => do
    bindLabel place label
    bindLabels place rest

def bindLabel (place : Place) : SwitchLabel → Binder Unit
  | ⟨elements, guard, _⟩ => do
    bindElements place elements
    let flow ← bindOptional { place with guardScope := some place.scope } guard
    bindSymbols place flow.whenTrue

def bindElements (place : Place) : List CaseElement → Binder Unit
  | [] => pure ()
  | .constant value :: rest => do
    let _ ← bindExpression place .caseConstant value
    bindElements place rest
  | .pattern pattern :: rest => do
    let symbols ← bindPattern context place pattern
    bindSymbols place symbols
    bindElements place rest
  | .null _ :: rest | .default _ :: rest => bindElements place rest

end

/-! ### The unit -/

/-- What is wrong with a captured variable, now that all its changes are known. Where there are no
lambdas, a captured variable has to be declared final. -/
def captureProblem? (symbol : Symbol) : CaptureKind → Option NameProblem
  | .capture =>
    if context.configuration.allows .lambdas then
      if symbol.isEffectivelyFinal then none else some (.capturedNotEffectivelyFinal symbol.name)
    else if symbol.isFinal then none
    else some (.capturedNotFinal symbol.name)
  | .guard =>
    if symbol.isEffectivelyFinal then none else some (.guardNotEffectivelyFinal symbol.name)

/-- The problems of a finished walk, in the order in which they were found; those of captured
variables come last. -/
def problems (state : BinderState) : List (NameProblem × Span) :=
  let captured := state.captures.reverse.filterMap fun capture => do
    let symbol ← state.bindings.symbols[capture.symbol]?
    let problem ← captureProblem? context symbol capture.kind
    return (problem, capture.span)
  state.problems.reverse ++ captured

def bindTopTypes (unit : CompilationUnit) : Binder Unit :=
  unit.types.forM fun declaration =>
    let offset := declaration.header.nameSpan.start.offset
    bindDeclaration context { scope := 0 } (context.keyAt offset (unit.qualify declaration.name))
      declaration

end Binder

def CompilationUnit.bind (unit : CompilationUnit) (context : UnitContext) :
    Bindings × List Diagnostic :=
  let start : BinderState := { bindings := { tree := ScopeTree.push {} .unit none } }
  let (_, state) := (Binder.bindTopTypes context unit).run start
  (state.bindings,
    (Binder.problems context state).map fun (problem, span) => problem.diagnostic span)

end JavaFrontEnd
