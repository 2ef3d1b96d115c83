/-
The steps of the walk that gives types to expressions. What names denote is known by then; a step
looks at the types of operands and arguments, records the type of the expression and reports what
does not fit. A type that is not known silences the checks that would need it.
-/

import JavaFrontEnd.Binding.Unit
import JavaFrontEnd.Members.Rules
import JavaFrontEnd.Switch

namespace JavaFrontEnd

/-! What can be wrong with an expression once its type is known. -/

inductive TypeProblem where
  | mismatch (source target : Ty)
  | elementMismatch (source target : Ty)
  | staticCall (signature owner : String)
  | undefinedMethod (name : String) (arguments : List Ty) (type : String)
  /-- A call with arguments fails for a reason that the choice of the method tells. -/
  | failedCall (category : Category) (reason : String)
  | failedCreation (reason : String)
  | uncheckedCall (reason : String)
  | deprecatedField (owner name : String)
  | deprecatedMethod (signature owner : String)
  | unresolvedField (name : String)
  | unresolvedVariable (name : String)
  | finalField (owner name : String)
  | finalVariable (name : String)
  | cannotInstantiate (name : String)
  deriving DecidableEq, Repr

namespace TypeProblem

def category : TypeProblem → Category
  | mismatch .. | elementMismatch .. => .typeMismatch
  | staticCall .. => .staticContextViolation
  | undefinedMethod .. | failedCreation .. => .undefinedMethod
  | failedCall category .. => category
  | uncheckedCall _ => .uncheckedRawInvocation
  | deprecatedField .. | deprecatedMethod .. => .deprecatedUsage
  | unresolvedField _ | unresolvedVariable _ => .unresolvedName
  | finalField .. => .finalFieldAssignment
  | finalVariable _ => .finalLocalAssignment
  | cannotInstantiate _ => .cannotInstantiate

def message : TypeProblem → String
  | mismatch source target =>
    s!"Type mismatch: cannot convert from {source.display} to {target.display}"
  | elementMismatch source target =>
    s!"Type mismatch: cannot convert from element type {source.display} to {target.display}"
  | staticCall signature owner =>
    s!"Cannot make a static reference to the non-static method {signature} from the type {owner}"
  | undefinedMethod name arguments type =>
    s!"The method {name}({Ty.displayList arguments}) is undefined for the type {type}"
  | failedCall _ reason | failedCreation reason | uncheckedCall reason => reason
  | deprecatedField owner name => s!"The field {owner}.{name} is deprecated"
  | deprecatedMethod signature owner =>
    s!"The method {signature} from the type {owner} is deprecated"
  | unresolvedField name => s!"{name} cannot be resolved or is not a field"
  | unresolvedVariable name => s!"{name} cannot be resolved to a variable"
  | finalField owner name => s!"The final field {owner}.{name} cannot be assigned"
  | finalVariable name =>
    s!"The final local variable {name} cannot be assigned. It must be blank and not using a " ++
      "compound assignment"
  | cannotInstantiate name => s!"Cannot instantiate the type {name}"

def diagnostic (problem : TypeProblem) (span : Span) : Diagnostic :=
  .new problem.category problem.message span

end TypeProblem

/-! The types of operations. An operation on operands whose types do not fit is of unknown type, and
nothing is said about it. -/

namespace Ty

mutual

def mentionsUnknown : Ty → Bool
  | .unknown => true
  | .class _ arguments => anyMentionsUnknown arguments
  | .array element => element.mentionsUnknown
  | .primitive _ | .void | .null | .variable _ | .wildcard => false

def anyMentionsUnknown : List Ty → Bool
  | [] => false
  | type :: rest => type.mentionsUnknown || anyMentionsUnknown rest

end

def arithmetic (left right : Ty) : Ty :=
  match left.unboxed?, right.unboxed? with
  | some first, some second =>
    if first.isNumeric && second.isNumeric then .primitive ((first.promote second).promote .int)
    else .unknown
  | _, _ => .unknown

/-- The type of an operation on one operand, which is at least an integer. -/
def promoted (isAllowed : Primitive → Bool) (operand : Ty) : Ty :=
  match operand.unboxed? with
  | some kind => if isAllowed kind then .primitive (kind.promote .int) else .unknown
  | none => .unknown

def binary (operator : BinaryOperator) (left right : Ty) : Ty :=
  match operator with
  | .add => if left.isString || right.isString then .string else arithmetic left right
  | .subtract | .multiply | .divide | .remainder => arithmetic left right
  | .leftShift | .rightShift | .unsignedRightShift => left.promoted Primitive.isIntegral
  | .less | .lessEqual | .greater | .greaterEqual | .equal | .notEqual | .logicalAnd
  | .logicalOr => .boolean
  | .and | .or | .xor =>
    if left.unboxed? == some .boolean && right.unboxed? == some .boolean then .boolean
    else arithmetic left right

def unary (operator : UnaryOperator) (operand : Ty) : Ty :=
  if operator = .not then .boolean
  else if operator.isIncrement then operand
  else operand.promoted Primitive.isNumeric

/-- The type of a choice between two values: a common primitive type, or that of the two types of
which the other is a subtype. -/
def choice (path : ClassPath) (yes no : Ty) : Ty :=
  if yes = no then yes
  else if yes = .null then no.boxed
  else if no = .null then yes.boxed
  else
    let common : Ty :=
      if path.isSubtype yes no == some true then no
      else if path.isSubtype no yes == some true then yes
      else .unknown
    match yes.unboxed?, no.unboxed? with
    | some first, some second =>
      if first.isNumeric && second.isNumeric then .primitive (first.promote second) else common
    | _, _ => common

def iterated (path : ClassPath) (iterable : Ty) : Ty :=
  match iterable.element? with
  | some element => element
  | none =>
    match path.view? iterable "java.lang.Iterable" with
    | some (.class _ (argument :: _)) => if argument = .wildcard then .unknown else argument
    | _ => .unknown

def ofLiteral : Literal → Ty
  | .int _ => .int
  | .long _ => .primitive .long
  | .float _ => .primitive .float
  | .double _ => .primitive .double
  | .boolean _ => .boolean
  | .char _ => .primitive .char
  | .string _ => .string
  | .null => .null

def classOf (type : Ty) : Ty :=
  .class "java.lang.Class" [if type = .void then .ofKey "java.lang.Void" else type.boxed]

/-- The type of small integers, or the class for one, that a constant is narrowed to. -/
def narrowing? : Ty → Option Primitive
  | .primitive kind => if [.byte, .short, .char].contains kind then some kind else none
  | .class key arguments =>
    (Ty.class key arguments).unboxed?.filter fun kind => [.byte, .short, .char].contains kind
  | _ => none

end Ty

def Primitive.holds (kind : Primitive) (value : Int) : Bool :=
  match kind with
  | .byte => -128 ≤ value && value ≤ 127
  | .short => -32768 ≤ value && value ≤ 32767
  | .char => 0 ≤ value && value ≤ 65535
  | _ => false

/-- A constant integer can be assigned to a type of small integers if it is one of its values. A
constant whose value is not known is trusted. -/
def isNarrowed (source target : Ty) (value : Expression) : Bool :=
  let isSmall := match source with
    | .primitive kind => [.int, .short, .char, .byte].contains kind
    | _ => false
  isSmall &&
    target.narrowing?.any fun kind =>
      match value.closedConstant?.bind Constant.integer? with
      | some number => kind.holds number
      | none => value.isConstant fun _ => true

def isMismatch (path : ClassPath) (source target : Ty) (value : Expression) : Bool :=
  path.isAssignable source target == some false && !isNarrowed source target value

inductive UnitProblem where
  | type (problem : TypeProblem)
  | member (problem : MemberProblem)
  | switch (problem : SwitchProblem)

def UnitProblem.diagnostic : UnitProblem → Span → Diagnostic
  | type problem, span => problem.diagnostic span
  | member problem, span => problem.diagnostic span
  | switch problem, span => problem.diagnostic span

structure AttributionState where
  /-- The symbols; variables declared with `var` get their types here. -/
  symbols : Array Symbol
  /-- The types of names, field accesses and calls, by number, latest first. -/
  types : List (Nat × Ty) := []
  targets : List (Nat × KnownMethod) := []
  valueFields : List (Nat × ClassPath.FoundField) := []
  assignedFinals : List SymbolId := []
  problems : List (UnitProblem × Span) := []

abbrev Attributor := StateM AttributionState

namespace Attributor

inductive Returning where
  | outside
  /-- A lambda or an initializer, whose result is not known. -/
  | unchecked
  | value (type : Ty)

structure Place where
  frames : List Frame := []
  returning : Returning := .outside

namespace Place

variable (place : Place)

def inPart (part : BodyPart) (returning : Returning) : Place :=
  { frames := JavaFrontEnd.inPart part place.frames, returning }

def inside (frame : Frame) : Place :=
  { frames := frame :: place.frames }

def inLambda : Place :=
  { place with returning := .unchecked }

def innermost? : Option KnownType :=
  place.frames.head?.bind Frame.type

def sharesTopLevel (key : String) : Bool :=
  place.frames.getLast?.any fun frame => topLevelKey frame.key == topLevelKey key

def superclass : Ty :=
  (place.innermost?.bind KnownType.superclass).getD .object

def thisType (qualifier : Option String) : Ty :=
  let frame := match qualifier with
    | none => place.frames.head?
    | some name => place.frames.find? fun frame => frame.simpleName == lastSegment name
  (frame.map Frame.thisType).getD .unknown

end Place

variable (context : UnitContext) (bindings : Bindings)

/-! ### Records and reports -/

def report (problem : TypeProblem) (span : Span) : Attributor Unit :=
  modify fun state => { state with problems := (.type problem, span) :: state.problems }

def reportMembers (problems : MemberProblems) : Attributor Unit :=
  modify fun state =>
    let found := problems.map fun (problem, span) => (UnitProblem.member problem, span)
    { state with problems := found.reverse ++ state.problems }

def reportSwitch (summary : SwitchSummary) : Attributor Unit :=
  modify fun state =>
    let found := (summary.problems context.path context.configuration).map fun (problem, span) =>
      (UnitProblem.switch problem, span)
    { state with problems := found.reverse ++ state.problems }

def recordType (id : Nat) (type : Ty) : Attributor Ty := do
  modify fun state => { state with types := (id, type) :: state.types }
  return type

def setType (symbol : SymbolId) (type : Ty) : Attributor Unit :=
  modify fun state =>
    { state with symbols := state.symbols.modify symbol fun entry => { entry with type } }

def variableType (symbol : SymbolId) : Attributor Ty := do
  return ((← get).symbols[symbol]?.map Symbol.type).getD .unknown

def checkAssigned (source target : Ty) (value : Expression) : Attributor Unit :=
  if isMismatch context.path source target value then
    report (.mismatch source target) value.span
  else pure ()

/-- A value is given to a variable in its declaration. The elements of an array initializer are
checked one by one elsewhere. -/
def checkInitial (source target : Ty) (value : Expression) : Attributor Unit :=
  match value with
  | .arrayInitializer .. => pure ()
  | _ => checkAssigned context source target value

def checkElement (source : Ty) (target : Option Ty) (value : Expression) : Attributor Unit :=
  match target with
  | some target => checkInitial context source target value
  | none => pure ()

def checkCondition (type : Ty) (condition : Expression) : Attributor Unit :=
  if context.path.isAssignable type .boolean == some false then
    report (.mismatch type .boolean) condition.span
  else pure ()

def checkReturned (place : Place) (type : Ty) (value : Expression) : Attributor Unit :=
  match place.returning with
  | .value expected =>
    if expected = .void then pure () else checkAssigned context type expected value
  | .outside | .unchecked => pure ()

/-! ### Names and fields -/

def referentOf? : Expression → Option Referent
  | .name _ id _ | .field _ _ _ id _ => bindings.referent? id
  | _ => none

def denotesType (expression : Expression) : Bool :=
  match referentOf? bindings expression with
  | some (.type _) | some (.package _) => true
  | _ => false

def useField (place : Place) (found : ClassPath.FoundField) (span : Span) : Attributor Ty := do
  if found.field.isDeprecated && !place.sharesTopLevel found.owner.key then
    report (.deprecatedField (Ty.simpleName found.owner.key) found.field.name) span
  return found.type

def nameType (place : Place) (id : Nat) (span : Span) : Attributor Ty := do
  let type ← match bindings.referent? id with
    | some (.variable symbol) => variableType symbol
    | some (.field found) => useField place found span
    | _ => pure .unknown
  recordType id type

/-- The type of a field access that is known to be of a field, a type or a package. -/
def boundFieldType (place : Place) (referent : Referent) (nameSpan : Span) :
    Attributor Ty :=
  match referent with
  | .field found => useField place found nameSpan
  | .type _ | .package _ | .variable _ => pure .unknown

def valueFieldType (place : Place) (target : Ty) (name : String) (nameSpan : Span) (id : Nat) :
    Attributor Ty :=
  match target with
  | .array _ => pure (if name = "length" then .int else .unknown)
  | .class key _ =>
    match context.path.findField? target name with
    | some found => do
      modify fun state => { state with valueFields := (id, found) :: state.valueFields }
      useField place found nameSpan
    | none => do
      if context.path.knows key && context.path.isHierarchyKnown key then
        report (.unresolvedField name) nameSpan
      return .unknown
  | _ => pure .unknown

/-! ### Final variables -/

/-- A final field may get its value in an initializer or a constructor of its own type, if it was
declared without one. -/
def mayInitialize (place : Place) (found : ClassPath.FoundField) : Bool :=
  let inOwnType := place.frames.head?.any fun frame =>
    frame.key == found.owner.key && frame.blankFinals.contains found.field.name &&
      if found.field.isStatic then
        frame.part == .staticInitializer || frame.part == .staticFieldValue
      else
        frame.part == .constructor || frame.part == .instanceInitializer ||
          frame.part == .instanceFieldValue
  let outsideLambda := match place.returning with
    | .outside | .value _ => true
    | .unchecked => place.frames.head?.any fun frame => frame.part.isInitializer
  inOwnType && outsideLambda

/-- A field gets a value; `isDirect` tells that it is named without another object. -/
def assignField (place : Place) (found : ClassPath.FoundField) (isDirect : Bool) (span : Span) :
    Attributor Unit :=
  if !found.field.isFinal || isDirect && mayInitialize place found then pure ()
  else report (.finalField (Ty.simpleName found.owner.key) found.field.name) span

/-- A variable gets a value. A final variable gets one once, if it was declared without, and not by
a combined assignment. -/
def assignVariable (symbol : SymbolId) (isCombined : Bool) (span : Span) : Attributor Unit := do
  let state ← get
  match state.symbols[symbol]? with
  | none => pure ()
  | some entry =>
    if entry.isFinal then
      let isRepeated := state.assignedFinals.contains symbol
      set { state with assignedFinals := symbol :: state.assignedFinals }
      if entry.hasInitializer || isCombined || isRepeated then
        report (.finalVariable entry.name) span

def assign (place : Place) (target : Expression) (isCombined : Bool) : Attributor Unit :=
  match target.unparenthesized with
  | .name _ id span =>
    match bindings.referent? id with
    | some (.variable symbol) => assignVariable symbol isCombined span
    | some (.field found) => assignField place found true span
    | _ => pure ()
  | .field object _ _ id span => do
    let isDirect := match object with
      | .this none _ => true
      | _ => false
    let reached := (← get).valueFields.lookup id
    let found := match bindings.referent? id with
      | some (.field found) => some found
      | _ => reached
    match found with
    | some found => assignField place found isDirect span
    | none => pure ()
  | _ => pure ()

/-! ### Calls -/

structure Call where
  name : String
  nameSpan : Span
  id : Nat
  span : Span

inductive Receiver where
  | implicit
  | package
  /-- The name of a type, by which only static methods are called. -/
  | type (type : Ty)
  | value (type : Ty)

def finishCall (place : Place) (call : Call) (receiver : Ty) (chosen : KnownMethod) :
    Attributor Ty := do
  modify fun state => { state with targets := (call.id, chosen) :: state.targets }
  if chosen.isDeprecated && !place.sharesTopLevel chosen.owner then
    report (.deprecatedMethod chosen.signature (Ty.simpleName chosen.owner)) call.nameSpan
  if context.configuration.allows .generics then
    match uncheckedCall? context.path receiver chosen with
    | some reason => report (.uncheckedCall reason) call.span
    | none => pure ()
  return if chosen.name = "getClass" && chosen.parameters.isEmpty then
    .class "java.lang.Class" [.wildcard]
  else chosen.callType

def failureCategory (selection : Selection) (candidates : List KnownMethod) : Category :=
  match selection, candidates with
  | .ambiguous _, _ => .ambiguousMethod
  | .notApplicable, [_] => .inapplicableMethod
  | _, _ => .undefinedMethod

/-- Reports that no method was chosen, unless the type of an argument is not known. -/
def failCall (call : Call) (selection : Selection) (candidates : List KnownMethod)
    (receiver : Ty) (arguments : List Ty) : Attributor Ty := do
  if !arguments.any Ty.mentionsUnknown then
    match selection.methodFailure? candidates call.name receiver.display arguments with
    | some reason =>
      report (.failedCall (failureCategory selection candidates) reason) call.nameSpan
    | none => pure ()
  return .unknown

/-- Chooses among candidates. Where no instance is at hand, a chosen method has to be static. -/
def chooseMethod (place : Place) (call : Call) (receiver : Ty) (hasInstance : Bool)
    (candidates : List KnownMethod) (arguments : List Ty) : Attributor Ty :=
  let selection := Selection.among context.path candidates arguments
  match selection with
  | .found chosen _ => do
    if !hasInstance && !chosen.isStatic then
      report (.staticCall chosen.signature (Ty.simpleName chosen.owner)) call.nameSpan
    finishCall context place call receiver chosen
  | _ => failCall call selection candidates receiver arguments

def qualifiedCall (place : Place) (call : Call) (receiver : Ty) (hasInstance : Bool)
    (arguments : List Ty) : Attributor Ty :=
  let onType (receiver : Ty) : Attributor Ty :=
    let (candidates, isComplete) := context.path.findMethods receiver call.name
    let isKnown := receiver.key?.any context.path.knows
    if candidates.isEmpty && !(isComplete && isKnown) then pure .unknown
    else chooseMethod context place call receiver hasInstance candidates arguments
  match receiver with
  | .array _ =>
    if call.name = "clone" && arguments.isEmpty then pure receiver else onType .object
  | .class .. => onType receiver
  | _ => pure .unknown

def enclosingMethods? (name : String) (place : Nat) :
    List Frame → Option (Nat × Ty × List KnownMethod)
  | [] => none
  | frame :: outer =>
    let candidates := (context.path.findMethods frame.thisType name).1
    if candidates.isEmpty then enclosingMethods? name (place + 1) outer
    else some (place, frame.thisType, candidates)

/-- The type of a call without a receiver. The innermost enclosing type with a method of the name
has the method; failing that, static imports may. -/
def simpleCall (place : Place) (call : Call) (arguments : List Ty) : Attributor Ty :=
  match enclosingMethods? context call.name 0 place.frames with
  | some (around, receiver, candidates) =>
    chooseMethod context place call receiver (instanceReachable place.frames around) candidates
      arguments
  | none =>
    match context.names.staticMethods? call.name with
    | some (receiver, candidates) =>
      chooseMethod context place call receiver true candidates arguments
    | none => do
      let isComplete := place.frames.all fun frame =>
        (context.path.findMethods frame.thisType call.name).2
      if isComplete && !context.mayHide place.frames call.name &&
          !arguments.any Ty.mentionsUnknown then
        match place.frames.head? with
        | some frame =>
          report (.undefinedMethod call.name arguments frame.simpleName) call.nameSpan
        | none => pure ()
      return .unknown

def callType (place : Place) (call : Call) (receiver : Receiver) (arguments : List Ty) :
    Attributor Ty :=
  match receiver with
  | .implicit => simpleCall context place call arguments
  | .package => pure .unknown
  | .type type => qualifiedCall context place call type false arguments
  | .value type => qualifiedCall context place call type true arguments

/-! ### Constructors -/

/-- Chooses a constructor; nothing is said when there are none or an argument is not known. -/
def chooseConstructor (constructors : List KnownMethod) (shown : String) (arguments : List Ty)
    (span : Span) : Attributor Unit :=
  if constructors.isEmpty || arguments.any Ty.mentionsUnknown then pure ()
  else
    let selection := Selection.among context.path constructors arguments
    match selection.constructorFailure? shown arguments with
    | some reason => report (.failedCreation reason) span
    | none => pure ()

/-- A constructor calls another: one of its own type, or one of the superclass. The constructors of
an enum are called by its constants only. -/
def callConstructor (place : Place) (ofSuper : Bool) (arguments : List Ty) (span : Span) :
    Attributor Unit :=
  match place.innermost? with
  | none => pure ()
  | some type =>
    let target :=
      if ofSuper then (type.superclass.bind Ty.key?).bind context.path.type? else some type
    match target with
    | some target =>
      if type.isEnum then pure ()
      else chooseConstructor context target.constructors target.simpleName arguments span
    | none => pure ()

def createObject (type : Ty) (written : WrittenType) (hasBody : Bool) (arguments : List Ty)
    (span : Span) : Attributor Unit :=
  match type.key?.bind context.path.type? with
  | none => pure ()
  | some known =>
    if known.isEnum || !hasBody && (known.isAbstract || known.isInterface) then
      report (.cannotInstantiate written.simpleName) written.span
    else if known.isInterface then pure ()
    else chooseConstructor context known.constructors written.simpleName arguments span

/-! ### Labels -/

def openCaseName? : Expression → Option (String × Span)
  | .name name id span => if bindings.caseNames.contains id then some (name, span) else none
  | _ => none

/-- What a bare name in a label selects: a constant of the enum that is switched on. -/
def selectName (place : Place) (selector : Ty) (name : String) (span : Span) :
    Attributor CaseSelector := do
  match (selector.key?.bind context.path.type?).filter KnownType.isEnum with
  | some type =>
    if type.enumConstants.contains name then
      return .constant (.ofKey type.key) none (some (type.key, name))
    report (.unresolvedField name) span
  | none =>
    if !selector.isIndeterminate && !context.mayHide place.frames name then
      report (.unresolvedVariable name) span
  return .constant .unknown none none

def selectConstant (type : Ty) (value : Expression) : CaseSelector :=
  let enumConstant := match referentOf? bindings value.unparenthesized with
    | some (.field found) =>
      if found.field.isEnumConstant then some (found.owner.key, found.field.name) else none
    | _ => none
  .constant type value.closedConstant? enumConstant

def selectPattern : Pattern → CaseSelector
  | .type pattern => .typePattern (bindings.typeOf pattern.type)
  | .record type _ _ => .recordPattern (bindings.typeOf type)

/-! The walk that gives types to the expressions of a unit and applies the rules that need them. It
goes through the unit in the order of the text. -/

/-! ### Headers -/

def checkDeclaration (place : Place) (key : String) (placement : Placement)
    (declaration : TypeDeclaration) : Attributor Unit := do
  let methods := bindings.methodsOf declaration.members
  let name := declaration.name
  let isEnum := declaration.kind == .enum
  let isConcrete := (context.path.type? key).any fun type => !type.isAbstract
  if isEnum then
    reportMembers (enumProblems context key placement declaration methods)
  else
    reportMembers (duplicateFields name (fieldNames [] declaration.members))
    reportMembers (duplicateMethods name [] methods)
    if isConcrete && (declaration.kind == .class || declaration.kind == .record) then
      reportMembers (missingMethods context.path key name declaration.header.nameSpan)
  reportMembers (overrideProblems context key name isEnum methods)
  reportMembers (innerStaticMembers context bindings place.frames declaration.members)

/-- The rules for the body of an anonymous class or of a constant that look at the headers of its
members. What a constant has to implement is checked with its enum. -/
def checkBody (place : Place) (key shown : String) (isAnonymous : Bool) (body : ClassBody) :
    Attributor Unit := do
  let methods := bindings.methodsOf body.members
  reportMembers (duplicateFields shown (fieldNames [] body.members))
  reportMembers (duplicateMethods shown [] methods)
  if isAnonymous then
    reportMembers (missingMethods context.path key shown body.span)
  reportMembers (overrideProblems context key shown false methods)
  reportMembers (innerStaticMembers context bindings place.frames body.members)

def fieldType (place : Place) (header : FieldHeader) : Ty :=
  match place.innermost?.bind (·.field? header.name) with
  | some field => field.type
  | none => bindings.typeOf header.type

/-- A variable takes its type from its value: it is declared with `var`, which names no type. -/
def isInferred (written : WrittenType) : Bool :=
  written.isVar && (bindings.typeOf written).isUnknown

/-- The variable of a loop over a value: it gets the type of the elements, or has to accept
them. -/
def checkLoopVariable (bound : BoundVariable) (iterable : Expression) (type : Ty) :
    Attributor Unit := do
  let element := type.iterated context.path
  match bindings.declaredAt? bound.nameSpan with
  | none => pure ()
  | some symbol =>
    if isInferred bindings bound.type then setType symbol element
    else
      let declared ← variableType symbol
      if !element.isUnknown && context.path.isAssignable element declared == some false then
        report (.elementMismatch element declared) iterable.span

def setDeclaredType (nameSpan : Span) (type : Ty) : Attributor Unit :=
  match bindings.declaredAt? nameSpan with
  | some symbol => setType symbol type
  | none => pure ()

def declaredType (nameSpan : Span) : Attributor Ty :=
  match bindings.declaredAt? nameSpan with
  | some symbol => variableType symbol
  | none => pure .unknown

/-! ### The walk -/

mutual

def attributeDeclaration (place : Place) (placement : Placement) (key : String) :
    TypeDeclaration → Attributor Unit
  | ⟨header, constants, members⟩ => do
    let inner := place.inside (context.frameOf key header constants members)
    checkDeclaration context bindings inner key placement ⟨header, constants, members⟩
    attributeConstants (inner.inPart .staticFieldValue .outside) key header.name constants
    attributeMembers inner key members

def attributeConstants (place : Place) (key name : String) : List EnumConstant → Attributor Unit
  | [] => pure ()
  | ⟨header, arguments, body⟩ :: rest => do
    let types ← attributeExpressions place arguments
    let constructors := ((context.path.type? key).map KnownType.constructors).getD []
    chooseConstructor context constructors name types header.nameSpan
    attributeOptionalBody place s!"{key}$" name false body
    attributeConstants place key name rest

def attributeOptionalBody (place : Place) (substitute shown : String) (isAnonymous : Bool) :
    Option ClassBody → Attributor Unit
  | none => pure ()
  | some ⟨members, span⟩ => do
    let key := context.keyAt span.start.offset substitute
    let inner := place.inside (context.frameOfBody key members)
    checkBody context bindings inner key shown isAnonymous ⟨members, span⟩
    attributeMembers inner key members

def attributeMembers (place : Place) (owner : String) : List Member → Attributor Unit
  | [] => pure ()
  | member :: rest => do
    attributeMember place owner member
    attributeMembers place owner rest

def attributeMember (place : Place) (owner : String) : Member → Attributor Unit
  | .field _ none => pure ()
  | .field header (some value) => do
    let isStatic := header.modifiers.contains .static ||
      place.frames.head?.any Frame.isInterface
    let part := if isStatic then BodyPart.staticFieldValue else .instanceFieldValue
    let declared := fieldType bindings place header
    let type ← attributeExpression (place.inPart part .unchecked) (some declared) value
    checkInitial context type declared value
  | .method header body defaultValue => do
    let isStatic := header.modifiers.contains .static
    let part := if isStatic then BodyPart.staticMethod else .instanceMethod
    let result := (header.returnType.map bindings.typeOf).getD .void
    let inner := place.inPart part (.value result)
    attributeOptionalBlock inner body
    let _ ← attributeOptional inner none defaultValue
  | .constructor _ call body => do
    let inner := place.inPart .constructor (.value .void)
    attributeCall inner call
    attributeBlock inner body
  | .initializer isStatic body _ =>
    let part := if isStatic then BodyPart.staticInitializer else .instanceInitializer
    attributeBlock (place.inPart part .unchecked) body
  | .type declaration =>
    let offset := declaration.header.nameSpan.start.offset
    let key := context.keyAt offset s!"{owner}${declaration.name}"
    attributeDeclaration (place.inPart .body .outside) .member key declaration

def attributeCall (place : Place) : ConstructorCall → Attributor Unit
  | .implicit => pure ()
  | .this arguments span => do
    let types ← attributeExpressions place arguments
    callConstructor context place false types span
  | .super arguments span => do
    let types ← attributeExpressions place arguments
    callConstructor context place true types span

def attributeExpressions (place : Place) : List Expression → Attributor (List Ty)
  | [] => pure []
  | expression :: rest => do
    let type ← attributeExpression place none expression
    let more ← attributeExpressions place rest
    return type :: more

def attributeOptional (place : Place) (expected : Option Ty) :
    Option Expression → Attributor (Option Ty)
  | none => pure none
  | some expression => return some (← attributeExpression place expected expression)

/-- Attributes the elements of an array initializer, which are checked against a type if one is
expected. -/
def attributeElements (place : Place) (expected : Option Ty) : List Expression → Attributor Unit
  | [] => pure ()
  | expression :: rest => do
    let type ← attributeExpression place expected expression
    checkElement context type expected expression
    attributeElements place expected rest

def attributeReceiver (place : Place) : Option Expression → Attributor Receiver
  | none => pure .implicit
  | some (.super _) => pure (.value place.superclass)
  | some target =>
    match referentOf? bindings target with
    | some (.type type) => pure (.type type)
    | some (.package _) => pure .package
    | _ => return .value (← attributeExpression place none target)

/-- The type of an expression. `expected` is the type of the variable that an array initializer
gives a value. -/
def attributeExpression (place : Place) (expected : Option Ty) : Expression → Attributor Ty
  | .literal value _ => pure (.ofLiteral value)
  | .erroneous _ => pure .unknown
  | .name _ id span => nameType bindings place id span
  | .field target name nameSpan id _ => do
    let type ← match bindings.referent? id with
      | some referent => boundFieldType place referent nameSpan
      | none =>
        match referentOf? bindings target with
        | some (.package _) => pure .unknown
        | some (.type type) => valueFieldType context place type name nameSpan id
        | _ => do
          let type ← attributeExpression place none target
          valueFieldType context place type name nameSpan id
    recordType id type
  | .call target _ name nameSpan arguments id span => do
    let receiver ← attributeReceiver place target
    let types ← attributeExpressions place arguments
    let type ← callType context place { name, nameSpan, id, span } receiver types
    recordType id type
  | .binary operator left right _ => do
    let first ← attributeExpression place none left
    let second ← attributeExpression place none right
    return .binary operator first second
  | .unary operator operand _ => do
    let type ← attributeExpression place none operand
    if operator.isIncrement then assign bindings place operand true
    return .unary operator type
  | .assignment operator target value _ => do
    let declared ← attributeExpression place none target
    let type ← attributeExpression place none value
    assign bindings place target (operator != .assign)
    if operator = .assign then checkAssigned context type declared value
    return declared
  | .index array index _ => do
    let type ← attributeExpression place none array
    let _ ← attributeExpression place none index
    return type.element?.getD .unknown
  | .cast type _ operand _ => do
    let _ ← attributeExpression place none operand
    return bindings.typeOf type
  | .instanceOf operand _ _ | .instanceOfPattern operand _ _ => do
    let _ ← attributeExpression place none operand
    return .boolean
  | .conditional condition yes no _ => do
    let type ← attributeExpression place none condition
    checkCondition context type condition
    let first ← attributeExpression place none yes
    let second ← attributeExpression place none no
    return .choice context.path first second
  | .create outer written arguments body _ span => do
    let _ ← attributeOptional place none outer
    let types ← attributeExpressions place arguments
    let type := if outer.isSome then .unknown else bindings.typeOf written
    createObject context type written body.isSome types span
    attributeOptionalBody place s!"{written.name}$" s!"new {written.simpleName}()\x7b\x7d" true body
    return type
  | .createArray element sizes dimensions initializer _ => do
    let _ ← attributeExpressions place sizes
    let base := bindings.typeOf element
    let type := if base.isUnknown then .unknown else base.arrayOf (sizes.length + dimensions)
    let _ ← attributeOptional place (some type) initializer
    return type
  | .arrayInitializer elements _ => do
    attributeElements place (expected.map fun type => type.element?.getD .unknown) elements
    return .unknown
  | .lambda _ body _ => do
    let _ ← attributeExpression place.inLambda none body
    return .unknown
  | .blockLambda _ body _ => do
    attributeBlock place.inLambda body
    return .unknown
  | .methodReference target _ _ => do
    if !denotesType bindings target then
      let _ ← attributeExpression place none target
    return .unknown
  | .typeMethodReference .. => pure .unknown
  | .switch selector cases keywordSpan _ => do
    let type ← attributeExpression place none selector
    let summaries ← attributeCases place type cases
    reportSwitch context { isExpression := true, selector := type, keywordSpan, cases := summaries }
    return .unknown
  | .this qualifier _ => pure (place.thisType qualifier)
  | .super _ => pure place.superclass
  | .classLiteral type _ => pure (.classOf (bindings.typeOf type))
  | .parenthesized inner _ => attributeExpression place none inner

def attributeBlock (place : Place) : Block → Attributor Unit
  | ⟨statements, _⟩ => attributeStatements place statements

def attributeOptionalBlock (place : Place) : Option Block → Attributor Unit
  | none => pure ()
  | some block => attributeBlock place block

def attributeStatements (place : Place) : List Statement → Attributor Unit
  | [] => pure ()
  | statement :: rest => do
    attributeStatement place statement
    attributeStatements place rest

def attributeOptionalStatement (place : Place) : Option Statement → Attributor Unit
  | none => pure ()
  | some statement => attributeStatement place statement

def attributeOptionalCondition (place : Place) : Option Expression → Attributor Unit
  | none => pure ()
  | some condition => do
    let type ← attributeExpression place none condition
    checkCondition context type condition

def attributeStatement (place : Place) : Statement → Attributor Unit
  | .expression expression _ => discard (attributeExpression place none expression)
  | .locals header declarations _ => attributeDeclarators place header.type declarations
  | .typeDeclaration declaration =>
    let header := declaration.header
    let key := context.keyAt header.nameSpan.start.offset header.name
    attributeDeclaration place .inMethod key declaration
  | .conditional condition yes no _ => do
    let type ← attributeExpression place none condition
    checkCondition context type condition
    attributeStatement place yes
    attributeOptionalStatement place no
  | .while condition body _ => do
    let type ← attributeExpression place none condition
    checkCondition context type condition
    attributeStatement place body
  | .doWhile body condition _ => do
    attributeStatement place body
    let type ← attributeExpression place none condition
    checkCondition context type condition
  | .for initial condition update body _ => do
    attributeStatements place initial
    attributeOptionalCondition place condition
    let _ ← attributeExpressions place update
    attributeStatement place body
  | .forEach bound iterable body _ => do
    let type ← attributeExpression place none iterable
    checkLoopVariable context bindings bound iterable type
    attributeStatement place body
  | .switch selector cases keywordSpan _ => do
    let type ← attributeExpression place none selector
    let summaries ← attributeCases place type cases
    reportSwitch context
      { isExpression := false, selector := type, keywordSpan, cases := summaries }
  | .return none _ => pure ()
  | .return (some value) _ => do
    let type ← attributeExpression place none value
    checkReturned context place type value
  | .yield value _ | .throw value _ => discard (attributeExpression place none value)
  | .assert condition message _ => do
    let type ← attributeExpression place none condition
    checkCondition context type condition
    let _ ← attributeOptional place none message
  | .synchronized lock body _ => do
    let _ ← attributeExpression place none lock
    attributeBlock place body
  | .labeled _ body _ => attributeStatement place body
  | .block body => attributeBlock place body
  | .try resources body catches finallyBlock _ => do
    attributeResources place resources
    attributeBlock place body
    attributeCatches place catches
    attributeOptionalBlock place finallyBlock
  | .break .. | .continue .. | .empty _ => pure ()

def attributeDeclarators (place : Place) (written : WrittenType) :
    List Declarator → Attributor Unit
  | [] => pure ()
  | ⟨_, none⟩ :: rest => attributeDeclarators place written rest
  | ⟨header, some value⟩ :: rest => do
    if isInferred bindings written && header.dimensions = 0 then
      let type ← attributeExpression place none value
      setDeclaredType bindings header.nameSpan type
    else
      let declared ← declaredType bindings header.nameSpan
      let type ← attributeExpression place (some declared) value
      checkInitial context type declared value
    attributeDeclarators place written rest

def attributeResources (place : Place) : List Resource → Attributor Unit
  | [] => pure ()
  | .expression expression _ :: rest => do
    let _ ← attributeExpression place none expression
    attributeResources place rest
  | .declared bound value _ :: rest => do
    if isInferred bindings bound.type then
      let type ← attributeExpression place none value
      setDeclaredType bindings bound.nameSpan type
    else
      let declared := bindings.typeOf bound.type
      let type ← attributeExpression place (some declared) value
      checkInitial context type declared value
    attributeResources place rest

def attributeCatches (place : Place) : List CatchClause → Attributor Unit
  | [] => pure ()
  | ⟨_, _, block, _⟩ :: rest => do
    attributeBlock place block
    attributeCatches place rest

def attributeCases (place : Place) (selector : Ty) :
    List SwitchCase → Attributor (List CaseSummary)
  | [] => pure []
  | .group labels statements span :: rest => do
    let labels ← attributeLabels place selector labels
    attributeStatements place statements
    let case : CaseSummary :=
      { labels, isRule := false, isBlock := false, completes := allComplete statements, span }
    let more ← attributeCases place selector rest
    return case :: more
  | .valueRule label value span :: rest | .throwRule label value _ span :: rest => do
    let label ← attributeLabel place selector label
    let _ ← attributeExpression place none value
    let case : CaseSummary :=
      { labels := [label], isRule := true, isBlock := false, completes := false, span }
    let more ← attributeCases place selector rest
    return case :: more
  | .blockRule label block span :: rest => do
    let label ← attributeLabel place selector label
    attributeBlock place block
    let case : CaseSummary :=
      { labels := [label], isRule := true, isBlock := true, completes := block.canComplete, span }
    let more ← attributeCases place selector rest
    return case :: more

def attributeLabels (place : Place) (selector : Ty) :
    List SwitchLabel → Attributor (List LabelSummary)
  | [] => pure []
  | label :: rest => do
    let summary ← attributeLabel place selector label
    let more ← attributeLabels place selector rest
    return summary :: more

def attributeLabel (place : Place) (selector : Ty) : SwitchLabel → Attributor LabelSummary
  | ⟨elements, guard, _⟩ => do
    let selectors ← attributeCaseElements place selector elements
    attributeOptionalCondition place guard
    return {
      selectors
      guard := guard.map fun condition =>
        { span := condition.span
          constant := condition.closedConstant?.bind Constant.boolean? } }

def attributeCaseElements (place : Place) (selector : Ty) :
    List CaseElement → Attributor (List (CaseSelector × Span))
  | [] => pure []
  | .default span :: rest => do
    let more ← attributeCaseElements place selector rest
    return (.default, span) :: more
  | .null span :: rest => do
    let more ← attributeCaseElements place selector rest
    return (.null, span) :: more
  | .pattern pattern :: rest => do
    let more ← attributeCaseElements place selector rest
    return (selectPattern bindings pattern, pattern.span) :: more
  | .constant value :: rest => do
    let selected ← match openCaseName? bindings value with
      | some (name, span) => selectName context place selector name span
      | none => do
        let type ← attributeExpression place none value
        pure (selectConstant bindings type value)
    let more ← attributeCaseElements place selector rest
    return (selected, value.span) :: more

end

def attributeTopTypes (unit : CompilationUnit) : Attributor Unit :=
  unit.types.forM fun declaration =>
    let offset := declaration.header.nameSpan.start.offset
    let key := context.keyAt offset (unit.qualify declaration.name)
    attributeDeclaration context bindings {} .topLevel key declaration

end Attributor

structure Attribution where
  bindings : Bindings
  types : List (Nat × Ty)
  targets : List (Nat × KnownMethod)

def CompilationUnit.attribute (unit : CompilationUnit) (context : UnitContext)
    (bindings : Bindings) : Attribution × List Diagnostic :=
  let (_, state) := (Attributor.attributeTopTypes context bindings unit).run
    { symbols := bindings.symbols }
  ({ bindings := { bindings with symbols := state.symbols }
     types := state.types
     targets := state.targets },
    state.problems.reverse.map fun (problem, span) => problem.diagnostic span)

def CompilationUnit.check (unit : CompilationUnit) (context : UnitContext) :
    Attribution × List Diagnostic :=
  let (bindings, nameProblems) := unit.bind context
  let (attribution, typeProblems) := unit.attribute context bindings
  (attribution, nameProblems ++ typeProblems)

end JavaFrontEnd
