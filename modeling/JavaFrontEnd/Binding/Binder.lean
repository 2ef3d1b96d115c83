/-
The steps of the walk that binds names. A step changes the record of what names denote; where the
walk is, it is told. So a step cannot disturb the scope or the enclosing types of another: only
local classes, which come into scope one statement after the other, are part of what changes.
-/

import JavaFrontEnd.Binding.Basic

namespace JavaFrontEnd

/-! Finding what a name denotes. A simple name is looked for outward through the scopes: variables
in the scopes of methods and blocks, fields in the scopes of types. What lies between the use and
the declaration matters: a variable that is used inside a lambda or a type declared inside its
method is captured, and a guard may only use variables from outside it that never change. -/

inductive Position where
  | value
  /-- Before a dot, where types and packages may stand. -/
  | qualifier
  | assigned
  | updated
  | caseConstant
  deriving DecidableEq, Repr

namespace Position

def isChange : Position → Bool
  | .assigned | .updated => true
  | .value | .qualifier | .caseConstant => false

/-- How an expression between parentheses is used: parentheses keep a change. -/
def insideParentheses (position : Position) : Position :=
  if position.isChange then position else .value

end Position

inductive CaptureKind where
  | capture
  | guard
  deriving DecidableEq, Repr

inductive NameHit where
  /-- A variable, with the reason why it has to keep its value. -/
  | variable (symbol : SymbolId) (captured : Option CaptureKind)
  /-- A field of an enclosing type, which is the frame at a place. -/
  | field (found : ClassPath.FoundField) (place : Nat)

namespace Bindings

def symbolHas (bindings : Bindings) (test : Symbol → Bool) (symbol : SymbolId) : Bool :=
  bindings.symbols[symbol]?.any test

/-- The innermost declaration of a simple name in a list of scopes, innermost first. `frames` are
the types around the scopes, `place` counts the frames that are passed; `captured` tells that a
lambda or a type was passed, `outside` that the scope of the guard was. -/
def findName (bindings : Bindings) (path : ClassPath) (guardScope : Option ScopeId)
    (name : String) : List ScopeId → List Frame → Nat → Bool → Bool → Option NameHit
  | [], _, _, _, _ => none
  | scope :: outer, frames, place, captured, outside =>
    match bindings.tree.kind? scope, frames with
    | some (.type _), [] => none
    | some (.type _), frame :: around =>
      match path.findField? frame.thisType name with
      | some found => some (.field found place)
      | none => bindings.findName path guardScope name outer around (place + 1) true outside
    | kind, frames =>
      let symbol := (bindings.tree.local? scope name).filter
        (bindings.symbolHas fun symbol => symbol.kind != .type)
      match symbol with
      | some symbol =>
        let reason :=
          if captured then some .capture else if outside then some .guard else none
        some (.variable symbol reason)
      | none =>
        bindings.findName path guardScope name outer frames place
          (captured || kind == some .lambda) (outside || guardScope == some scope)

/-- A variable of the same member that has a name, in a list of scopes, innermost first. The result
tells whether the search passed a lambda. -/
def findClash (bindings : Bindings) (name : String) : List ScopeId → Bool → Option Bool
  | [], _ => none
  | scope :: outer, passedLambda =>
    match bindings.tree.kind? scope with
    | none | some .unit | some (.type _) => none
    | some kind =>
      if (bindings.tree.local? scope name).any
          (bindings.symbolHas fun symbol => symbol.kind.isLocal) then
        some passedLambda
      else if kind.isMemberBoundary then none
      else bindings.findClash name outer (passedLambda || kind == .lambda)

def clash? (bindings : Bindings) (scope : ScopeId) (name : String) : Option Bool :=
  bindings.findClash name (bindings.tree.ancestors scope) false

end Bindings

/-! ### Uses of fields -/

inductive FieldAccess where
  /-- By its name alone, through the frame at a place. -/
  | simple (place : Nat)
  | throughThis
  | throughType
  deriving DecidableEq, Repr

namespace Frame

/-- The place is where values are given to fields, static or not as is the field. -/
def initializes (frame : Frame) (isStatic : Bool) : Bool :=
  if isStatic then frame.part == .staticFieldValue || frame.part == .staticInitializer
  else frame.part == .instanceFieldValue || frame.part == .instanceInitializer

def declaresAfter (frame : Frame) (name : String) (offset : Nat) : Bool :=
  (frame.fieldOffsets.lookup name).any fun declared => declared > offset

def isValueOf (frame : Frame) (name : String) : Bool :=
  (frame.part == .staticFieldValue || frame.part == .instanceFieldValue) &&
    frame.initializing == some name

end Frame

/-- A constant of the enum with a key is being made around a place, and nothing static lies
between. -/
def makesConstantOf (frames : List Frame) (key : String) : Bool :=
  match frames.findIdx? (fun frame => frame.key == key && frame.isEnum) with
  | none => false
  | some place =>
    frames[place]?.any (fun frame => frame.part.isInstanceInitializer) &&
      (frames.take place).all fun frame => !frame.isStaticType && !frame.part.isStatic

/-- What is wrong with the use of a field: an instance field needs its instance, a constant of an
enum must not read static fields of the enum while it is made, and the value of a field must not
use fields that come later, unless it assigns to them. -/
def fieldProblem? (frames : List Frame) (found : ClassPath.FoundField) (span : Span)
    (position : Position) (access : FieldAccess) : Option NameProblem :=
  let field := found.field
  let needsInstance := match access with
    | .simple place => !field.isStatic && !instanceReachable frames place
    | .throughThis | .throughType => false
  let isElsewhere := match access with
    | .simple place => place != 0
    | .throughThis | .throughType => false
  if needsInstance then some (.staticField field.name)
  else if field.isStatic && !field.isConstant && makesConstantOf frames found.owner.key then
    some (.enumFieldInInitializer (Ty.simpleName found.owner.key) field.name)
  else match frames.head? with
    | none => none
    | some frame =>
      if position == .assigned || frame.key != found.owner.key || isElsewhere ||
          !frame.initializes field.isStatic then none
      else if frame.declaresAfter field.name span.start.offset || frame.isValueOf field.name then
        some .forwardReference
      else none

/-! ### Written types -/

def Ty.innermostElement : Ty → Ty
  | .array element => element.innermostElement
  | other => other

mutual

/-- The type variables of enclosing types that a written type mentions without an instance. -/
def WrittenType.staticVariables (frames : List Frame) (methodVariables : List String) :
    WrittenType → List (NameProblem × Span)
  | ⟨name, arguments, _, _, _, span⟩ =>
    let isStatic :=
      !name.toList.contains '.' && !methodVariables.contains name &&
        (frames.findIdx? fun frame => frame.typeParameters.contains name).any fun place =>
          !instanceReachable frames place
    (if isStatic then [(.staticTypeVariable name, span)] else []) ++
      TypeArgument.staticVariables frames methodVariables arguments

def TypeArgument.staticVariables (frames : List Frame) (methodVariables : List String) :
    List TypeArgument → List (NameProblem × Span)
  | [] => []
  | .wildcard _ :: rest => TypeArgument.staticVariables frames methodVariables rest
  | .type type :: rest =>
    type.staticVariables frames methodVariables ++
      TypeArgument.staticVariables frames methodVariables rest
  | .bounded _ bound _ :: rest =>
    bound.staticVariables frames methodVariables ++
      TypeArgument.staticVariables frames methodVariables rest

end

mutual

def WrittenType.rawUses (path : ClassPath) : WrittenType → Ty → List (NameProblem × Span)
  | ⟨_, arguments, diamond, _, _, span⟩, type =>
    match type.innermostElement with
    | .class key types =>
      let own := match path.type? key with
        | some known =>
          if arguments.isEmpty && !diamond && types.isEmpty && !known.typeParameters.isEmpty then
            [(.rawType (Ty.simpleName key) known.genericDisplay, span)]
          else []
        | none => []
      own ++ TypeArgument.rawUses path arguments types
    | _ => []

def TypeArgument.rawUses (path : ClassPath) :
    List TypeArgument → List Ty → List (NameProblem × Span)
  | [], _ => []
  | _ :: _, [] => []
  | .type inner :: rest, type :: types =>
    inner.rawUses path type ++ TypeArgument.rawUses path rest types
  | .wildcard _ :: rest, _ :: types | .bounded .. :: rest, _ :: types =>
    TypeArgument.rawUses path rest types

end

def deprecatedUse (path : ClassPath) (frames : List Frame) (type : Ty) : Option NameProblem := do
  let key ← type.innermostElement.key?
  let known ← path.type? key
  let outermost := frames.getLast?.map fun frame => topLevelKey frame.key
  if known.isDeprecated && outermost != some (topLevelKey key) then
    some (.deprecatedType (Ty.simpleName key))
  else none

/-- A use of a variable that has to keep its value, to be judged when all changes are known. -/
structure Capture where
  symbol : SymbolId
  span : Span
  kind : CaptureKind

structure BinderState where
  bindings : Bindings := {}
  /-- The names and keys of the local classes in scope, innermost last. -/
  locals : List (String × String) := []
  problems : List (NameProblem × Span) := []
  captures : List Capture := []

abbrev Binder := StateM BinderState

/-- The pattern variables that have a value when a condition holds and when it does not. -/
structure PatternFlow where
  whenTrue : List SymbolId := []
  whenFalse : List SymbolId := []

namespace PatternFlow

def negate (flow : PatternFlow) : PatternFlow :=
  { whenTrue := flow.whenFalse, whenFalse := flow.whenTrue }

def and (left right : PatternFlow) : PatternFlow :=
  { whenTrue := left.whenTrue ++ right.whenTrue }

def or (left right : PatternFlow) : PatternFlow :=
  { whenFalse := left.whenFalse ++ right.whenFalse }

end PatternFlow

namespace Binder

structure Place where
  scope : ScopeId
  frames : List Frame := []
  typeVariables : List String := []
  /-- The type variables that belong to methods and constructors. -/
  methodVariables : List String := []
  /-- The scope of the case whose guard surrounds the place. -/
  guardScope : Option ScopeId := none

namespace Place

variable (place : Place)

def nameScope (locals : List (String × String)) : NameScope :=
  { enclosing := (place.frames.map Frame.key).reverse
    typeVariables := place.typeVariables
    locals }

def inPart (part : BodyPart) : Place :=
  { place with frames := JavaFrontEnd.inPart part place.frames }

def initializing (place : Place) (name : String) : Place :=
  match place.frames with
  | [] => place
  | frame :: outer =>
    { place with frames := { frame with initializing := some name } :: outer }

def inside (frame : Frame) : Place :=
  { place with
    frames := frame :: place.frames
    typeVariables := place.typeVariables ++ frame.typeParameters
    guardScope := none }

def withVariables (parameters : List TypeParameter) : Place :=
  let names := parameters.map TypeParameter.name
  { place with
    typeVariables := place.typeVariables ++ names
    methodVariables := place.methodVariables ++ names }

def isInterface : Bool :=
  place.frames.head?.any Frame.isInterface

end Place

/-! ### Scopes and symbols -/

def report (problem : NameProblem) (span : Span) : Binder Unit :=
  modify fun state => { state with problems := (problem, span) :: state.problems }

def reportAll (problems : List (NameProblem × Span)) : Binder Unit :=
  modify fun state => { state with problems := problems.reverse ++ state.problems }

/-- Does a step inside a new scope. Local classes that are declared there are forgotten after. -/
def inScope {α : Type} (kind : ScopeKind) (place : Place) (step : Place → Binder α) :
    Binder α := do
  let before ← get
  let bindings := before.bindings
  set { before with bindings.tree := bindings.tree.push kind (some place.scope) }
  let result ← step { place with scope := bindings.tree.size }
  modify fun after => { after with locals := before.locals }
  return result

def addSymbol (symbol : Symbol) : Binder SymbolId := do
  let state ← get
  let number := state.bindings.symbols.size
  let declarations := (symbol.span.start.offset, number) :: state.bindings.declarations
  set { state with
    bindings.symbols := state.bindings.symbols.push symbol
    bindings.declarations := declarations }
  return number

def bindName (scope : ScopeId) (name : String) (symbol : SymbolId) : Binder Unit :=
  modify fun state =>
    { state with bindings.tree := state.bindings.tree.bind scope name symbol }

def bindSymbols (place : Place) (symbols : List SymbolId) : Binder Unit :=
  modify fun state =>
    let named := symbols.filterMap fun symbol =>
      state.bindings.symbols[symbol]?.map fun entry => (entry.name, symbol)
    { state with
      bindings.tree := named.foldl (fun tree (name, symbol) => tree.bind place.scope name symbol)
        state.bindings.tree }

def withSymbols {α : Type} (place : Place) (symbols : List SymbolId) (step : Place → Binder α) :
    Binder α :=
  if symbols.isEmpty then step place
  else inScope .block place fun inner => do
    bindSymbols inner symbols
    step inner

/-- The scope in which a variable that is declared at a place lives. The cases of a switch share
the variables of their groups. -/
def declaringScope (tree : ScopeTree) (scope : ScopeId) : ScopeId :=
  match tree.kind? scope, tree.parent? scope with
  | some .caseGroup, some parent => parent
  | _, _ => scope

/-- Declares a variable in a scope. A variable without a name is not declared. -/
def declareVariable (place : Place) (kind : SymbolKind) (type : Ty) (modifiers : List Modifier)
    (hasInitializer : Bool) (scope : ScopeId) (name : String) (span : Span) : Binder Unit :=
  if name = "_" then pure ()
  else do
    let state ← get
    match state.bindings.clash? place.scope name with
    | some true => report (.variableInLambda name) span
    | some false =>
      report (if kind = .parameter then .duplicateParameter name else .duplicateVariable name) span
    | none => pure ()
    let symbol ← addSymbol { name, kind, type, modifiers, scope, span, hasInitializer }
    bindName scope name symbol

def declareLocal (place : Place) (type : Ty) (modifiers : List Modifier) (hasInitializer : Bool)
    (name : String) (span : Span) : Binder Unit := do
  let state ← get
  declareVariable place .variable type modifiers hasInitializer
    (declaringScope state.bindings.tree place.scope) name span

/-- Makes the symbol of a pattern variable, if it has a name. It is bound to its name where the
surrounding construct says. -/
def declarePattern (place : Place) (type : Ty) (modifiers : List Modifier) (name : String)
    (span : Span) : Binder (List SymbolId) :=
  if name = "_" then pure []
  else do
    let state ← get
    if (state.bindings.clash? place.scope name).isSome then report (.duplicateVariable name) span
    let symbol ← addSymbol
      { name, kind := .patternVariable, type, modifiers, scope := place.scope, span
        hasInitializer := true }
    return [symbol]

def declareField (place : Place) (type : Ty) (modifiers : List Modifier) (hasInitializer : Bool)
    (name : String) (span : Span) (constant : Option ConstantFacts) : Binder Unit := do
  let symbol ← addSymbol
    { name, kind := .field, type, modifiers, scope := place.scope, span, hasInitializer, constant }
  bindName place.scope name symbol

/-! ### Types -/

variable (context : UnitContext)

/-- The type that a written type denotes. Raw uses are reported where `checksRaw` holds. -/
def bindTypeChecked (place : Place) (checksRaw : Bool) (written : WrittenType) :
    Binder Ty := do
  let state ← get
  let resolved := context.names.written (place.nameScope state.locals) written
  let type := resolved.type
  reportAll (resolved.unresolved.map fun (name, span) => (.unresolvedType name, span))
  reportAll (written.staticVariables place.frames place.methodVariables)
  if checksRaw && context.configuration.allows .generics then
    reportAll (written.rawUses context.path type)
  match deprecatedUse context.path place.frames type with
  | some problem => report problem written.span
  | none => pure ()
  modify fun state =>
    { state with
      bindings.writtenTypes := (written.span.start.offset, type) :: state.bindings.writtenTypes }
  return type

def bindType (place : Place) (written : WrittenType) : Binder Ty :=
  bindTypeChecked context place true written

def bindTypes (place : Place) (written : List WrittenType) : Binder Unit :=
  written.forM fun type => discard (bindType context place type)

def bindParameterType (place : Place) (parameter : Parameter) : Binder Ty := do
  let type ← bindType context place parameter.type
  return if parameter.variadic then .array type else type

def bindParameter (place : Place) (parameter : Parameter) : Binder Unit := do
  let type ← bindParameterType context place parameter
  declareVariable place .parameter type parameter.modifiers true place.scope parameter.name
    parameter.nameSpan

/-- Declares a parameter of a lambda, whose type may be left open. Its name must not be that of a
variable around the lambda, which has the scope `outer`. -/
def bindLambdaParameter (place : Place) (outer : ScopeId) (parameter : LambdaParameter) :
    Binder Unit := do
  let type ← match parameter.type with
    | some written => if written.isVar then pure .unknown else bindType context place written
    | none => pure .unknown
  if parameter.name = "_" then return
  let state ← get
  if (state.bindings.clash? outer parameter.name).isSome then
    report (.parameterOfLambda parameter.name) parameter.nameSpan
  let symbol ← addSymbol
    { name := parameter.name, kind := .parameter, type, modifiers := parameter.modifiers
      scope := place.scope, span := parameter.nameSpan, hasInitializer := true }
  bindName place.scope parameter.name symbol

mutual

def bindPattern (place : Place) : Pattern → Binder (List SymbolId)
  | .type pattern => do
    let type ← bindTypeChecked context place false pattern.type
    declarePattern place type pattern.modifiers pattern.name pattern.nameSpan
  | .record type components _ => do
    let _ ← bindTypeChecked context place false type
    bindPatterns place components

def bindPatterns (place : Place) : List Pattern → Binder (List SymbolId)
  | [] => pure []
  | pattern :: rest => do
    let first ← bindPattern place pattern
    let more ← bindPatterns place rest
    return first ++ more

end

/-! ### Names -/

def record (id : Nat) (referent : Referent) : Binder (Option Referent) := do
  modify fun state =>
    { state with bindings.referents := (id, referent) :: state.bindings.referents }
  return some referent

def reportField (place : Place) (found : ClassPath.FoundField) (span : Span)
    (position : Position) (access : FieldAccess) : Binder Unit :=
  match fieldProblem? place.frames found span position access with
  | some problem => report problem span
  | none => pure ()

def qualifier? (place : Place) (locals : List (String × String)) (name : String) :
    Option Referent :=
  match context.names.simple? (place.nameScope locals) name with
  | some type => some (.type type)
  | none =>
    if context.path.hasPackage name || Platform.ownsName s!"{name}." then some (.package name)
    else none

/-- A simple name that denotes nothing: it is reported unless it may be declared where it cannot be
seen. -/
def unresolvedName? (place : Place) (position : Position) (name : String) : Option NameProblem :=
  let isQualifier := position == .qualifier
  if context.mayHide place.frames name || isQualifier && context.names.hasOpaqueImports then none
  else some (if isQualifier then .unresolvedQualifier name else .unresolvedVariable name)

def bindDistantName (place : Place) (position : Position) (name : String) (id : Nat)
    (span : Span) : Binder (Option Referent) := do
  let state ← get
  match context.names.staticField? name with
  | some found => record id (.field found)
  | none =>
    if position = .caseConstant then
      set { state with bindings.caseNames := id :: state.bindings.caseNames }
      return none
    let denoted :=
      if position = .qualifier then qualifier? context place state.locals name else none
    match denoted with
    | some referent => record id referent
    | none =>
      match unresolvedName? context place position name with
      | some problem =>
        report problem span
        return none
      | none => return none

/-- What a simple name denotes. A variable that gets a value notes where. -/
def bindSimpleName (place : Place) (position : Position) (name : String) (id : Nat)
    (span : Span) : Binder (Option Referent) := do
  let state ← get
  let scopes := state.bindings.tree.ancestors place.scope
  let hit := state.bindings.findName context.path place.guardScope name scopes place.frames 0
    false false
  match hit with
  | some (.field found around) =>
    reportField place found span position (.simple around)
    record id (.field found)
  | some (.variable symbol captured) =>
    match captured with
    | some kind => modify fun state =>
        { state with captures := { symbol, span, kind } :: state.captures }
    | none => pure ()
    if position.isChange then
      modify fun state =>
        { state with
          bindings.symbols := state.bindings.symbols.modify symbol (Symbol.assignedAt · span) }
    record id (.variable symbol)
  | none => bindDistantName context place position name id span

/-- What a field of a package denotes: a type or a package in it. A name of the platform that is
not known is told by its first letter. -/
def inPackage? (package name : String) : Option Referent :=
  let qualified := s!"{package}.{name}"
  match context.path.keyOf? qualified with
  | some key => some (.type (.ofKey key))
  | none =>
    if context.path.hasPackage qualified then some (.package qualified)
    else if Platform.ownsName qualified then
      if (name.toList.head?.any fun letter => 'A' ≤ letter && letter ≤ 'Z') then
        some (.type (.ofKey qualified))
      else some (.package qualified)
    else none

/-- What a name after a dot denotes, by what stands before the dot. The fields of values are found
when types are. -/
def bindSelection (place : Place) (position : Position) (target : Option Referent)
    (name : String) (id : Nat) (span : Span) : Binder (Option Referent) :=
  match target with
  | none | some (.variable _) | some (.field _) => pure none
  | some (.package package) =>
    match inPackage? context package name with
    | some referent => record id referent
    | none => do
      report (.unresolvedQualifier s!"{package}.{name}") span
      return none
  | some (.type type) =>
    match type.key?.filter context.path.knows with
    | none => pure none
    | some key =>
      match context.path.findField? (.ofKey key) name with
      | some found => do
        if found.field.isStatic then reportField place found span position .throughType
        else report (.staticField name) span
        record id (.field found)
      | none =>
        match context.path.memberType? key name with
        | some member => record id (.type (.ofKey member))
        | none => pure none

def bindThis (place : Place) (qualifier : Option String) (span : Span) : Binder Unit :=
  let around := match qualifier with
    | none => if place.frames.isEmpty then none else some 0
    | some name => place.frames.findIdx? fun frame => frame.simpleName == lastSegment name
  match around with
  | some around =>
    if instanceReachable place.frames around then pure () else report .staticThis span
  | none => pure ()

def bindSuper (place : Place) (span : Span) : Binder Unit :=
  if place.frames.isEmpty || instanceReachable place.frames 0 then pure ()
  else report .staticSuper span

def bindOwnField (place : Place) (position : Position) (name : String) (id : Nat) (span : Span) :
    Binder (Option Referent) :=
  match place.frames.head?.bind fun frame => context.path.findField? frame.thisType name with
  | some found => do
    reportField place found span position .throughThis
    record id (.field found)
  | none => pure none

end Binder

end JavaFrontEnd
