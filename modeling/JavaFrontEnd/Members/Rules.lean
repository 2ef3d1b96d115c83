/-
The rules for the members of any type: nothing is declared twice, abstract methods are implemented,
final methods are not overridden, and inner classes have no static members where the language does
not allow it.
-/

import JavaFrontEnd.Binding.Basic

namespace JavaFrontEnd

/-! What can be wrong with the members that a type declares. -/

inductive Placement where
  | topLevel
  | member
  | inMethod
  deriving DecidableEq, Repr

inductive MemberProblem where
  | duplicateField (type name : String)
  | duplicateMethod (type signature : String)
  /-- An enum declares a method that every enum has. -/
  | impliedMethod (type signature : String)
  | enumModifier (placement : Placement) (name : String)
  | constantModifier (name : String)
  | enumConstructorModifier
  | enumSuperCall (signature : String)
  | abstractInEnum (type signature : String)
  | mustImplement (type owner signature : String)
  | constantMustImplement (name signature : String)
  | overridesFinal (owner : String)
  | missingOverride (type signature : String) (inInterface : Bool)
  | staticField (name : String)
  | staticMethod (name : String)
  deriving DecidableEq, Repr

namespace MemberProblem

def category : MemberProblem → Category
  | duplicateField .. | duplicateMethod .. => .duplicateMember
  | impliedMethod .. => .duplicateMemberOrAlreadyDefinedImplicitly
  | enumModifier .. | enumConstructorModifier => .illegalModifier
  | constantModifier _ => .illegalModifierForEnumConstant
  | enumSuperCall _ => .illegalEnumSuperCall
  | abstractInEnum .. => .abstractMethodInEnumWithoutBodies
  | mustImplement .. | constantMustImplement .. => .mustImplementAbstractMethod
  | overridesFinal _ => .cannotOverrideFinalMethod
  | missingOverride .. => .missingOverride
  | staticField _ | staticMethod _ => .illegalStaticMemberInInnerType

def message : MemberProblem → String
  | duplicateField type name => s!"Duplicate field {type}.{name}"
  | duplicateMethod type signature => s!"Duplicate method {signature} in type {type}"
  | impliedMethod type signature =>
    s!"The enum {type} already defines the method {signature} implicitly"
  | enumModifier .topLevel name =>
    s!"Illegal modifier for the enum {name}; only public is permitted"
  | enumModifier .member name =>
    s!"Illegal modifier for the member enum {name}; only public, protected, private & static " ++
      "are permitted"
  | enumModifier .inMethod name =>
    s!"Illegal modifier for local enum {name}; no explicit modifier is permitted"
  | constantModifier name =>
    s!"Illegal modifier for the enum constant {name}; no modifier is allowed"
  | enumConstructorModifier =>
    "Illegal modifier for the enum constructor; only private is permitted"
  | enumSuperCall signature =>
    s!"Cannot invoke super constructor from enum constructor {signature}"
  | abstractInEnum type signature =>
    s!"The enum {type} can only define the abstract method {signature} if it also defines enum " ++
      "constants with corresponding implementations"
  | mustImplement type owner signature =>
    s!"The type {type} must implement the inherited abstract method {owner}.{signature}"
  | constantMustImplement name signature =>
    s!"The enum constant {name} must implement the abstract method {signature}"
  | overridesFinal owner => s!"Cannot override the final method from {owner}"
  | missingOverride type signature inInterface =>
    let overridden := if inInterface then "a superinterface method" else "a superclass method"
    s!"The method {signature} of type {type} should be tagged with @Override since it actually " ++
      s!"overrides {overridden}"
  | staticField name =>
    s!"The field {name} cannot be declared static in a non-static inner type, unless " ++
      "initialized with a constant expression"
  | staticMethod name =>
    s!"The method {name} cannot be declared static; static methods can only be declared in a " ++
      "static or top level type"

def diagnostic (problem : MemberProblem) (span : Span) : Diagnostic :=
  .new problem.category problem.message span

end MemberProblem

abbrev MemberProblems := List (MemberProblem × Span)

section

variable (method : DeclaredMethod)

structure DeclaredMethod where
  header : MethodHeader
  parameters : List Ty

namespace DeclaredMethod

def erased : List Ty :=
  method.parameters.map Ty.erasure

def has (modifier : Modifier) : Bool :=
  method.header.modifiers.contains modifier

def isMarkedOverride : Bool :=
  isAnnotated method.header.annotations "Override"

def signatureWith (types : List Ty) : String :=
  s!"{method.header.name}({Ty.displayList types})"

def signature : String :=
  method.signatureWith method.parameters

end DeclaredMethod

namespace Bindings

def parameterType (bindings : Bindings) (parameter : Parameter) : Ty :=
  let type := bindings.typeOf parameter.type
  if parameter.variadic && !type.isUnknown then .array type else type

def methodsOf (bindings : Bindings) (members : List Member) : List DeclaredMethod :=
  (methodHeaders members).map fun header =>
    { header, parameters := header.parameters.map bindings.parameterType }

end Bindings

/-! ### Duplicates -/

def fieldNames (constants : List EnumConstant) (members : List Member) : List (String × Span) :=
  let ofConstants := constants.map fun constant => (constant.header.name, constant.header.nameSpan)
  let ofFields := (fieldValues members).map fun (header, _) => (header.name, header.nameSpan)
  ofConstants ++ ofFields

def duplicateFields (type : String) (fields : List (String × Span)) : MemberProblems :=
  fields.filterMap fun (name, span) =>
    if (fields.countP fun (other, _) => other == name) > 1 then
      some (.duplicateField type name, span)
    else none

/-- Every method that has the name and the erased parameters of another, or of one of `implied`,
which the type has without declaring it. -/
def duplicateMethods (type : String) (implied : List (String × List Ty))
    (methods : List DeclaredMethod) : MemberProblems :=
  methods.filterMap fun method =>
    let name := method.header.name
    let erased := method.erased
    if erased.any Ty.isUnknown then none
    else if implied.any fun (other, parameters) =>
        other == name && decide (parameters.map Ty.erasure = erased) then
      some (.impliedMethod type (method.signatureWith erased), method.header.nameSpan)
    else if (methods.countP fun other =>
        other.header.name == name && decide (other.erased = erased)) > 1 then
      some (.duplicateMethod type method.signature, method.header.nameSpan)
    else none

/-! ### Implementing and overriding -/

def missingMethods (path : ClassPath) (key shown : String) (span : Span) : MemberProblems :=
  let missing := (path.unimplemented? key).getD []
  (missing.filter fun method => method.owner != key).map fun method =>
    (.mustImplement shown (Ty.simpleName method.owner) method.signature, span)

def enumFinalMethods : List (String × Nat) :=
  [("clone", 0), ("equals", 1), ("hashCode", 0), ("compareTo", 1), ("name", 0), ("ordinal", 0),
   ("getDeclaringClass", 0)]

/-- A method has the name and the number of parameters of a final method of every enum. -/
def DeclaredMethod.resemblesEnumMethod : Bool :=
  enumFinalMethods.contains (method.header.name, method.parameters.length)

def overridden? (path : ClassPath) (supertypes : List Ty) (method : DeclaredMethod) :
    Option KnownMethod :=
  supertypes.findSome? fun super =>
    (path.findMethods super method.header.name).1.find? fun candidate =>
      !candidate.isStatic && !candidate.isPrivate &&
        decide (candidate.erasedParameters = method.erased)

def overrideProblem? (context : UnitContext) (type : KnownType) (shown : String)
    (method : DeclaredMethod) : Option MemberProblem := do
  let supertypes := type.superclass.toList ++ type.interfaces
  if method.has .static || method.has .private || method.erased.any Ty.isUnknown then none
  else
    let overridden ← overridden? context.path supertypes method
    let fromInterface := (context.path.type? overridden.owner).any KnownType.isInterface
    let needsNoMark := fromInterface &&
      (type.isInterface || !context.configuration.allows .overrideOnInterfaceMethods)
    if overridden.isFinal then some (.overridesFinal (Ty.simpleName overridden.owner))
    else if method.isMarkedOverride || needsNoMark then none
    else some (.missingOverride shown method.signature fromInterface)

/-- The methods of a type that override what they must not, or do not say that they override. The
final methods of enums are left to the rules for enums. -/
def overrideProblems (context : UnitContext) (key shown : String) (inEnum : Bool)
    (methods : List DeclaredMethod) : MemberProblems :=
  match context.path.type? key with
  | none => []
  | some type =>
    methods.filterMap fun method =>
      if inEnum && method.resemblesEnumMethod then none
      else (overrideProblem? context type shown method).map fun problem =>
        (problem, method.header.nameSpan)

/-! ### Static members of inner classes -/

/-- The static members that an inner class may not have: all but constants. -/
def staticMembers (bindings : Bindings) (members : List Member) : MemberProblems :=
  members.filterMap fun member =>
    match member with
    | .field header initializer =>
      let type := bindings.typeOf header.type
      let isConstant := header.modifiers.contains .final && (type.isPrimitive || type.isString) &&
        initializer.any (Expression.isConstant fun _ => true)
      if header.modifiers.contains .static && !isConstant then
        some (.staticField header.name, header.nameSpan)
      else none
    | .method header _ _ =>
      if header.modifiers.contains .static then some (.staticMethod header.name, header.nameSpan)
      else none
    | _ => none

/-- The static members of the innermost type, if they are not allowed there. -/
def innerStaticMembers (context : UnitContext) (bindings : Bindings) (frames : List Frame)
    (members : List Member) : MemberProblems :=
  let isInner := frames.length > 1 && frames.head?.any fun frame => !frame.isStaticType
  if isInner && !context.configuration.allows .staticMembersInInnerTypes then
    staticMembers bindings members
  else []

end

/-! The rules for enums: their modifiers, their constructors, and the abstract methods that their
constants have to implement. -/

def Placement.enumModifiers : Placement → List Modifier
  | .topLevel => [.public, .strictfp]
  | .member => [.public, .protected, .private, .static, .strictfp]
  | .inMethod => [.strictfp]

def enumModifierProblems (placement : Placement) (header : TypeHeader) : MemberProblems :=
  if header.modifiers.any fun modifier => !placement.enumModifiers.contains modifier then
    [(.enumModifier placement header.name, header.nameSpan)]
  else []

def constantModifierProblems (constants : List EnumConstant) : MemberProblems :=
  constants.filterMap fun constant =>
    if constant.header.modifiers.isEmpty then none
    else some (.constantModifier constant.header.name, constant.header.nameSpan)

def Parameter.display (parameter : Parameter) : String :=
  parameter.type.display ++ if parameter.variadic then "..." else ""

/-- The constructors of an enum are private and do not call that of the superclass. -/
def enumConstructorProblems (name : String) (members : List Member) : MemberProblems :=
  members.flatMap fun member =>
    match member with
    | .constructor header call _ =>
      let modifier : MemberProblems :=
        if header.modifiers.any fun modifier => modifier != .private then
          [(.enumConstructorModifier, header.nameSpan)]
        else []
      let parameters := ", ".intercalate (header.parameters.map Parameter.display)
      let superCall : MemberProblems := match call with
        | .super _ span => [(.enumSuperCall s!"{name}({parameters})", span)]
        | .implicit | .this .. => []
      modifier ++ superCall
    | _ => []

/-- The abstract methods of an enum whose constants have no bodies, so that none can implement
them. -/
def abstractWithoutBodies (key : String) (declaration : TypeDeclaration)
    (missing : List KnownMethod) : MemberProblems :=
  let name := declaration.name
  let own : MemberProblems := declaration.abstractMethods.map fun header =>
    let parameters := ", ".intercalate (header.parameters.map fun parameter =>
      parameter.type.display)
    (.abstractInEnum name s!"{header.name}({parameters})", header.nameSpan)
  let inherited := (missing.filter fun method => method.owner != key).map fun method =>
    (.mustImplement name (Ty.simpleName method.owner) method.signature,
      declaration.header.nameSpan)
  own ++ inherited

def missingInConstant (context : UnitContext) (missing : List KnownMethod)
    (constant : EnumConstant) : MemberProblems :=
  let bodyKey := constant.body.bind fun body => context.keyAt? body.span.start.offset
  let required := match bodyKey with
    | some key => (context.path.unimplemented? key).getD []
    | none => missing
  required.map fun method =>
    (.constantMustImplement constant.header.name method.signature, constant.header.nameSpan)

def enumAbstractProblems (context : UnitContext) (key : String) (declaration : TypeDeclaration) :
    MemberProblems :=
  match context.path.unimplemented? key with
  | none | some [] => []
  | some missing =>
    if declaration.hasConstantBodies then
      declaration.constants.flatMap (missingInConstant context missing)
    else abstractWithoutBodies key declaration missing

def DeclaredMethod.overridesEnumMethod (key : String) (method : DeclaredMethod) : Bool :=
  !method.has .static && method.resemblesEnumMethod &&
    match method.header.name, method.parameters with
    | "equals", [parameter] => decide (parameter.erasure = .object)
    | "compareTo", [parameter] => decide (parameter.erasure = .ofKey key) || parameter.isUnknown
    | _, _ => true

def enumFinalProblems (key name : String) (methods : List DeclaredMethod) : MemberProblems :=
  methods.flatMap fun method =>
    if method.overridesEnumMethod key then
      let mark : MemberProblems :=
        if method.isMarkedOverride then []
        else [(.missingOverride name method.signature false, method.header.nameSpan)]
      (.overridesFinal s!"Enum<{name}>", method.header.nameSpan) :: mark
    else []

def enumProblems (context : UnitContext) (key : String) (placement : Placement)
    (declaration : TypeDeclaration) (methods : List DeclaredMethod) : MemberProblems :=
  let name := declaration.name
  duplicateFields name (fieldNames declaration.constants declaration.members) ++
    duplicateMethods name [("values", []), ("valueOf", [.string])] methods ++
    enumModifierProblems placement declaration.header ++
    constantModifierProblems declaration.constants ++
    enumConstructorProblems name declaration.members ++
    enumAbstractProblems context key declaration ++ enumFinalProblems key name methods

end JavaFrontEnd
