/-
The class files that a unit gives rise to. A plan says what a class file has that its source does
not spell out: flags, constructors with their hidden parameters, and methods that no one wrote. The
plans of types declared inside another are nested in its plan, in the order of the text.
-/

import JavaFrontEnd.Binding.Basic

namespace JavaFrontEnd

/-! The access flags of class files and their members, as sets of bits. -/

inductive ClassModifier where
  | final | abstract
  deriving DecidableEq, Repr

abbrev AccessFlags := UInt16

namespace AccessFlags

def isPublic : AccessFlags := 0x0001
def isPrivate : AccessFlags := 0x0002
def isProtected : AccessFlags := 0x0004
def isStatic : AccessFlags := 0x0008
def isFinal : AccessFlags := 0x0010
def isSuper : AccessFlags := 0x0020
/-- A method that holds a lock; it has the bit of `isSuper`, which methods do not have. -/
def isSynchronized : AccessFlags := 0x0020
def isVolatile : AccessFlags := 0x0040
def isTransient : AccessFlags := 0x0080
def isNative : AccessFlags := 0x0100
def isInterface : AccessFlags := 0x0200
def isAbstract : AccessFlags := 0x0400
def isStrict : AccessFlags := 0x0800
def isSynthetic : AccessFlags := 0x1000
def isAnnotationType : AccessFlags := 0x2000
def isEnum : AccessFlags := 0x4000

def ofModifier : Modifier → AccessFlags
  | .public => isPublic
  | .private => isPrivate
  | .protected => isProtected
  | .static => isStatic
  | .final => isFinal
  | .abstract => isAbstract
  | .native => isNative
  | .synchronized => isSynchronized
  | .transient => isTransient
  | .volatile => isVolatile
  | .strictfp => isStrict
  | .default | .sealed | .nonSealed => 0

def ofModifiers (modifiers : List Modifier) : AccessFlags :=
  modifiers.foldl (fun flags modifier => flags ||| ofModifier modifier) 0

def ofKind : TypeKind → AccessFlags
  | .interface => isInterface ||| isAbstract
  | .annotationType => isInterface ||| isAbstract ||| isAnnotationType
  | .enum => isSuper ||| isEnum
  | .class | .record => isSuper

def ofClassModifier : ClassModifier → AccessFlags
  | .final => isFinal
  | .abstract => isAbstract

/-- The flags of a class file. It knows public access only: a protected type is written as public,
a private one as visible in its package. -/
def ofClass (kind : TypeKind) (modifiers : List Modifier) (classModifiers : List ClassModifier) :
    AccessFlags :=
  let access := if modifiers.contains .public || modifiers.contains .protected then isPublic else 0
  classModifiers.foldl (fun flags modifier => flags ||| ofClassModifier modifier)
    (access ||| ofKind kind)

/-- The flags of a constructor that no one wrote: it is as accessible as its class, and private in
an enum. -/
def ofImpliedConstructor (kind : TypeKind) (modifiers : List Modifier) : AccessFlags :=
  if kind = .enum then isPrivate
  else ofModifiers modifiers &&& (isPublic ||| isProtected ||| isPrivate)

def named : List (AccessFlags × String) :=
  [(isPublic, "ACC_PUBLIC"), (isPrivate, "ACC_PRIVATE"), (isProtected, "ACC_PROTECTED"),
   (isStatic, "ACC_STATIC"), (isFinal, "ACC_FINAL"), (isSuper, "ACC_SUPER"),
   (isInterface, "ACC_INTERFACE"), (isAbstract, "ACC_ABSTRACT"), (isSynthetic, "ACC_SYNTHETIC"),
   (isAnnotationType, "ACC_ANNOTATION"), (isEnum, "ACC_ENUM")]

def names (flags : AccessFlags) : List String :=
  (named.filter fun (bit, _) => flags &&& bit != 0).map Prod.snd

end AccessFlags

structure ImpliedMethod where
  name : String
  descriptor : String
  flags : AccessFlags

structure ClassPlan where
  name : String
  hasValuesArray : Bool := false
  hasStaticInitializer : Bool := false
  constructors : List String := []
  implied : List ImpliedMethod := []
  modifiers : List ClassModifier := []
  flags : AccessFlags := 0
  nested : List ClassPlan := []

namespace ClassPlan

mutual

def flatten : ClassPlan → List ClassPlan
  | ⟨name, values, initializer, constructors, implied, modifiers, flags, nested⟩ =>
    ⟨name, values, initializer, constructors, implied, modifiers, flags, nested⟩ ::
      flattenAll nested

def flattenAll : List ClassPlan → List ClassPlan
  | [] => []
  | plan :: rest => plan.flatten ++ flattenAll rest

end

def lines (plan : ClassPlan) : List String :=
  let flags := " ".intercalate plan.flags.names
  let methods := plan.implied.filter fun method => method.name != KnownMethod.constructorName
  [s!"{plan.name} [{flags}]"] ++ (if plan.hasValuesArray then ["  field $VALUES"] else []) ++
    (if plan.hasStaticInitializer then ["  <clinit>"] else []) ++
    (plan.constructors.map fun descriptor => s!"  <init>{descriptor}") ++
    methods.map fun method => s!"  synthetic {method.name}{method.descriptor}"

def describe (plans : List ClassPlan) : String :=
  String.join ((flattenAll plans).flatMap lines |>.map fun line => line ++ "\n")

/-! ### The parts of a plan -/

abbrev Located := List (Nat × ClassPlan)

def inOrder (located : Located) : List ClassPlan :=
  (located.mergeSort fun first second => first.1 ≤ second.1).map Prod.snd

def impliedMethod (name : String) (parameters : List Ty) (result : Ty) (flags : AccessFlags) :
    ImpliedMethod :=
  { name, descriptor := Ty.methodDescriptor parameters result, flags }

def constructorDescriptor (parameters : List Ty) : String :=
  Ty.methodDescriptor parameters .void

variable (context : UnitContext) (bindings : Bindings)

def parameterTypes (parameters : List Parameter) : List Ty :=
  parameters.map fun parameter =>
    let type := bindings.typeOf parameter.type
    if parameter.variadic then .array type else type

/-- The class modifiers of a declaration. An enum is final unless a constant has a body, and
abstract if it then leaves methods to its constants. -/
def modifiersOf (declaration : TypeDeclaration) (known : Option KnownType) :
    List ClassModifier :=
  match declaration.kind with
  | .enum =>
    if !declaration.hasConstantBodies then [.final]
    else if known.any KnownType.isAbstract then [.abstract]
    else []
  | .record => [.final]
  | .interface | .annotationType => [.abstract]
  | .class =>
    (if declaration.hasModifier .final then [.final] else []) ++
      if declaration.hasModifier .abstract then [.abstract] else []

/-- Code has to run when the class is loaded: there is a static initializer, or a static field
whose value is not constant. -/
def needsStaticInitializer (known : Option KnownType) (inInterface : Bool)
    (members : List Member) : Bool :=
  let isConstantName (name : String) : Bool :=
    (known.bind (·.field? name)).any KnownField.isConstant
  members.any fun member =>
    match member with
    | .initializer isStatic _ _ => isStatic
    | .field header (some value) =>
      let type := bindings.typeOf header.type
      let isFinal := header.modifiers.contains .final || inInterface
      (header.modifiers.contains .static || inInterface) &&
        !(isFinal && (type.isPrimitive || type.isString) && value.isConstant isConstantName)
    | _ => false

/-- The descriptors of the written constructors, with hidden parameters before the others. A
compact constructor takes the fields of its record. -/
def writtenConstructors (hidden : List Ty) (known : Option KnownType) (members : List Member) :
    List String :=
  members.filterMap fun member =>
    match member with
    | .constructor header _ _ =>
      let fields := ((known.map KnownType.fields).getD []).filter fun field => !field.isStatic
      let parameters :=
        if header.compact then fields.map KnownField.type
        else parameterTypes bindings header.parameters
      some (constructorDescriptor (hidden ++ parameters))
    | _ => none

/-- Adds constructors to a plan: the written ones, or else one that takes the hidden parameters
alone. -/
def addConstructors (hidden : List Ty) (known : Option KnownType) (declaration : TypeDeclaration)
    (plan : ClassPlan) : ClassPlan :=
  let written := writtenConstructors bindings hidden known declaration.members
  if written.isEmpty then
    let flags := AccessFlags.ofImpliedConstructor declaration.kind declaration.header.modifiers
    { plan with
      constructors := [constructorDescriptor hidden]
      implied := plan.implied ++ [impliedMethod KnownMethod.constructorName hidden .void flags] }
  else { plan with constructors := written }

/-- Adds what every enum has: its array of constants, the methods that list and find them, and the
name and the number of the constant as hidden parameters of constructors. -/
def addEnumMembers (key : String) (known : Option KnownType) (declaration : TypeDeclaration)
    (plan : ClassPlan) : ClassPlan :=
  let self := Ty.ofKey key
  let hasConstants := !declaration.constants.isEmpty
  let shared := AccessFlags.isPublic ||| AccessFlags.isStatic
  let helper :=
    if context.configuration.level.release ≥ 15 && hasConstants then
      [impliedMethod "$values" [] (.array self)
        (AccessFlags.isPrivate ||| AccessFlags.isStatic ||| AccessFlags.isSynthetic)]
    else []
  addConstructors bindings [.string, .int] known declaration
    { plan with
      hasValuesArray := hasConstants
      hasStaticInitializer := plan.hasStaticInitializer || hasConstants
      implied :=
        [impliedMethod "values" [] (.array self) shared,
          impliedMethod "valueOf" [.string] self shared] ++ helper }

/-- Adds what a record has without declaring it: a constructor for its components, accessors for
them, and the methods that compare and show records. -/
def addRecordMembers (components : List Parameter) (known : Option KnownType)
    (members : List Member) (plan : ClassPlan) : ClassPlan :=
  let types := parameterTypes bindings components
  let written := writtenConstructors bindings [] known members
  let canonical := constructorDescriptor types
  let hasCompact := members.any fun member =>
    match member with
    | .constructor header _ _ => header.compact
    | _ => false
  let hasCanonical := hasCompact || written.contains canonical
  let creation :=
    if hasCanonical then []
    else [impliedMethod KnownMethod.constructorName types .void AccessFlags.isPublic]
  let accessors := (components.zip types).filterMap fun (component, type) =>
    if Site.declares members component.name 0 then none
    else some (impliedMethod component.name [] type AccessFlags.isPublic)
  let common : List (String × List Ty × Ty) :=
    [("toString", [], .string), ("hashCode", [], .int), ("equals", [.object], .boolean)]
  let others := common.filterMap fun (name, parameters, result) =>
    if Site.declares members name parameters.length then none
    else
      some (impliedMethod name parameters result (AccessFlags.isPublic ||| AccessFlags.isFinal))
  { plan with
    constructors := if hasCanonical then written else canonical :: written
    implied := creation ++ accessors ++ others }

def outerInstance (known : Option KnownType) : List Ty :=
  match known with
  | some type => if type.isStatic || type.isLocal then [] else type.outer.toList.map Ty.ofKey
  | none => []

def ofHeader (key : String) (declaration : TypeDeclaration) : ClassPlan :=
  let known := context.path.type? key
  let modifiers := modifiersOf declaration known
  let plan : ClassPlan :=
    { name := Ty.binaryName key
      modifiers
      flags := .ofClass declaration.kind declaration.header.modifiers modifiers
      hasStaticInitializer :=
        needsStaticInitializer bindings known (declaration.kind == .interface)
          declaration.members }
  match declaration.header.shape with
  | .enum .. => addEnumMembers context bindings key known declaration plan
  | .record _ components _ => addRecordMembers bindings components known declaration.members plan
  | .class .. => addConstructors bindings (outerInstance known) known declaration plan
  | .interface .. | .annotationType => plan

/-- The plan of the body of a constant, without the class files nested in it. Its constructor takes
the name and the number of the constant and the parameters of the first constructor of the enum
with as many parameters as there are arguments. -/
def ofConstantBody (key : String) (enumMembers : List Member) (count : Nat)
    (members : List Member) : ClassPlan :=
  let called := enumMembers.findSome? fun member =>
    match member with
    | .constructor header _ _ =>
      if header.parameters.length = count then some (parameterTypes bindings header.parameters)
      else none
    | _ => none
  { name := Ty.binaryName key
    modifiers := [.final]
    flags := AccessFlags.isFinal ||| AccessFlags.isSuper ||| AccessFlags.isEnum
    hasStaticInitializer := needsStaticInitializer bindings (context.path.type? key) false members
    constructors := [constructorDescriptor ([.string, .int] ++ called.getD [])] }

/-- The plan of an anonymous class, without the class files nested in it. Its constructor takes the
parameters of the first constructor of the superclass with as many parameters as there are
arguments. -/
def ofAnonymousBody (key : String) (base : WrittenType) (count : Nat) (members : List Member) :
    ClassPlan :=
  let superclass := ((bindings.typeOf base).key?.bind context.path.type?).filter fun type =>
    !type.isInterface
  let called := superclass.bind fun type =>
    type.constructors.find? fun constructor => constructor.parameters.length == count
  { name := Ty.binaryName key
    flags := AccessFlags.isSuper
    hasStaticInitializer := needsStaticInitializer bindings (context.path.type? key) false members
    constructors := [constructorDescriptor ((called.map KnownMethod.parameters).getD [])] }

/-! ### The walk -/

mutual

def ofDeclaration (key : String) : TypeDeclaration → ClassPlan
  | ⟨header, constants, members⟩ =>
    { ofHeader context bindings key ⟨header, constants, members⟩ with
      nested := inOrder (ofConstants key members constants ++ ofMembers key members) }

def ofConstants (key : String) (enumMembers : List Member) : List EnumConstant → Located
  | [] => []
  | ⟨_, arguments, none⟩ :: rest =>
    ofExpressions key arguments ++ ofConstants key enumMembers rest
  | ⟨_, arguments, some ⟨members, span⟩⟩ :: rest =>
    let bodyKey := context.keyAt span.start.offset s!"{key}$"
    let plan := ofConstantBody context bindings bodyKey enumMembers arguments.length members
    ofExpressions key arguments ++
      (span.start.offset, { plan with nested := inOrder (ofMembers bodyKey members) }) ::
        ofConstants key enumMembers rest

def ofMembers (owner : String) : List Member → Located
  | [] => []
  | member :: rest => ofMember owner member ++ ofMembers owner rest

def ofMember (owner : String) : Member → Located
  | .type declaration =>
    let offset := declaration.header.nameSpan.start.offset
    let key := context.keyAt offset s!"{owner}${declaration.name}"
    [(offset, ofDeclaration key declaration)]
  | .field _ initializer => ofOptionalExpression owner initializer
  | .method _ body _ => ofOptionalBlock owner true body
  | .constructor _ call body => ofCall owner call ++ ofBlock owner true body
  | .initializer _ body _ => ofBlock owner true body

def ofCall (owner : String) : ConstructorCall → Located
  | .implicit => []
  | .this arguments _ | .super arguments _ => ofExpressions owner arguments

def ofExpressions (owner : String) : List Expression → Located
  | [] => []
  | expression :: rest => ofExpression owner expression ++ ofExpressions owner rest

def ofOptionalExpression (owner : String) : Option Expression → Located
  | none => []
  | some expression => ofExpression owner expression

def ofExpression (owner : String) : Expression → Located
  | .field target .. => ofExpression owner target
  | .call target _ _ _ arguments _ _ =>
    ofOptionalExpression owner target ++ ofExpressions owner arguments
  | .binary _ left right _ => ofExpression owner left ++ ofExpression owner right
  | .unary _ operand _ => ofExpression owner operand
  | .assignment _ target value _ => ofExpression owner target ++ ofExpression owner value
  | .index array index _ => ofExpression owner array ++ ofExpression owner index
  | .cast _ _ operand _ | .instanceOf operand _ _ | .instanceOfPattern operand _ _ =>
    ofExpression owner operand
  | .conditional condition yes no _ =>
    ofExpression owner condition ++ ofExpression owner yes ++ ofExpression owner no
  | .create outer _ arguments none _ _ =>
    ofOptionalExpression owner outer ++ ofExpressions owner arguments
  | .create outer type arguments (some ⟨members, span⟩) _ _ =>
    let key := context.keyAt span.start.offset s!"{owner}$"
    let plan := ofAnonymousBody context bindings key type arguments.length members
    (span.start.offset, { plan with nested := inOrder (ofMembers key members) }) ::
      (ofOptionalExpression owner outer ++ ofExpressions owner arguments)
  | .createArray _ sizes _ initializer _ =>
    ofExpressions owner sizes ++ ofOptionalExpression owner initializer
  | .arrayInitializer elements _ => ofExpressions owner elements
  | .lambda _ body _ => ofExpression owner body
  | .blockLambda _ body _ => ofBlock owner false body
  | .methodReference target _ _ => ofExpression owner target
  | .switch selector cases _ _ => ofExpression owner selector ++ ofCases owner false cases
  | .parenthesized inner _ => ofExpression owner inner
  | .literal .. | .name .. | .typeMethodReference .. | .this .. | .super _ | .classLiteral ..
  | .erroneous _ => []

def ofBlock (owner : String) (declares : Bool) : Block → Located
  | ⟨statements, _⟩ => ofStatements owner declares statements

def ofOptionalBlock (owner : String) (declares : Bool) : Option Block → Located
  | none => []
  | some block => ofBlock owner declares block

def ofStatements (owner : String) (declares : Bool) : List Statement → Located
  | [] => []
  | statement :: rest =>
    ofStatement owner declares statement ++ ofStatements owner declares rest

def ofOptionalStatement (owner : String) (declares : Bool) : Option Statement → Located
  | none => []
  | some statement => ofStatement owner declares statement

/-- The class files in a statement. Local classes get one in the body of a member, where `declares`
holds, and not inside expressions. -/
def ofStatement (owner : String) (declares : Bool) : Statement → Located
  | .typeDeclaration declaration =>
    if declares then
      let offset := declaration.header.nameSpan.start.offset
      let key := context.keyAt offset s!"{owner}$1{declaration.name}"
      [(offset, ofDeclaration key declaration)]
    else []
  | .expression expression _ => ofExpression owner expression
  | .locals _ declarations _ => ofDeclarators owner declarations
  | .conditional condition yes no _ =>
    ofExpression owner condition ++ ofStatement owner declares yes ++
      ofOptionalStatement owner declares no
  | .while condition body _ => ofExpression owner condition ++ ofStatement owner declares body
  | .doWhile body condition _ => ofStatement owner declares body ++ ofExpression owner condition
  | .for initial condition update body _ =>
    ofStatements owner declares initial ++ ofOptionalExpression owner condition ++
      ofExpressions owner update ++ ofStatement owner declares body
  | .forEach _ iterable body _ => ofExpression owner iterable ++ ofStatement owner declares body
  | .switch selector cases _ _ => ofExpression owner selector ++ ofCases owner declares cases
  | .return value _ => ofOptionalExpression owner value
  | .yield value _ | .throw value _ => ofExpression owner value
  | .try resources body catches finallyBlock _ =>
    ofResources owner resources ++ ofBlock owner declares body ++
      ofCatches owner declares catches ++ ofOptionalBlock owner declares finallyBlock
  | .assert condition message _ =>
    ofExpression owner condition ++ ofOptionalExpression owner message
  | .synchronized lock body _ => ofExpression owner lock ++ ofBlock owner declares body
  | .labeled _ body _ => ofStatement owner declares body
  | .block body => ofBlock owner declares body
  | .break .. | .continue .. | .empty _ => []

def ofDeclarators (owner : String) : List Declarator → Located
  | [] => []
  | ⟨_, initializer⟩ :: rest => ofOptionalExpression owner initializer ++ ofDeclarators owner rest

def ofResources (owner : String) : List Resource → Located
  | [] => []
  | .declared _ value _ :: rest | .expression value _ :: rest =>
    ofExpression owner value ++ ofResources owner rest

def ofCatches (owner : String) (declares : Bool) : List CatchClause → Located
  | [] => []
  | ⟨_, _, block, _⟩ :: rest => ofBlock owner declares block ++ ofCatches owner declares rest

def ofCases (owner : String) (declares : Bool) : List SwitchCase → Located
  | [] => []
  | .group labels statements _ :: rest =>
    ofLabels owner labels ++ ofStatements owner declares statements ++ ofCases owner declares rest
  | .valueRule label value _ :: rest | .throwRule label value _ _ :: rest =>
    ofLabel owner label ++ ofExpression owner value ++ ofCases owner declares rest
  | .blockRule label block _ :: rest =>
    ofLabel owner label ++ ofBlock owner declares block ++ ofCases owner declares rest

def ofLabels (owner : String) : List SwitchLabel → Located
  | [] => []
  | label :: rest => ofLabel owner label ++ ofLabels owner rest

def ofLabel (owner : String) : SwitchLabel → Located
  | ⟨elements, guard, _⟩ => ofElements owner elements ++ ofOptionalExpression owner guard

def ofElements (owner : String) : List CaseElement → Located
  | [] => []
  | .constant value :: rest => ofExpression owner value ++ ofElements owner rest
  | .pattern _ :: rest | .null _ :: rest | .default _ :: rest => ofElements owner rest

end

def ofUnit (unit : CompilationUnit) : List ClassPlan :=
  unit.types.map fun declaration =>
    let offset := declaration.header.nameSpan.start.offset
    ofDeclaration context bindings (context.keyAt offset (unit.qualify declaration.name))
      declaration

end ClassPlan

end JavaFrontEnd
