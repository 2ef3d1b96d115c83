/-
What is known of the types that units declare. It is gathered in three rounds, so that names can be
resolved against the declarations of all units: first kinds and member types, then supertypes, then
members. Declarations that share a key are gathered into one entry.
-/

import JavaFrontEnd.ClassPath.TypeName
import JavaFrontEnd.Constant

namespace JavaFrontEnd

/-! The places of a unit that declare a type: named declarations, anonymous classes and the bodies
of enum constants. Each gets the key under which its class is known. Member types are joined to
their owner by a dollar sign; local classes get a number before their name, one series for each name
in an owner; anonymous classes get a number alone, one series for each owner. -/

inductive SiteBody where
  | named (declaration : TypeDeclaration)
  | anonymous (base : WrittenType) (body : ClassBody)
  | constant (enumKey : String) (body : ClassBody)

namespace SiteBody

def members : SiteBody → List Member
  | .named declaration => declaration.members
  | .anonymous _ body | .constant _ body => body.members

def kind : SiteBody → TypeKind
  | .named declaration => declaration.kind
  | .anonymous .. | .constant .. => .class

def name? : SiteBody → Option String
  | .named declaration => some declaration.name
  | .anonymous .. | .constant .. => none

/-- The offset by which a declaration is found again: that of its name, or of the brace that opens
its body. -/
def offset : SiteBody → Nat
  | .named declaration => declaration.header.nameSpan.start.offset
  | .anonymous _ body | .constant _ body => body.span.start.offset

end SiteBody

structure Site where
  key : String
  file : String
  unit : CompilationUnit
  body : SiteBody
  outer : Option String
  isLocal : Bool
  scope : NameScope

namespace Site

def names (site : Site) (path : ClassPath) : UnitNames :=
  .ofUnit site.unit path

/-! ### Collecting the sites of a unit -/

structure Place where
  file : String
  unit : CompilationUnit
  owner : String
  enclosing : List String
  typeVariables : List String

structure Found where
  sites : List Site
  locals : List (String × String)

namespace Place

def inside (place : Place) (key : String) (typeVariables : List String) : Place :=
  { place with
    owner := key
    enclosing := place.enclosing ++ [key]
    typeVariables := place.typeVariables ++ typeVariables }

def withVariables (place : Place) (parameters : List TypeParameter) : Place :=
  { place with typeVariables := place.typeVariables ++ parameters.map TypeParameter.name }

end Place

namespace Found

def add (found : Found) (place : Place) (key : String) (body : SiteBody) (outer : Option String)
    (isLocal : Bool) : Found :=
  let site : Site :=
    { key, file := place.file, unit := place.unit, body, outer, isLocal
      scope :=
        { enclosing := place.enclosing, typeVariables := place.typeVariables,
          locals := found.locals } }
  { found with sites := site :: found.sites }

def nextAnonymous (found : Found) (owner : String) : Nat :=
  found.sites.countP (fun site => site.outer == some owner && site.body.name?.isNone) + 1

def nextLocal (found : Found) (owner name : String) : Nat :=
  found.sites.countP (fun site =>
    site.isLocal && site.outer == some owner && site.body.name? == some name) + 1

/-- Forgets the local classes that came into scope after an earlier state. -/
def leaving (found earlier : Found) : Found :=
  { found with locals := earlier.locals }

end Found

mutual

def ofDeclaration (place : Place) (key : String) (outer : Option String) (isLocal : Bool) :
    TypeDeclaration → Found → Found
  | ⟨header, constants, members⟩, found =>
    let inner := place.inside key (header.shape.typeParameters.map TypeParameter.name)
    let own := found.add place key (.named ⟨header, constants, members⟩) outer isLocal
    (ofMembers inner members (ofConstants inner constants own)).leaving found

def ofConstants (place : Place) : List EnumConstant → Found → Found
  | [], found => found
  | constant :: rest, found => ofConstants place rest (ofConstant place constant found)

def ofConstant (place : Place) : EnumConstant → Found → Found
  | ⟨_, arguments, none⟩, found => ofExpressions place arguments found
  | ⟨_, arguments, some body⟩, found =>
    ofBody place (.constant place.owner) body (ofExpressions place arguments found)

def ofBody (place : Place) (site : ClassBody → SiteBody) : ClassBody → Found → Found
  | ⟨members, span⟩, found =>
    let number := found.nextAnonymous place.owner
    let key := s!"{place.owner}${number}"
    let own := found.add place key (site ⟨members, span⟩) (some place.owner) true
    (ofMembers (place.inside key []) members own).leaving found

def ofMembers (place : Place) : List Member → Found → Found
  | [], found => found
  | member :: rest, found => ofMembers place rest (ofMember place member found)

def ofMember (place : Place) : Member → Found → Found
  | .type declaration, found =>
    ofDeclaration place s!"{place.owner}${declaration.name}" (some place.owner) false declaration
      found
  | .field _ initializer, found => ofOptionalExpression place initializer found
  | .method _ none _, found => found
  | .method header (some body) _, found =>
    (ofBlock (place.withVariables header.typeParameters) true body found).leaving found
  | .constructor header call body, found =>
    let inner := place.withVariables header.typeParameters
    (ofBlock inner true body (ofCall inner call found)).leaving found
  | .initializer _ body _, found => (ofBlock place true body found).leaving found

def ofCall (place : Place) : ConstructorCall → Found → Found
  | .implicit, found => found
  | .this arguments _, found | .super arguments _, found => ofExpressions place arguments found

def ofExpressions (place : Place) : List Expression → Found → Found
  | [], found => found
  | expression :: rest, found => ofExpressions place rest (ofExpression place expression found)

def ofOptionalExpression (place : Place) : Option Expression → Found → Found
  | none, found => found
  | some expression, found => ofExpression place expression found

/-- The sites of an expression. A class body comes before those in the arguments of its
creation. -/
def ofExpression (place : Place) : Expression → Found → Found
  | .field target .., found => ofExpression place target found
  | .call target _ _ _ arguments _ _, found =>
    ofExpressions place arguments (ofOptionalExpression place target found)
  | .binary _ left right _, found => ofExpression place right (ofExpression place left found)
  | .unary _ operand _, found => ofExpression place operand found
  | .assignment _ target value _, found =>
    ofExpression place value (ofExpression place target found)
  | .index array index _, found => ofExpression place index (ofExpression place array found)
  | .cast _ _ operand _, found => ofExpression place operand found
  | .instanceOf operand _ _, found | .instanceOfPattern operand _ _, found =>
    ofExpression place operand found
  | .conditional condition yes no _, found =>
    ofExpression place no (ofExpression place yes (ofExpression place condition found))
  | .create outer _ arguments none _ _, found =>
    ofExpressions place arguments (ofOptionalExpression place outer found)
  | .create outer type arguments (some body) _ _, found =>
    ofExpressions place arguments
      (ofOptionalExpression place outer (ofBody place (.anonymous type) body found))
  | .createArray _ sizes _ initializer _, found =>
    ofOptionalExpression place initializer (ofExpressions place sizes found)
  | .arrayInitializer elements _, found => ofExpressions place elements found
  | .lambda _ body _, found => ofExpression place body found
  | .blockLambda _ body _, found => ofBlock place false body found
  | .methodReference target _ _, found => ofExpression place target found
  | .switch selector cases _ _, found =>
    ofCases place false cases (ofExpression place selector found)
  | .parenthesized inner _, found => ofExpression place inner found
  | .literal .., found | .name .., found | .typeMethodReference .., found | .this .., found
  | .super _, found | .classLiteral .., found | .erroneous _, found => found

def ofBlock (place : Place) (declares : Bool) : Block → Found → Found
  | ⟨statements, _⟩, found => ofStatements place declares statements found

def ofOptionalBlock (place : Place) (declares : Bool) : Option Block → Found → Found
  | none, found => found
  | some block, found => ofBlock place declares block found

def ofStatements (place : Place) (declares : Bool) : List Statement → Found → Found
  | [], found => found
  | statement :: rest, found =>
    ofStatements place declares rest (ofStatement place declares statement found)

def ofOptionalStatement (place : Place) (declares : Bool) : Option Statement → Found → Found
  | none, found => found
  | some statement, found => ofStatement place declares statement found

/-- The sites of a statement. In the body of a member, where `declares` holds, local classes are
declared, and the expressions of a statement come before the statements inside it. Elsewhere,
inside expressions, the order is that of the text. -/
def ofStatement (place : Place) (declares : Bool) : Statement → Found → Found
  | .typeDeclaration declaration, found =>
    if declares then
      let number := found.nextLocal place.owner declaration.name
      let key := s!"{place.owner}${number}{declaration.name}"
      ofDeclaration place key (some place.owner) true declaration
        { found with locals := found.locals ++ [(declaration.name, key)] }
    else found
  | .expression expression _, found => ofExpression place expression found
  | .locals _ declarations _, found => ofDeclarators place declarations found
  | .conditional condition yes no _, found =>
    (ofOptionalStatement place declares no
      (ofStatement place declares yes (ofExpression place condition found))).leaving found
  | .while condition body _, found =>
    (ofStatement place declares body (ofExpression place condition found)).leaving found
  | .doWhile body condition _, found =>
    if declares then
      (ofStatement place declares body (ofExpression place condition found)).leaving found
    else ofExpression place condition (ofStatement place declares body found)
  | .for initial condition update body _, found =>
    if declares then
      let own := ofExpressions place update (ofOptionalExpression place condition found)
      (ofStatement place declares body (ofStatements place declares initial own)).leaving found
    else
      let before := ofStatements place declares initial found
      let own := ofExpressions place update (ofOptionalExpression place condition before)
      ofStatement place declares body own
  | .forEach _ iterable body _, found =>
    (ofStatement place declares body (ofExpression place iterable found)).leaving found
  | .switch selector cases _ _, found =>
    let own := ofExpression place selector found
    if declares then
      (ofCaseStatements place cases (ofCaseLabels place cases own)).leaving found
    else ofCases place declares cases own
  | .return value _, found => ofOptionalExpression place value found
  | .yield value _, found | .throw value _, found => ofExpression place value found
  | .try resources body catches finallyBlock _, found =>
    let own := ofBlock place declares body (ofResources place resources found)
    (ofOptionalBlock place declares finallyBlock
      (ofCatches place declares catches own)).leaving found
  | .assert condition message _, found =>
    ofOptionalExpression place message (ofExpression place condition found)
  | .synchronized lock body _, found =>
    (ofBlock place declares body (ofExpression place lock found)).leaving found
  | .labeled _ body _, found => (ofStatement place declares body found).leaving found
  | .block body, found => (ofBlock place declares body found).leaving found
  | .break .., found | .continue .., found | .empty _, found => found

def ofDeclarators (place : Place) : List Declarator → Found → Found
  | [], found => found
  | ⟨_, initializer⟩ :: rest, found =>
    ofDeclarators place rest (ofOptionalExpression place initializer found)

def ofResources (place : Place) : List Resource → Found → Found
  | [], found => found
  | .declared _ initializer _ :: rest, found =>
    ofResources place rest (ofExpression place initializer found)
  | .expression expression _ :: rest, found =>
    ofResources place rest (ofExpression place expression found)

def ofCatches (place : Place) (declares : Bool) : List CatchClause → Found → Found
  | [], found => found
  | ⟨_, _, block, _⟩ :: rest, found =>
    ofCatches place declares rest (ofBlock place declares block found)

def ofCases (place : Place) (declares : Bool) : List SwitchCase → Found → Found
  | [], found => found
  | .group labels statements _ :: rest, found =>
    ofCases place declares rest
      (ofStatements place declares statements (ofLabels place labels found))
  | .valueRule label value _ :: rest, found | .throwRule label value _ _ :: rest, found =>
    ofCases place declares rest (ofExpression place value (ofLabel place label found))
  | .blockRule label block _ :: rest, found =>
    ofCases place declares rest (ofBlock place declares block (ofLabel place label found))

def ofCaseLabels (place : Place) : List SwitchCase → Found → Found
  | [], found => found
  | .group labels _ _ :: rest, found => ofCaseLabels place rest (ofLabels place labels found)
  | .valueRule label value _ :: rest, found | .throwRule label value _ _ :: rest, found =>
    ofCaseLabels place rest (ofExpression place value (ofLabel place label found))
  | .blockRule label _ _ :: rest, found => ofCaseLabels place rest (ofLabel place label found)

def ofCaseStatements (place : Place) : List SwitchCase → Found → Found
  | [], found => found
  | .group _ statements _ :: rest, found =>
    ofCaseStatements place rest (ofStatements place true statements found)
  | .blockRule _ block _ :: rest, found =>
    ofCaseStatements place rest (ofBlock place true block found)
  | .valueRule .. :: rest, found | .throwRule .. :: rest, found =>
    ofCaseStatements place rest found

def ofLabels (place : Place) : List SwitchLabel → Found → Found
  | [], found => found
  | label :: rest, found => ofLabels place rest (ofLabel place label found)

def ofLabel (place : Place) : SwitchLabel → Found → Found
  | ⟨elements, guard, _⟩, found =>
    ofOptionalExpression place guard (ofElements place elements found)

def ofElements (place : Place) : List CaseElement → Found → Found
  | [], found => found
  | .constant value :: rest, found => ofElements place rest (ofExpression place value found)
  | .pattern _ :: rest, found | .null _ :: rest, found | .default _ :: rest, found =>
    ofElements place rest found

end

def ofUnit (found : Found) (file : String) (unit : CompilationUnit) : Found :=
  let place : Place := { file, unit, owner := "", enclosing := [], typeVariables := [] }
  unit.types.foldl (fun found declaration =>
    ofDeclaration place (unit.qualify declaration.name) none false declaration found) found

def ofUnits (units : List (String × CompilationUnit)) : List Site :=
  (units.foldl (fun found (file, unit) => ofUnit found file unit)
    { sites := [], locals := [] }).sites.reverse

end Site

variable (members : List Member)

/-! ### First round: kinds and member types -/

def memberTypeNames : List String :=
  members.filterMap fun member =>
    match member with
    | .type declaration => some declaration.name
    | _ => none

/-- The fields that members declare, with their values. -/
def fieldValues : List (FieldHeader × Option Expression) :=
  members.filterMap fun member =>
    match member with
    | .field header initializer => some (header, initializer)
    | _ => none

def methodHeaders : List MethodHeader :=
  members.filterMap fun member =>
    match member with
    | .method header _ _ => some header
    | _ => none

namespace TypeDeclaration

def hasConstantBodies (declaration : TypeDeclaration) : Bool :=
  declaration.constants.any fun constant => constant.body.isSome

def abstractMethods (declaration : TypeDeclaration) : List MethodHeader :=
  (methodHeaders declaration.members).filter fun header => header.modifiers.contains .abstract

end TypeDeclaration

namespace Site

variable (site : Site) (resolve : WrittenType → Ty)

/-- What the header of a declaration says of its type, its supertypes apart. A class inside an
interface is static without saying so. -/
def outline (inInterface : Bool) : KnownType :=
  let base : KnownType :=
    { key := site.key, kind := site.body.kind, outer := site.outer, isLocal := site.isLocal
      memberTypes := memberTypeNames site.body.members }
  match site.body with
  | .anonymous .. | .constant .. => base
  | .named declaration =>
    let has := declaration.hasModifier
    let named : KnownType :=
      { base with
        typeParameters := declaration.header.shape.typeParameters.map TypeParameter.name
        isDeprecated := isAnnotated declaration.header.annotations "Deprecated"
        isSealed := has .sealed }
    match declaration.kind with
    | .class =>
      { named with
        isFinal := has .final
        isAbstract := has .abstract
        isStatic := site.outer.isNone || has .static || inInterface }
    | .interface | .annotationType => { named with isAbstract := true, isStatic := true }
    | .enum =>
      { named with
        isFinal := !declaration.hasConstantBodies
        isAbstract := declaration.hasConstantBodies && !declaration.abstractMethods.isEmpty
        isStatic := true
        enumConstants := declaration.constants.map fun constant => constant.header.name }
    | .record => { named with isFinal := true, isStatic := true }

/-! ### Second round: supertypes -/

/-- Adds the supertypes of a declaration, whose names are looked for outside it. -/
def addSupertypes (path : ClassPath) (type : KnownType) : KnownType :=
  let scope := site.scope.withVariables type.typeParameters
  let resolve (written : WrittenType) : Ty := ((site.names path).written scope written).type
  match site.body with
  | .constant enumKey _ => { type with superclass := some (.ofKey enumKey) }
  | .anonymous base _ =>
    let super := resolve base
    if (super.key?.bind path.type?).any KnownType.isInterface then
      { type with superclass := some .object, interfaces := [super] }
    else { type with superclass := some super }
  | .named declaration =>
    let permits := declaration.header.shape.permits.filterMap fun written => (resolve written).key?
    match declaration.header.shape with
    | .class _ superclass interfaces _ =>
      { type with
        superclass := some ((superclass.map resolve).getD .object)
        interfaces := interfaces.map resolve
        permits }
    | .interface _ interfaces _ => { type with interfaces := interfaces.map resolve, permits }
    | .enum interfaces _ =>
      { type with
        superclass := some (.class "java.lang.Enum" [.ofKey site.key])
        interfaces := interfaces.map resolve
        permits }
    | .record _ _ interfaces =>
      { type with
        superclass := some (.ofKey "java.lang.Record")
        interfaces := interfaces.map resolve
        permits }
    | .annotationType =>
      { type with interfaces := [.ofKey "java.lang.annotation.Annotation"], permits }

/-! ### Third round: members -/

/-- The names of the fields whose values are constant without the use of names. -/
def plainConstants (inInterface : Bool) : List String :=
  (fieldValues members).filterMap fun (header, value) =>
    if (header.modifiers.contains .final || inInterface) &&
      value.any (Expression.isConstant fun _ => false)
    then some header.name else none

def impliedMethod (owner name : String) (parameters : List Ty) (result : Ty) : KnownMethod :=
  { name, parameters, result, owner }

def declares (name : String) (count : Nat) : Bool :=
  (methodHeaders members).any fun header =>
    header.name == name && header.parameters.length == count

/-- The fields and methods that a type has without declaring them: constants and the methods that
list them in an enum, components and their accessors in a record. -/
def impliedMembers :
    List KnownField × List KnownMethod :=
  match site.body with
  | .anonymous .. | .constant .. => ([], [])
  | .named declaration =>
    let self := Ty.ofKey site.key
    let implied := impliedMethod site.key
    match declaration.header.shape with
    | .enum .. =>
      (declaration.constants.map fun constant =>
        { name := constant.header.name, type := self, isStatic := true, isFinal := true
          isEnumConstant := true
          isDeprecated := isAnnotated constant.header.annotations "Deprecated" },
        [{ implied "values" [] (.array self) with isStatic := true },
          { implied "valueOf" [.string] self with isStatic := true }])
    | .record _ components _ =>
      let fields : List KnownField := components.map fun component =>
        { name := component.name, type := resolve component.effectiveType, isFinal := true
          isPrivate := true }
      let accessors := components.filterMap fun component =>
        if declares declaration.members component.name 0 then none
        else some (implied component.name [] (resolve component.effectiveType))
      let common :=
        [implied "equals" [.object] .boolean, implied "hashCode" [] .int,
          implied "toString" [] .string].filter fun method =>
            !declares declaration.members method.name method.parameters.length
      (fields, accessors ++ common.map fun method => { method with isFinal := true })
    | _ => ([], [])

def declaredField (inInterface : Bool) (constants : List String) (header : FieldHeader)
    (value : Option Expression) : KnownField :=
  let type := resolve header.type
  let isFinal := header.modifiers.contains .final || inInterface
  { name := header.name, type, isFinal
    isStatic := header.modifiers.contains .static || inInterface
    isPrivate := header.modifiers.contains .private
    isConstant := isFinal && (type.isPrimitive || type.isString) &&
      value.any (Expression.isConstant constants.contains)
    isDeprecated := isAnnotated header.annotations "Deprecated" }

def declaredFields (inInterface : Bool) (members : List Member) : List KnownField :=
  let constants := plainConstants members inInterface
  (fieldValues members).map fun (header, value) =>
    declaredField resolve inInterface constants header value

/-- The methods that members declare. A method of an interface without a body is abstract. -/
def declaredMethods (names : UnitNames) (scope : NameScope) (owner : String)
    (inInterface : Bool) (members : List Member) : List KnownMethod :=
  members.filterMap fun member =>
    match member with
    | .method header body _ =>
      let typeParameters := header.typeParameters.map TypeParameter.name
      let resolve (written : WrittenType) : Ty :=
        (names.written (scope.withVariables typeParameters) written).type
      let has := header.modifiers.contains
      some
        { name := header.name
          parameters := header.parameters.map fun parameter => resolve parameter.effectiveType
          variadic := header.isVariadic
          result := (header.returnType.map resolve).getD .void
          typeParameters
          isStatic := has .static
          isAbstract :=
            has .abstract ||
              inInterface && body.isNone && !has .static && !has .private && !has .default
          isFinal := has .final
          isPrivate := has .private
          isDeprecated := isAnnotated header.annotations "Deprecated"
          owner }
    | _ => none

def components (site : Site) : List Parameter :=
  match site.body with
  | .named declaration =>
    match declaration.header.shape with
    | .record _ components _ => components
    | _ => []
  | _ => []

def isRecord : Bool :=
  site.body.kind == .record

/-- The constructors that members declare. A compact constructor has the components of its record
as parameters. -/
def declaredConstructors : List KnownMethod :=
  site.body.members.filterMap fun member =>
    match member with
    | .constructor header _ _ =>
      let parameters := if header.compact then site.components else header.parameters
      some
        { name := KnownMethod.constructorName
          parameters := parameters.map fun parameter => resolve parameter.effectiveType
          variadic := header.parameters.getLast?.any Parameter.variadic
          result := .void
          typeParameters := header.typeParameters.map TypeParameter.name
          isPrivate := header.modifiers.contains .private
          isDeprecated := isAnnotated header.annotations "Deprecated"
          owner := site.key }
    | _ => none

/-- Adds the constructors that a type has without declaring them: that of a record with all its
components, and that of a class which declares none. -/
def addImpliedConstructors (type : KnownType) (resolve : WrittenType → Ty)
    (constructors : List KnownMethod) : List KnownMethod :=
  let implied := impliedMethod site.key KnownMethod.constructorName
  let canonical := site.components.map fun component => resolve component.effectiveType
  let withCanonical :=
    if site.isRecord && !constructors.any (fun other => decide (other.parameters = canonical)) then
      constructors ++ [implied canonical .void]
    else constructors
  if withCanonical.isEmpty && !type.isInterface && site.body.name?.isSome then
    [{ implied [] .void with isPrivate := type.isEnum }]
  else withCanonical

def addMembers (path : ClassPath) (type : KnownType) : KnownType :=
  let names := site.names path
  let scope := (site.scope.inside site.key).withVariables type.typeParameters
  let resolve (written : WrittenType) : Ty := (names.written scope written).type
  let (impliedFields, impliedMethods) := site.impliedMembers resolve
  { type with
    fields := type.fields ++ impliedFields ++
      declaredFields resolve type.isInterface site.body.members
    methods := type.methods ++ impliedMethods ++
      declaredMethods names scope site.key type.isInterface site.body.members
    constructors := site.addImpliedConstructors type resolve
      (type.constructors ++ site.declaredConstructors resolve) }

end Site

/-! ### The table -/

structure DeclaredTypes where
  types : List KnownType
  packages : List String
  sites : List Site

variable (declared : DeclaredTypes)

namespace DeclaredTypes

variable (types : List KnownType)

def classPath : ClassPath where
  type? key := declared.types.find? fun type => type.key == key
  hasPackage package := declared.packages.contains package

def keyAt? (file : String) (offset : Nat) : Option String :=
  (declared.sites.reverse.find? fun site =>
    site.file == file && site.body.offset == offset).map Site.key

def insert (type : KnownType) : List KnownType :=
  if types.any fun other => other.key == type.key then
    types.map fun other => if other.key == type.key then type else other
  else types ++ [type]

def change (site : Site) (update : KnownType → KnownType) :
    List KnownType :=
  types.map fun type => if type.key == site.key then update type else type

def samePackage (first second : String) : Bool :=
  let package (key : String) : String := ((Text.cutLast? '.' key).map Prod.fst).getD ""
  package first == package second

/-- The types that a sealed type permits when it lists none: the declared types of its package
that name it as a supertype. -/
def inferredPermits (key : String) : List String :=
  let near (other : String) : Bool :=
    Text.before '$' other == Text.before '$' key || samePackage other key
  let subtypes := types.filter fun type =>
    near type.key && !type.isLocal &&
      ((type.superclass.toList ++ type.interfaces).any fun super => super.key? == some key)
  (subtypes.map KnownType.key).mergeSort fun first second => !(compare first second).isGT

def addPermits : List KnownType :=
  types.map fun type =>
    if type.isSealed && type.permits.isEmpty then
      { type with permits := inferredPermits types type.key }
    else type

def ofUnits (units : List (String × CompilationUnit)) (platform : ClassPath) : DeclaredTypes :=
  let sites := Site.ofUnits units
  let packages := units.flatMap fun (_, unit) =>
    (unit.packageName?.map fun package => packagesOf s!"{package}.X").getD []
  let pathOf (types : List KnownType) : ClassPath :=
    (DeclaredTypes.classPath { types, packages, sites := [] }).orElse platform
  let outlines := sites.foldl (fun types site =>
    let inInterface := site.outer.any fun outer =>
      (sites.find? fun other => other.key == outer).any fun other =>
        other.body.kind == .interface || other.body.kind == .annotationType
    insert types (site.outline inInterface)) []
  let outlinePath := pathOf outlines
  let withSupertypes := sites.foldl (fun types site =>
    change types site (site.addSupertypes outlinePath)) outlines
  let supertypePath := pathOf withSupertypes
  let complete := sites.foldl (fun types site =>
    change types site (site.addMembers supertypePath)) withSupertypes
  { types := addPermits complete, packages, sites }

end DeclaredTypes

/-- What the check of a unit asks of the declared types. The order of the declarations is not part
of it. -/
structure SourceIndex where
  classPath : ClassPath
  keyAt? : String → Nat → Option String

def DeclaredTypes.index : SourceIndex where
  classPath := declared.classPath
  keyAt? := declared.keyAt?

def SourceIndex.ofUnits (units : List (String × CompilationUnit)) (platform : ClassPath) :
    SourceIndex :=
  (DeclaredTypes.ofUnits units platform).index

end JavaFrontEnd
