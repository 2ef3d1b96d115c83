/-
What a type name denotes at a place in a unit. Names are looked for from the inside out: type
variables, local classes, member types of the enclosing types, single imports, the package,
imports on demand, and last the types that need no import.
-/

import JavaFrontEnd.Platform

namespace JavaFrontEnd

structure NameScope where
  enclosing : List String := []
  typeVariables : List String := []
  locals : List (String × String) := []

namespace NameScope

def innermost? (scope : NameScope) : Option String :=
  scope.enclosing.getLast?

def inside (scope : NameScope) (key : String) : NameScope :=
  { scope with enclosing := scope.enclosing ++ [key] }

def withVariables (scope : NameScope) (names : List String) : NameScope :=
  { scope with typeVariables := scope.typeVariables ++ names }

end NameScope

structure UnitNames where
  package : Option String
  imports : List ImportDeclaration
  path : ClassPath

/-- A type, and the names in it that denote nothing, with the places where they are written. -/
structure ResolvedType where
  type : Ty
  unresolved : List (String × Span) := []

namespace UnitNames

variable (names : UnitNames)

def ofUnit (unit : CompilationUnit) (path : ClassPath) : UnitNames :=
  { package := unit.packageName?, imports := unit.imports, path }

/-- Some import on demand makes names known that cannot be listed. A simple name that denotes
nothing is not reported then. -/
def hasOpaqueImports : Bool :=
  names.imports.any fun declaration =>
    declaration.wildcard &&
      if declaration.static then (names.path.keyOf? declaration.name).isNone
      else Platform.ownsName declaration.name

def qualify (simple : String) : String :=
  match names.package with
  | some package => s!"{package}.{simple}"
  | none => simple

/-- The type that the single imports give a simple name. A type that is not known is taken to
exist, unless the import is static and may import something else. -/
def imported? (simple : String) : Option Ty :=
  names.imports.findSome? fun declaration =>
    if !declaration.wildcard && declaration.simpleName == simple then
      match names.path.keyOf? declaration.name with
      | some key => some (.ofKey key)
      | none => if declaration.static then none else some (.ofKey declaration.name)
    else none

def importedOnDemand? (simple : String) : Option Ty :=
  names.imports.findSome? fun declaration =>
    if !declaration.wildcard then none
    else if declaration.static then do
      let owner ← names.path.keyOf? declaration.name
      let key ← names.path.memberType? owner simple
      some (.ofKey key)
    else (names.path.keyOf? s!"{declaration.name}.{simple}").map Ty.ofKey

def simple? (scope : NameScope) (name : String) : Option Ty :=
  if scope.typeVariables.contains name then some (.variable name)
  else match scope.locals.reverse.lookup name with
    | some key => some (.ofKey key)
    | none =>
      let member := scope.enclosing.reverse.findSome? fun outer =>
        names.path.memberType? outer name
      let inPackage := names.qualify name
      let implicit := s!"java.lang.{name}"
      (member.map Ty.ofKey).or <|
        (names.imported? name).or <|
          (if names.path.knows inPackage then some (.ofKey inPackage) else none).or <|
            (names.importedOnDemand? name).or <|
              if names.path.knows implicit || Platform.implicitTypes.contains name then
                some (.ofKey implicit)
              else none

/-- The member type at the end of a path of names that begins at a type. Below a type that is not
known every name is taken to exist. -/
def memberPath? (names : UnitNames) : Ty → List String → Option Ty
  | type, [] => some type
  | .class key _, segment :: rest =>
    if names.path.knows key then
      (names.path.memberType? key segment).bind fun member =>
        names.memberPath? (.ofKey member) rest
    else names.memberPath? (.ofKey s!"{key}${segment}") rest
  | _, _ :: _ => none

def dotted? (scope : NameScope) (name : String) : Option Ty :=
  match Text.segments name with
  | [] => none
  | first :: rest =>
    match names.simple? scope first with
    | some type => names.memberPath? type rest
    | none =>
      if rest.isEmpty then none
      else match names.path.keyOf? name with
        | some key => some (.ofKey key)
        | none => if Platform.ownsName name then some (.ofKey name) else none

mutual

def written (names : UnitNames) (scope : NameScope) : WrittenType → ResolvedType
  | ⟨name, arguments, _, _, dimensions, span⟩ =>
    let base : ResolvedType :=
      if name = "void" then { type := .void }
      else match Primitive.ofName? name with
        | some kind => { type := .primitive kind }
        | none =>
          if name = "var" && arguments.isEmpty && (names.simple? scope name).isNone then
            { type := .unknown }
          else match names.dotted? scope name with
            | some (.class key _) =>
              let (types, unresolved) := names.writtenArguments scope arguments
              { type := .class key types, unresolved }
            | some other => { type := other }
            | none =>
              { type := .unknown
                unresolved := if names.hasOpaqueImports then [] else [(name, span)] }
    { base with type := Ty.arrayOf base.type dimensions }

def writtenArguments (names : UnitNames) (scope : NameScope) :
    List TypeArgument → List Ty × List (String × Span)
  | [] => ([], [])
  | argument :: rest =>
    let first := names.writtenArgument scope argument
    let (types, unresolved) := names.writtenArguments scope rest
    (first.type :: types, first.unresolved ++ unresolved)

def writtenArgument (names : UnitNames) (scope : NameScope) : TypeArgument → ResolvedType
  | .type type => names.written scope type
  | .wildcard _ => { type := .wildcard }
  | .bounded _ bound _ => { names.written scope bound with type := .wildcard }

end

end UnitNames

/-! Members made known by static imports. A static import names a member of a type, or with a star
all of them. -/

namespace ImportDeclaration

def staticOwner? (declaration : ImportDeclaration) (member : String) : Option String :=
  if !declaration.static then none
  else if declaration.wildcard then some declaration.name
  else if declaration.simpleName == member then (Text.cutLast? '.' declaration.name).map Prod.fst
  else none

/-- A static import names a member and no type that could have it. -/
def lacksOwner (declaration : ImportDeclaration) (member : String) : Bool :=
  declaration.static && !declaration.wildcard && declaration.simpleName == member &&
    (Text.cutLast? '.' declaration.name).isNone

end ImportDeclaration

namespace UnitNames

variable (names : UnitNames)

/-- The keys of the known types from which a member is imported, in the order of the imports. The
search ends at an import of the member that lacks a type. -/
def staticOwners (member : String) : List String :=
  let searched := names.imports.takeWhile fun declaration => !declaration.lacksOwner member
  let owners := searched.filterMap fun declaration => declaration.staticOwner? member
  owners.filterMap names.path.keyOf?

def staticField? (name : String) : Option ClassPath.FoundField :=
  (names.staticOwners name).findSome? fun owner =>
    (names.path.findField? (.ofKey owner) name).filter fun found => found.field.isStatic

def staticMethods? (name : String) : Option (Ty × List KnownMethod) :=
  (names.staticOwners name).findSome? fun owner =>
    let methods := (names.path.findMethods (.ofKey owner) name).1.filter KnownMethod.isStatic
    if methods.isEmpty then none else some (.ofKey owner, methods)

/-- A static import may make a member known that cannot be looked up: its type is not known, or
belongs to the platform, of which only a part is known. -/
def mayImport (member : String) : Bool :=
  names.imports.any fun declaration =>
    (declaration.staticOwner? member).any fun owner =>
      Platform.ownsName owner || (names.path.keyOf? owner).isNone

end UnitNames

end JavaFrontEnd
