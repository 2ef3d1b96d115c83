/-
The supertypes of a type, and what is inherited from them. Hierarchies may be cyclic or reach types
that are not known, so every walk counts its steps and says whether it has seen everything.
-/

import JavaFrontEnd.Tree
import JavaFrontEnd.Types.Basic

namespace JavaFrontEnd

/-! What is known of types, and the class path through which every type is looked up. A class path
is a question answered by key; what it does not answer is unknown. -/

structure KnownField where
  name : String
  type : Ty
  isStatic : Bool := false
  isFinal : Bool := false
  isPrivate : Bool := false
  /-- A constant variable: final, with a constant expression as its initial value. -/
  isConstant : Bool := false
  isEnumConstant : Bool := false
  isDeprecated : Bool := false
  deriving Repr

structure KnownMethod where
  name : String
  parameters : List Ty
  /-- The last parameter, an array, takes any number of arguments. -/
  variadic : Bool := false
  result : Ty
  typeParameters : List String := []
  isStatic : Bool := false
  isAbstract : Bool := false
  isFinal : Bool := false
  isPrivate : Bool := false
  isDeprecated : Bool := false
  owner : String
  deriving DecidableEq, Repr

structure KnownType where
  key : String
  kind : TypeKind
  isFinal : Bool := false
  isAbstract : Bool := false
  isSealed : Bool := false
  isStatic : Bool := false
  isDeprecated : Bool := false
  isLocal : Bool := false
  typeParameters : List String := []
  superclass : Option Ty := none
  interfaces : List Ty := []
  permits : List String := []
  fields : List KnownField := []
  methods : List KnownMethod := []
  constructors : List KnownMethod := []
  enumConstants : List String := []
  memberTypes : List String := []
  outer : Option String := none
  deriving Repr

namespace KnownMethod

def constructorName : String := "<init>"

def erasedParameters (method : KnownMethod) : List Ty :=
  method.parameters.map Ty.erasure

def sameErasure (first second : KnownMethod) : Bool :=
  first.name == second.name && decide (first.erasedParameters = second.erasedParameters)

def signature (method : KnownMethod) : String :=
  s!"{method.name}({Ty.displayList method.parameters})"

def substitute (substitution : Ty.Substitution) (method : KnownMethod) : KnownMethod :=
  { method with
    parameters := method.parameters.map (Ty.substitute substitution)
    result := method.result.substitute substitution }

end KnownMethod

namespace KnownType

variable (type : KnownType)

def isInterface : Bool :=
  type.kind == .interface || type.kind == .annotationType

def isEnum : Bool :=
  type.kind == .enum

def simpleName : String :=
  Ty.simpleName type.key

def thisType : Ty :=
  .class type.key (type.typeParameters.map Ty.variable)

def genericDisplay : String :=
  if type.typeParameters.isEmpty then type.simpleName
  else type.simpleName ++ "<" ++ String.intercalate "," type.typeParameters ++ ">"

def field? (name : String) : Option KnownField :=
  type.fields.find? fun field => field.name == name

def methodsNamed (name : String) : List KnownMethod :=
  type.methods.filter fun method => method.name == name

def isRaw (arguments : List Ty) : Bool :=
  arguments.isEmpty && !type.typeParameters.isEmpty

/-- What the type parameters stand for in a use of the type with arguments. In a raw use they
stand for the class of all objects. -/
def substitution (arguments : List Ty) : Ty.Substitution :=
  if type.isRaw arguments then type.typeParameters.map fun name => (name, Ty.object)
  else .of type.typeParameters arguments

end KnownType

structure ClassPath where
  type? : String → Option KnownType
  hasPackage : String → Bool

namespace ClassPath

def knows (path : ClassPath) (key : String) : Bool :=
  (path.type? key).isSome

def orElse (first second : ClassPath) : ClassPath where
  type? key := (first.type? key).or (second.type? key)
  hasPackage package := first.hasPackage package || second.hasPackage package

end ClassPath

/-- The packages around the package of a key, outermost first, and that package itself. -/
def packagesOf (key : String) : List String :=
  match Text.cutLast? '.' key with
  | none => []
  | some (package, _) =>
    (Text.segments package).foldl (fun outer segment =>
      match outer.getLast? with
      | none | some "" => outer ++ [segment]
      | some around => outer ++ [s!"{around}.{segment}"]) []

/-- A dotted name with dollar signs in place of its last dots, for every number of them from one
to all. -/
def nestedReadings (dotted : String) : List String :=
  let segments := Text.segments dotted
  (List.range (segments.length - 1)).map fun count =>
    let cut := segments.length - 1 - count
    String.intercalate "." (segments.take cut) ++
      String.join ((segments.drop cut).map fun segment => "$" ++ segment)

/-- The key of the type that a dotted name denotes. The last segments may be nested types. -/
def ClassPath.keyOf? (path : ClassPath) (dotted : String) : Option String :=
  (dotted :: nestedReadings dotted).find? path.knows

/-- The number of steps after which a walk over a hierarchy gives up. -/
def hierarchySteps : Nat := 10000

namespace ClassPath

/-- The direct supertypes of the type of a key, if it is known: the superclass and the interfaces.
A type that names none extends the class of all objects. -/
def directSupertypes? (path : ClassPath) (key : String) (arguments : List Ty) :
    Option (List Ty) :=
  (path.type? key).map fun type =>
    match type.superclass.toList ++ type.interfaces with
    | [] => if key = "java.lang.Object" then [] else [Ty.object]
    | named => named.map (Ty.substitute (.of type.typeParameters arguments))

/-! ### Subclasses -/

/-- Searches the supertypes of the keys of a stack for a target. The search is decided only when
it found the target or has seen every supertype. -/
def searchSupertypes (path : ClassPath) (target : String) :
    Nat → List String → List String → Bool → Option Bool
  | _, [], _, complete => if complete then some false else none
  | 0, _ :: _, _, _ => none
  | steps + 1, key :: stack, seen, complete =>
    if seen.contains key then path.searchSupertypes target steps stack seen complete
    else match path.directSupertypes? key [] with
      | none => path.searchSupertypes target steps stack (key :: seen) false
      | some supertypes =>
        let keys := supertypes.filterMap Ty.key?
        if keys.contains target then some true
        else path.searchSupertypes target steps (keys.reverse ++ stack) (key :: seen) complete

/-- The first class is the second or one of its subclasses; undecided when the search reaches a
type that is not known. -/
def isSubclass (path : ClassPath) (sub super : String) : Option Bool :=
  if sub = super || super = "java.lang.Object" then some true
  else path.searchSupertypes super hierarchySteps [sub] [] true

/-- No class has this key, so that a search for it sees the whole hierarchy. -/
def nobody : String := "\x00"

def isHierarchyKnown (path : ClassPath) (key : String) : Bool :=
  (path.isSubclass key nobody).isSome

/-! ### Views -/

def searchView (path : ClassPath) (target : String) : Nat → List Ty → Option Ty
  | _, [] => none
  | 0, _ :: _ => none
  | steps + 1, .class key arguments :: stack =>
    if key = target then some (.class key arguments)
    else match path.directSupertypes? key arguments with
      | none => path.searchView target steps stack
      | some supertypes => path.searchView target steps (supertypes.reverse ++ stack)
  | steps + 1, _ :: stack => path.searchView target steps stack

/-- The class of a key among the supertypes of a type, with the arguments that the hierarchy
gives it. -/
def view? (path : ClassPath) (type : Ty) (target : String) : Option Ty :=
  path.searchView target hierarchySteps [type]

/-! ### Walking -/

/-- The supertypes of a use of a type, as a walk meets them. A raw use has raw supertypes. -/
def walkedSupertypes (type : KnownType) (key : String) (arguments : List Ty) : List Ty :=
  let seen (super : Ty) : Ty :=
    if type.isRaw arguments then super.erasure
    else super.substitute (type.substitution arguments)
  type.superclass.toList.map seen ++ type.interfaces.map seen ++
    if type.superclass.isNone && key != "java.lang.Object" then [Ty.object] else []

structure Walk where
  visited : List (KnownType × Ty.Substitution)
  complete : Bool
  ended : Bool

def walkFrom (path : ClassPath) : Nat → List Ty → List String → Bool → Walk
  | _, [], _, complete => ⟨[], complete, true⟩
  | 0, _ :: _, _, _ => ⟨[], false, false⟩
  | steps + 1, .class key arguments :: queue, seen, complete =>
    if seen.contains key then path.walkFrom steps queue seen complete
    else match path.type? key with
      | none => path.walkFrom steps queue (key :: seen) false
      | some type =>
        let rest := path.walkFrom steps (queue ++ walkedSupertypes type key arguments)
          (key :: seen) complete
        { rest with visited := (type, type.substitution arguments) :: rest.visited }
  | steps + 1, _ :: queue, seen, complete => path.walkFrom steps queue seen complete

def hierarchy (path : ClassPath) (type : Ty) : Walk :=
  path.walkFrom hierarchySteps [type] [] true

/-! ### Members -/

structure FoundField where
  owner : KnownType
  field : KnownField
  type : Ty

def findField? (path : ClassPath) (type : Ty) (name : String) : Option FoundField :=
  (path.hierarchy type).visited.findSome? fun (owner, substitution) =>
    (owner.field? name).map fun field =>
      { owner, field, type := field.type.substitute substitution }

def memberType? (path : ClassPath) (owner name : String) : Option String :=
  (path.hierarchy (.ofKey owner)).visited.findSome? fun (type, _) =>
    if type.memberTypes.contains name then some s!"{type.key}${name}" else none

def addMethods (collected methods : List KnownMethod) : List KnownMethod :=
  methods.foldl (fun all method =>
    if all.any fun other => other.sameErasure method then all else all ++ [method]) collected

/-- The methods of a name that a type has: its own first, then those that it inherits and does
not override. The second part tells whether the hierarchy is known. -/
def findMethods (path : ClassPath) (type : Ty) (name : String) : List KnownMethod × Bool :=
  let walk := path.hierarchy type
  (walk.visited.foldl (fun all (owner, substitution) =>
    addMethods all ((owner.methodsNamed name).map (KnownMethod.substitute substitution))) [],
    walk.complete)

/-! ### Abstract methods without an implementation -/

/-- The keys of the nearest concrete class above a type and of everything above that: they
implement whatever they declare. -/
def coveredKeys (path : ClassPath) : Nat → Option Ty → List String
  | steps, some (.class key _) =>
    match path.type? key with
    | none => []
    | some type =>
      let above := (path.hierarchy (.ofKey key)).visited.map fun (known, _) => known.key
      if type.isAbstract then
        match steps with
        | 0 => above
        | steps + 1 => path.coveredKeys steps type.superclass
      else above
  | _, _ => []

/-- A concrete method implements an abstract one whose parameters mention type variables, where
it may have any types. -/
def implementsLoosely (concrete required : KnownMethod) : Bool :=
  concrete.name == required.name &&
    concrete.parameters.length == required.parameters.length &&
    (concrete.parameters.zip required.parameters).all fun (first, second) =>
      decide (first.erasure = second.erasure) || second.mentionsVariable

/-- The abstract methods of a type's hierarchy that no class in it implements, if the hierarchy is
known. -/
def unimplemented? (path : ClassPath) (key : String) : Option (List KnownMethod) :=
  let walk := path.hierarchy (.ofKey key)
  let methods := walk.visited.flatMap fun (owner, substitution) =>
    (owner.methods.filter fun method => !method.isStatic && !method.isPrivate).map fun method =>
      { method with parameters := method.parameters.map (Ty.substitute substitution) }
  let concrete := methods.filter fun method => !method.isAbstract
  if walk.complete then
    let covered := path.coveredKeys hierarchySteps ((path.type? key).bind KnownType.superclass)
    let required := methods.filter fun method =>
      method.isAbstract && !covered.contains method.owner
    some (required.foldl (fun missing method =>
      if concrete.any fun other => other.sameErasure method || implementsLoosely other method then
        missing
      else if missing.any fun other => other.sameErasure method then missing
      else missing ++ [method]) [])
  else none

end ClassPath

end JavaFrontEnd
