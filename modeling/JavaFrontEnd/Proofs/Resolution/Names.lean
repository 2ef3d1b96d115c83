/-
What the resolution of a written type depends on: of a class path, which keys there are and what the
member types of a class are called, and of a scope, what simple names denote there. So a type
denotes the same in two places, with two class paths, if these say the same about the names that are
written in the type.
-/

import JavaFrontEnd.ClassPath.TypeName

namespace JavaFrontEnd

open List

/-! ### Class paths -/

/-- What is known of a type apart from its members and from what it permits. -/
def KnownType.skeleton (type : KnownType) : KnownType :=
  { type with permits := [], fields := [], methods := [], constructors := [] }

namespace ClassPath

def SameSkeletons (path other : ClassPath) : Prop :=
  ∀ key, (other.type? key).map KnownType.skeleton = (path.type? key).map KnownType.skeleton

namespace SameSkeletons

variable {path other : ClassPath}

theorem knows_eq (same : SameSkeletons path other) (key : String) :
    other.knows key = path.knows key := by
  unfold knows
  rw [← Option.isSome_map, same key, Option.isSome_map]

theorem visited_walkFrom (same : SameSkeletons path other) (steps : Nat) (queue : List Ty)
    (seen : List String) (complete : Bool) :
    (other.walkFrom steps queue seen complete).visited.map
        (fun entry => (entry.1.skeleton, entry.2)) =
      (path.walkFrom steps queue seen complete).visited.map
        (fun entry => (entry.1.skeleton, entry.2)) := by
  induction steps generalizing queue seen complete with
  | zero => cases queue <;> rfl
  | succ steps ih =>
    cases queue with
    | nil => rfl
    | cons type queue =>
      cases type with
      | «class» key arguments =>
        unfold walkFrom
        split
        · exact ih ..
        · have sameType := same key
          cases isKnown : path.type? key with
          | none =>
            rw [isKnown, Option.map_none, Option.map_eq_none_iff] at sameType
            rw [sameType]
            exact ih ..
          | some known =>
            rw [isKnown, Option.map_some, Option.map_eq_some_iff] at sameType
            obtain ⟨knownToo, isKnownToo, sameType⟩ := sameType
            rw [isKnownToo]
            have sameSupers : walkedSupertypes knownToo key arguments =
                walkedSupertypes known key arguments := by
              show walkedSupertypes knownToo.skeleton key arguments =
                walkedSupertypes known.skeleton key arguments
              rw [sameType]
            have sameSubstitution : knownToo.substitution arguments =
                known.substitution arguments := by
              show knownToo.skeleton.substitution arguments = known.skeleton.substitution arguments
              rw [sameType]
            simp only [map_cons]
            rw [sameType, sameSupers, sameSubstitution, ih]
      | primitive | void | null | array | «variable» | wildcard | unknown =>
        exact ih ..

theorem memberType?_eq (same : SameSkeletons path other) (owner name : String) :
    other.memberType? owner name = path.memberType? owner name := by
  have bySkeleton : ∀ which : ClassPath, which.memberType? owner name =
      ((which.hierarchy (.ofKey owner)).visited.map
        fun entry => (entry.1.skeleton, entry.2)).findSome? fun entry =>
          if entry.1.memberTypes.contains name then some s!"{entry.1.key}${name}" else none := by
    intro which
    rw [findSome?_map]
    rfl
  rw [bySkeleton, bySkeleton, hierarchy, hierarchy, same.visited_walkFrom]

end SameSkeletons

end ClassPath

/-! ### Names -/

/-- Two views of one unit, with class paths that know the same keys. -/
structure UnitNames.Alike (names others : UnitNames) : Prop where
  package : others.package = names.package
  imports : others.imports = names.imports
  knows : ∀ key, others.path.knows key = names.path.knows key

namespace UnitNames

/-- The member type with a name in the innermost type around a place that has one. -/
def memberAround? (names : UnitNames) (scope : NameScope) (name : String) : Option String :=
  scope.enclosing.reverse.findSome? fun outer => names.path.memberType? outer name

/-- Two views of a unit find the same along a path of names that begins at a type. -/
def SamePath (names others : UnitNames) : Ty → List String → Prop
  | _, [] => True
  | .class key _, segment :: rest =>
    if names.path.knows key then
      others.path.memberType? key segment = names.path.memberType? key segment ∧
        ∀ member ∈ names.path.memberType? key segment, SamePath names others (.ofKey member) rest
    else SamePath names others (.ofKey s!"{key}${segment}") rest
  | _, _ :: _ => True

theorem samePath_nil (names others : UnitNames) (type : Ty) : SamePath names others type [] := by
  cases type <;> trivial

theorem samePath_of_memberType? {names others : UnitNames}
    (same : ∀ key name, others.path.memberType? key name = names.path.memberType? key name)
    (type : Ty) (segments : List String) : SamePath names others type segments := by
  induction segments generalizing type with
  | nil => exact samePath_nil names others type
  | cons segment rest ih =>
    cases type with
    | «class» key arguments =>
      unfold SamePath
      split
      · exact ⟨same key segment, fun _ _ => ih _⟩
      · exact ih _
    | primitive | void | null | array | «variable» | wildcard | unknown => trivial

namespace Alike

variable {names others : UnitNames} {scope other : NameScope}

theorem keyOf?_eq (alike : Alike names others) (dotted : String) :
    others.path.keyOf? dotted = names.path.keyOf? dotted := by
  unfold ClassPath.keyOf?
  rw [funext alike.knows]

theorem imported?_eq (alike : Alike names others) (simple : String) :
    others.imported? simple = names.imported? simple := by
  unfold imported?
  rw [alike.imports]
  simp only [alike.keyOf?_eq]

theorem hasOpaqueImports_eq (alike : Alike names others) :
    others.hasOpaqueImports = names.hasOpaqueImports := by
  unfold hasOpaqueImports
  rw [alike.imports]
  simp only [alike.keyOf?_eq]

theorem importedOnDemand?_eq (alike : Alike names others)
    (same : ∀ owner, others.path.memberType? owner simple = names.path.memberType? owner simple) :
    others.importedOnDemand? simple = names.importedOnDemand? simple := by
  unfold importedOnDemand?
  rw [alike.imports]
  simp only [alike.keyOf?_eq, same]

theorem simple?_eq (alike : Alike names others)
    (sameVariables : other.typeVariables.contains name = scope.typeVariables.contains name)
    (locals : other.locals.reverse.lookup name = scope.locals.reverse.lookup name)
    (around : others.memberAround? other name = names.memberAround? scope name)
    (onDemand : others.importedOnDemand? name = names.importedOnDemand? name) :
    others.simple? other name = names.simple? scope name := by
  have sameQualified : others.qualify name = names.qualify name := by
    unfold qualify
    rw [alike.package]
  unfold memberAround? at around
  unfold simple?
  rw [sameVariables, locals, around, sameQualified, alike.imported?_eq, onDemand,
    funext alike.knows]

theorem memberPath?_eq (alike : Alike names others)
    (samePath : SamePath names others type segments) :
    others.memberPath? type segments = names.memberPath? type segments := by
  induction segments generalizing type with
  | nil => rfl
  | cons segment rest ih =>
    cases type with
    | «class» key arguments =>
      unfold SamePath at samePath
      unfold memberPath?
      rw [alike.knows]
      split at samePath
      next isKnown =>
        rw [if_pos isKnown, if_pos isKnown, samePath.1]
        cases isMember : names.path.memberType? key segment with
        | none => rfl
        | some member => exact ih (samePath.2 member isMember)
      next isUnknown =>
        rw [if_neg isUnknown, if_neg isUnknown]
        exact ih samePath
    | primitive | void | null | array | «variable» | wildcard | unknown => rfl

end Alike

/-- A dotted name is looked for alike: its first segment denotes the same in two scopes, and the
other segments denote the same member types from there. -/
structure SameName (names others : UnitNames) (scope other : NameScope) (dotted : String) :
    Prop where
  simple : ∀ first ∈ (Text.segments dotted).head?,
    others.simple? other first = names.simple? scope first
  path : ∀ first ∈ (Text.segments dotted).head?, ∀ type ∈ names.simple? scope first,
    SamePath names others type (Text.segments dotted).tail

end UnitNames

/-! ### Written types -/

mutual

/-- The names that are written in a type, those of its arguments among them. -/
def WrittenType.dottedNames : WrittenType → List String
  | ⟨name, arguments, _, _, _, _⟩ => name :: TypeArgument.dottedNamesIn arguments

def TypeArgument.dottedNamesIn : List TypeArgument → List String
  | [] => []
  | argument :: rest => argument.dottedNames ++ TypeArgument.dottedNamesIn rest

def TypeArgument.dottedNames : TypeArgument → List String
  | .type type => type.dottedNames
  | .wildcard _ => []
  | .bounded _ bound _ => bound.dottedNames

end

namespace WrittenType

/-- The names from which the look-ups of a type begin: the first segments of those written in it. -/
def leadingNames (written : WrittenType) : List String :=
  written.dottedNames.filterMap fun dotted => (Text.segments dotted).head?

end WrittenType

namespace UnitNames

variable {names others : UnitNames} {scope other : NameScope}

theorem Alike.dotted?_eq (alike : Alike names others)
    (sameName : SameName names others scope other dotted) :
    others.dotted? other dotted = names.dotted? scope dotted := by
  unfold dotted?
  split
  · rfl
  next first rest isSegments =>
    have isFirst : first ∈ (Text.segments dotted).head? := by
      rw [isSegments]
      rfl
    have samePath := sameName.path first isFirst
    rw [isSegments, tail_cons] at samePath
    rw [sameName.simple first isFirst, alike.keyOf?_eq]
    cases isType : names.simple? scope first with
    | none => rfl
    | some type => exact alike.memberPath?_eq (samePath type isType)

mutual

theorem Alike.written_eq (alike : Alike names others) : ∀ written : WrittenType,
    (∀ dotted ∈ written.dottedNames, SameName names others scope other dotted) →
    others.written other written = names.written scope written
  | ⟨name, arguments, _, _, dimensions, span⟩, sameNames => by
    have sameName := sameNames name mem_cons_self
    have sameArguments := alike.writtenArguments_eq arguments fun dotted isIn =>
      sameNames dotted (mem_cons_of_mem _ isIn)
    have sameVar : (decide (name = "var") && arguments.isEmpty &&
          (others.simple? other name).isNone) =
        (decide (name = "var") && arguments.isEmpty && (names.simple? scope name).isNone) := by
      by_cases isVar : name = "var"
      · subst isVar
        rw [sameName.simple "var" (by decide)]
      · rw [decide_eq_false isVar, Bool.false_and, Bool.false_and, Bool.false_and]
    unfold written
    rw [sameVar, alike.dotted?_eq sameName, sameArguments, alike.hasOpaqueImports_eq]

theorem Alike.writtenArguments_eq (alike : Alike names others) : ∀ arguments : List TypeArgument,
    (∀ dotted ∈ TypeArgument.dottedNamesIn arguments, SameName names others scope other dotted) →
    others.writtenArguments other arguments = names.writtenArguments scope arguments
  | [], _ => rfl
  | argument :: rest, sameNames => by
    have sameFirst := alike.writtenArgument_eq argument fun dotted isIn =>
      sameNames dotted (mem_append_left _ isIn)
    have sameRest := alike.writtenArguments_eq rest fun dotted isIn =>
      sameNames dotted (mem_append_right _ isIn)
    unfold writtenArguments
    rw [sameFirst, sameRest]

theorem Alike.writtenArgument_eq (alike : Alike names others) : ∀ argument : TypeArgument,
    (∀ dotted ∈ argument.dottedNames, SameName names others scope other dotted) →
    others.writtenArgument other argument = names.writtenArgument scope argument
  | .type type, sameNames => alike.written_eq type sameNames
  | .wildcard _, _ => rfl
  | .bounded _ bound _, sameNames => by
    unfold writtenArgument
    rw [alike.written_eq bound sameNames]

end

theorem Alike.written_eq_of_leadingNames (alike : Alike names others) {written : WrittenType}
    (leading : ∀ name ∈ written.leadingNames, others.simple? other name = names.simple? scope name)
    (same : ∀ key name, others.path.memberType? key name = names.path.memberType? key name) :
    others.written other written = names.written scope written :=
  alike.written_eq written fun dotted isIn =>
    { simple := fun first isFirst => leading first (mem_filterMap.mpr ⟨dotted, isIn, isFirst⟩)
      path := fun _ _ type _ => samePath_of_memberType? same type _ }

theorem type_effectiveType (names : UnitNames) (scope : NameScope) (parameter : Parameter) :
    (names.written scope parameter.effectiveType).type =
      if parameter.variadic then .array (names.written scope parameter.type).type
      else (names.written scope parameter.type).type := by
  unfold Parameter.effectiveType
  split
  · cases parameter.type
    rfl
  · rfl

theorem written_withVariables (names : UnitNames) (scope : NameScope) {written : WrittenType}
    (areOther : ∀ name ∈ written.leadingNames, name ∉ added) :
    names.written (scope.withVariables added) written = names.written scope written := by
  have alike : Alike names names := ⟨rfl, rfl, fun _ => rfl⟩
  refine alike.written_eq_of_leadingNames (fun name isLeading => ?_) fun _ _ => rfl
  refine alike.simple?_eq ?_ rfl rfl rfl
  have isOther : added.contains name = false := by
    simpa using areOther name isLeading
  show (scope.typeVariables ++ added).contains name = _
  rw [contains_append, isOther, Bool.or_false]

end UnitNames

end JavaFrontEnd
