/-
What the table of declared types holds for one site, and what the class paths of its rounds have in
common. Where no other site has the key of a site, its entry is made by the three rounds applied to
that site alone. The later rounds fill in members only; in the second round no supertype was known,
but the keys and the member types of each class were.
-/

import JavaFrontEnd.Proofs.Resolution.Names
import JavaFrontEnd.Proofs.SourceOrder

namespace JavaFrontEnd

open List

/-! ### What a declaration says -/

def TypeShape.superclass? : TypeShape → Option WrittenType
  | .class _ superclass _ _ => superclass
  | .interface .. | .enum .. | .annotationType | .record .. => none

def TypeShape.interfaces : TypeShape → List WrittenType
  | .class _ _ interfaces _ => interfaces
  | .interface _ interfaces _ => interfaces
  | .enum interfaces _ => interfaces
  | .record _ _ interfaces => interfaces
  | .annotationType => []

theorem TypeShape.supertypes_eq (shape : TypeShape) :
    shape.supertypes = shape.superclass?.toList ++ shape.interfaces := by
  cases shape <;> rfl

namespace SiteBody

def shape? : SiteBody → Option TypeShape
  | .named declaration => some declaration.header.shape
  | .anonymous .. | .constant .. => none

def typeParameters (body : SiteBody) : List String :=
  (body.shape?.map fun shape => shape.typeParameters.map TypeParameter.name).getD []

def superclass? (body : SiteBody) : Option WrittenType :=
  body.shape?.bind TypeShape.superclass?

def interfaces (body : SiteBody) : List WrittenType :=
  (body.shape?.map TypeShape.interfaces).getD []

end SiteBody

/-! ### The rounds for one site -/

namespace Site

variable (site : Site) (inInterface : Bool) (path : ClassPath) (type : KnownType)

def bodyScope (site : Site) : NameScope :=
  (site.scope.inside site.key).withVariables site.body.typeParameters

theorem typeParameters_outline :
    (site.outline inInterface).typeParameters = site.body.typeParameters := by
  unfold outline SiteBody.typeParameters SiteBody.shape?
  cases site.body with
  | anonymous | constant => rfl
  | named declaration =>
    simp only
    split <;> rfl

theorem members_outline :
    (site.outline inInterface).fields = [] ∧ (site.outline inInterface).methods = [] ∧
      (site.outline inInterface).constructors = [] := by
  unfold outline
  cases site.body with
  | anonymous | constant => exact ⟨rfl, rfl, rfl⟩
  | named declaration =>
    simp only
    split <;> exact ⟨rfl, rfl, rfl⟩

theorem addSupertypes_eq :
    ∃ superclass interfaces permits,
      site.addSupertypes path type = { type with superclass, interfaces, permits } := by
  unfold addSupertypes
  cases site.body with
  | constant => exact ⟨_, _, _, rfl⟩
  | anonymous base body =>
    simp only
    split <;> exact ⟨_, _, _, rfl⟩
  | named declaration =>
    simp only
    split <;> exact ⟨_, _, _, rfl⟩

theorem superclass_addSupertypes {site : Site} {written : WrittenType}
    (isSuperclass : site.body.superclass? = some written) :
    (site.addSupertypes path type).superclass = some ((site.names path).written
      (site.scope.withVariables type.typeParameters) written).type := by
  unfold SiteBody.superclass? SiteBody.shape? at isSuperclass
  unfold addSupertypes
  cases isBody : site.body with
  | anonymous | constant =>
    rw [isBody] at isSuperclass
    cases isSuperclass
  | named declaration =>
    rw [isBody] at isSuperclass
    simp only [Option.bind_some] at isSuperclass ⊢
    cases isShape : declaration.header.shape with
    | «class» _ superclass _ _ =>
      rw [isShape] at isSuperclass
      cases isSuperclass
      rfl
    | interface | enum | annotationType | record =>
      rw [isShape] at isSuperclass
      cases isSuperclass

theorem interfaces_addSupertypes :
    (site.body.interfaces.map fun written => ((site.names path).written
      (site.scope.withVariables type.typeParameters) written).type) <+:
        (site.addSupertypes path type).interfaces := by
  unfold SiteBody.interfaces SiteBody.shape? addSupertypes
  cases site.body with
  | anonymous | constant => exact nil_prefix
  | named declaration =>
    simp only [Option.map_some, Option.getD_some]
    cases declaration.header.shape with
    | annotationType => exact nil_prefix
    | «class» | interface | enum | record => exact prefix_rfl

def known (site : Site) (inInterface : Bool) (outlinePath supertypePath : ClassPath) : KnownType :=
  site.addMembers supertypePath (site.addSupertypes outlinePath (site.outline inInterface))

section Known

variable (site : Site) (inInterface : Bool) (outlinePath supertypePath : ClassPath)

theorem typeParameters_known :
    (site.known inInterface outlinePath supertypePath).typeParameters =
      site.body.typeParameters := by
  obtain ⟨_, _, _, isFilled⟩ := site.addSupertypes_eq outlinePath (site.outline inInterface)
  show (site.addSupertypes outlinePath (site.outline inInterface)).typeParameters = _
  rw [isFilled]
  exact site.typeParameters_outline inInterface

theorem typeParameters_addSupertypes_outline :
    (site.addSupertypes outlinePath (site.outline inInterface)).typeParameters =
      site.body.typeParameters :=
  site.typeParameters_known inInterface outlinePath outlinePath

theorem members_known :
    let resolve := fun written => ((site.names supertypePath).written site.bodyScope written).type
    let type := site.addSupertypes outlinePath (site.outline inInterface)
    (site.known inInterface outlinePath supertypePath).fields = (site.impliedMembers resolve).1 ++
          declaredFields resolve type.isInterface site.body.members ∧
      (site.known inInterface outlinePath supertypePath).methods =
        (site.impliedMembers resolve).2 ++
          declaredMethods (site.names supertypePath) site.bodyScope site.key type.isInterface
            site.body.members ∧
      (site.known inInterface outlinePath supertypePath).constructors =
        site.addImpliedConstructors type resolve (site.declaredConstructors resolve) := by
  have isScope : site.bodyScope = (site.scope.inside site.key).withVariables
      (site.addSupertypes outlinePath (site.outline inInterface)).typeParameters := by
    rw [site.typeParameters_addSupertypes_outline]
    rfl
  obtain ⟨noFields, noMethods, noConstructors⟩ := site.members_outline inInterface
  obtain ⟨_, _, _, isFilled⟩ := site.addSupertypes_eq outlinePath (site.outline inInterface)
  have filledFields : (site.addSupertypes outlinePath (site.outline inInterface)).fields = [] := by
    rw [isFilled]
    exact noFields
  have filledMethods :
      (site.addSupertypes outlinePath (site.outline inInterface)).methods = [] := by
    rw [isFilled]
    exact noMethods
  have filledConstructors :
      (site.addSupertypes outlinePath (site.outline inInterface)).constructors = [] := by
    rw [isFilled]
    exact noConstructors
  rw [isScope]
  unfold known addMembers
  refine ⟨?_, ?_, ?_⟩
  · simp only [filledFields, nil_append]
  · simp only [filledMethods, nil_append]
  · simp only [filledConstructors, nil_append]

end Known

end Site

/-! ### The entries of the table -/

namespace DeclaredTypes

theorem key_skeleton (type : KnownType) : type.skeleton.key = type.key := rfl

/-! ### The class paths of the rounds -/

section Paths

variable (units : List (String × CompilationUnit)) (platform : ClassPath)

/-- The class path of the second round, in which no supertype of a declared type is known. -/
def outlinePath : ClassPath :=
  stagePath (packagesIn units) platform (outlines (Site.ofUnits units))

/-- The class path of the third round, in which no member of a declared type is known. -/
def supertypePath : ClassPath :=
  stagePath (packagesIn units) platform
    (withSupertypes (packagesIn units) platform (Site.ofUnits units))

def fullPath : ClassPath :=
  (ofUnits units platform).classPath.orElse platform

theorem entryAt?_withMembers {site : Site}
    (isSole : ((Site.ofUnits units).filter fun other => other.key == site.key) = [site]) :
    entryAt? (withMembers (packagesIn units) platform (Site.ofUnits units)) site.key =
      some (site.known (isInInterface (Site.ofUnits units) site) (outlinePath units platform)
        (supertypePath units platform)) := by
  have first : entryAt? (outlines (Site.ofUnits units)) site.key =
      some (site.outline (isInInterface (Site.ofUnits units) site)) := by
    unfold outlines
    rw [entryAt?_foldl_insert fun site => Site.key_outline site _, isSole]
    rfl
  have second :
      entryAt? (withSupertypes (packagesIn units) platform (Site.ofUnits units)) site.key =
        some (site.addSupertypes (outlinePath units platform)
          (site.outline (isInInterface (Site.ofUnits units) site))) := by
    unfold withSupertypes
    rw [entryAt?_afterRound fun site => Site.key_addSupertypes site _, isSole, first]
    rfl
  unfold withMembers
  rw [entryAt?_afterRound fun site => Site.key_addMembers site _, isSole, second]
  rfl

theorem type?_ofUnits {site : Site}
    (isSole : ((Site.ofUnits units).filter fun other => other.key == site.key) = [site]) :
    ∃ permits, (ofUnits units platform).classPath.type? site.key =
      some { site.known (isInInterface (Site.ofUnits units) site) (outlinePath units platform)
        (supertypePath units platform) with permits } := by
  have isFinal := entryAt?_addPermits (entryAt?_withMembers units platform isSole)
  split at isFinal <;> exact ⟨_, isFinal⟩

theorem sameSkeletons_fullPath :
    ClassPath.SameSkeletons (supertypePath units platform) (fullPath units platform) := by
  intro key
  have kept : (ofUnits units platform).types.map KnownType.skeleton =
      (withSupertypes (packagesIn units) platform (Site.ofUnits units)).map KnownType.skeleton := by
    rw [ofUnits_eq, map_addPermits _ fun _ _ => rfl]
    unfold withMembers
    rw [map_afterRound]
    exact fun _ _ => rfl
  have sameEntry := congrArg (entryAt? · key) kept
  simp only [entryAt?_map key_skeleton] at sameEntry
  show ((entryAt? (ofUnits units platform).types key).or (platform.type? key)).map _ =
    ((entryAt? (withSupertypes (packagesIn units) platform (Site.ofUnits units)) key).or
      (platform.type? key)).map _
  rw [Option.map_or, Option.map_or, sameEntry]

theorem knows_fullPath (key : String) :
    (fullPath units platform).knows key = (outlinePath units platform).knows key := by
  rw [(sameSkeletons_fullPath units platform).knows_eq]
  show ((entryAt? (withSupertypes (packagesIn units) platform (Site.ofUnits units)) key).or
    (platform.type? key)).isSome = ((entryAt? (outlines (Site.ofUnits units)) key).or
      (platform.type? key)).isSome
  unfold withSupertypes
  rw [Option.isSome_or, Option.isSome_or,
    isSome_entryAt?_afterRound fun site => Site.key_addSupertypes site _]

end Paths

end DeclaredTypes

end JavaFrontEnd
