/-
The class modifiers of enums. A plan takes them from the first round of the table, in which no
supertype is known: abstract methods that an enum inherits make no difference.
-/

import JavaFrontEnd.Proofs.Resolution.Table

namespace JavaFrontEnd

variable {units : List (String × CompilationUnit)} {platform : ClassPath} {site : Site}
  {declaration : TypeDeclaration} {context : UnitContext} {bindings : Bindings}

theorem Site.isAbstract_known (isNamed : site.body = .named declaration)
    (isEnum : declaration.kind = .enum) (inInterface : Bool)
    (outlinePath supertypePath : ClassPath) :
    (site.known inInterface outlinePath supertypePath).isAbstract =
      (declaration.hasConstantBodies && !declaration.abstractMethods.isEmpty) := by
  show (site.addSupertypes outlinePath (site.outline inInterface)).isAbstract = _
  obtain ⟨_, _, _, isFilled⟩ := site.addSupertypes_eq outlinePath (site.outline inInterface)
  rw [isFilled]
  unfold outline
  rw [isNamed]
  dsimp only
  rw [isEnum]

namespace ClassPlan

theorem modifiers_ofDeclaration (key : String) (declaration : TypeDeclaration) :
    (ofDeclaration context bindings key declaration).modifiers =
      modifiersOf declaration (context.path.type? key) := by
  cases declaration with
  | mk header constants members =>
    unfold ofDeclaration ofHeader
    dsimp only
    split
    · unfold addEnumMembers addConstructors
      dsimp only
      split <;> rfl
    · rfl
    · unfold addConstructors
      dsimp only
      split <;> rfl
    · rfl
    · rfl

/-- The modifiers that the abstract methods of its whole hierarchy give an enum, if the hierarchy is
known. -/
def dueModifiers? (path : ClassPath) (key : String) (declaration : TypeDeclaration) :
    Option (List ClassModifier) :=
  (path.unimplemented? key).map fun missing =>
    if !declaration.hasConstantBodies then [.final]
    else if declaration.abstractMethods.isEmpty && missing.isEmpty then []
    else [.abstract]

/-- The plan of an enum is final if no constant has a body. Otherwise it is abstract if the enum
itself declares an abstract method: it falls short of what is due exactly where all methods that are
left to the constants are inherited. -/
theorem modifiers_enum {plan : ClassPlan} {due : List ClassModifier}
    (isPath : context.path = DeclaredTypes.fullPath units platform)
    (isSole : ((Site.ofUnits units).filter fun other => other.key == site.key) = [site])
    (isNamed : site.body = .named declaration) (isEnum : declaration.kind = .enum)
    (isPlan : ofDeclaration context bindings site.key declaration = plan)
    (isDue : dueModifiers? context.path site.key declaration = some due) :
    (plan.modifiers = [.final] ↔ declaration.hasConstantBodies = false) ∧
      (plan.modifiers = [.abstract] ↔
        declaration.hasConstantBodies = true ∧ declaration.abstractMethods ≠ []) ∧
      (plan.modifiers = [] ↔
        declaration.hasConstantBodies = true ∧ declaration.abstractMethods = []) ∧
      (plan.modifiers ≠ due ↔
        declaration.hasConstantBodies = true ∧ declaration.abstractMethods = [] ∧
          context.path.unimplemented? site.key ≠ some []) := by
  obtain ⟨permits, isEntry⟩ := DeclaredTypes.type?_ofUnits units platform isSole
  have isAbstract : (context.path.type? site.key).any KnownType.isAbstract =
      (declaration.hasConstantBodies && !declaration.abstractMethods.isEmpty) := by
    rw [isPath]
    show (((DeclaredTypes.ofUnits units platform).classPath.type? site.key).or
      (platform.type? site.key)).any _ = _
    rw [isEntry]
    exact Site.isAbstract_known isNamed isEnum _ _ (DeclaredTypes.supertypePath units platform)
  obtain ⟨missing, isMissing, rfl⟩ := Option.map_eq_some_iff.mp isDue
  rw [← isPlan, modifiers_ofDeclaration, isMissing]
  unfold modifiersOf
  rw [isEnum, isAbstract]
  cases declaration.hasConstantBodies <;> cases declaration.abstractMethods <;> cases missing <;>
    simp

/-- An enum `E` that leaves the method of an interface `I` to a constant. -/
def inheritingEnum : TypeDeclaration :=
  let span : Span := .point .start
  ⟨⟨[], [], "E", span, .enum [⟨"I", [], false, [], 0, span⟩] false, span⟩,
    [⟨⟨[], [], "A", span, false, span⟩, [], some ⟨[], span⟩⟩], []⟩

def inheritingUnits : List (String × CompilationUnit) :=
  let span : Span := .point .start
  let method : Member := .method ⟨[], [], [], none, "m", span, [], [], span⟩ none none
  let interface : TypeDeclaration :=
    ⟨⟨[], [], "I", span, .interface [] [] [], span⟩, [], [method]⟩
  [("E.java", ⟨none, [], [inheritingEnum, interface], span, #[]⟩)]

/-- Their context, on a platform that knows every type as a class without members. -/
def inheritingContext : UnitContext :=
  let platform : ClassPath := ⟨fun key => some { key, kind := .class }, fun _ => false⟩
  ⟨{}, .ofUnits inheritingUnits platform,
    ⟨none, [], DeclaredTypes.fullPath inheritingUnits platform⟩, "E.java"⟩

theorem modifiers_enum_inheriting :
    dueModifiers? inheritingContext.path "E" inheritingEnum = some [.abstract] ∧
      (ofDeclaration inheritingContext {} "E" inheritingEnum).modifiers = [] := by
  have isDue : dueModifiers? inheritingContext.path "E" inheritingEnum = some [.abstract] := by
    decide +kernel
  let site := (Site.ofUnits inheritingUnits).get ⟨0, by decide⟩
  obtain ⟨-, -, isEmpty, -⟩ :=
    @modifiers_enum inheritingUnits _ site inheritingEnum _ {} _ _ rfl rfl rfl rfl rfl isDue
  exact ⟨isDue, isEmpty.mpr ⟨rfl, rfl⟩⟩

end ClassPlan

end JavaFrontEnd
