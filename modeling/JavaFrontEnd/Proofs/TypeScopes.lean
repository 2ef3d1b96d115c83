/-
The scopes of types that the walk which binds names makes. It makes one for each class that stands
in the unit, and makes up the keys of those that the list of classes marks as not keyed.
-/

import JavaFrontEnd.Proofs.Resolution.Walk

namespace JavaFrontEnd

open List

open Binder (IsKeyOf)

theorem forall₂_typeKeys_bind (context : UnitContext) (unit : CompilationUnit) :
    Forall₂ (IsKeyOf context) (Visit.ofUnit unit) (unit.bind context).1.tree.typeKeys := by
  let walks : Comparison := { context, unit, loose := unit.looseClasses, sole := fun _ => True }
  have covers := Binder.covers_topTypes walks "" (Subset.refl _)
  obtain ⟨keys, grown, listed⟩ := covers.opens.exists_keys
    { bindings := { tree := ScopeTree.push {} .unit none } }
  have made : (unit.bind context).1.tree.typeKeys = keys := grown
  rwa [made]

/-! ### Which classes have a key -/

section Keys

variable {units : List (String × CompilationUnit)} {platform : ClassPath} {context : UnitContext}
  {unit : CompilationUnit} (isDeclared : context.declared = .ofUnits units platform)
include isDeclared

theorem keyAt?_isSome_iff (offset : Nat) :
    (context.keyAt? offset).isSome ↔
      ∃ unit node, (context.file, unit) ∈ units ∧ ⟨node, true⟩ ∈ Visit.ofUnit unit ∧
        node.offset = offset := by
  rw [UnitContext.keyAt?, isDeclared]
  exact (DeclaredTypes.keyAt?_ofUnits units platform context.file offset).1

theorem type?_isSome_of_keyAt? {offset : Nat} {key : String}
    (found : context.keyAt? offset = some key) :
    (context.declared.classPath.type? key).isSome := by
  rw [UnitContext.keyAt?, isDeclared] at found
  rw [isDeclared]
  exact (DeclaredTypes.keyAt?_ofUnits units platform context.file offset).2 key found

theorem keyAt?_isSome_eq_isKeyed (isListed : (context.file, unit) ∈ units)
    (isAlone : ∀ other, (context.file, other) ∈ units → other = unit)
    (distinct : ((Visit.ofUnit unit).map fun visit => visit.node.offset).Nodup)
    {visit : Visit} (member : visit ∈ Visit.ofUnit unit) :
    (context.keyAt? visit.node.offset).isSome = visit.isKeyed := by
  rw [Bool.eq_iff_iff, keyAt?_isSome_iff isDeclared]
  constructor
  · rintro ⟨other, node, otherListed, keyed, sameOffset⟩
    obtain rfl := isAlone other otherListed
    have same := inj_on_of_nodup_map distinct keyed member sameOffset
    rw [← same]
  · intro isKeyed
    obtain ⟨node, _⟩ := visit
    obtain rfl := isKeyed
    exact ⟨unit, node, isListed, member, rfl⟩

end Keys

/-- The walk that binds the names of a unit makes a scope for each class that stands in the unit,
in the order of the list of classes. Where the list says that a class is keyed, a key is registered
for the offset of the class, it leads to a declared type, and no key is made up. As classes stand
at different offsets, no key is registered for the other classes: there a key is made up. -/
theorem bind_classKeys (units : List (String × CompilationUnit)) (platform : ClassPath)
    (context : UnitContext) (unit : CompilationUnit)
    (isDeclared : context.declared = .ofUnits units platform)
    (isListed : (context.file, unit) ∈ units) :
    List.Forall₂ (IsKeyOf context) (Visit.ofUnit unit) (unit.bind context).1.tree.typeKeys ∧
    (∀ visit ∈ Visit.ofUnit unit, visit.isKeyed →
      ∃ key, context.keyAt? visit.node.offset = some key ∧
        (context.declared.classPath.type? key).isSome ∧
        ∀ substitute, context.keyAt visit.node.offset substitute = key) ∧
    ((∀ other, (context.file, other) ∈ units → other = unit) →
      ((Visit.ofUnit unit).map fun visit => visit.node.offset).Nodup →
      ∀ visit ∈ Visit.ofUnit unit,
        (context.keyAt? visit.node.offset).isSome = visit.isKeyed ∧
        (visit.isKeyed = false →
          ∀ substitute, context.keyAt visit.node.offset substitute = substitute)) := by
  refine ⟨forall₂_typeKeys_bind context unit, ?_, ?_⟩
  · rintro ⟨node, _⟩ member rfl
    have registered := (keyAt?_isSome_iff isDeclared node.offset).mpr
      ⟨unit, node, isListed, member, rfl⟩
    obtain ⟨key, found⟩ := Option.isSome_iff_exists.mp registered
    exact ⟨key, found, type?_isSome_of_keyAt? isDeclared found,
      UnitContext.keyAt_of_keyAt? found⟩
  · intro isAlone distinct visit member
    have registered := keyAt?_isSome_eq_isKeyed isDeclared isListed isAlone distinct member
    refine ⟨registered, fun isUnkeyed substitute => ?_⟩
    rw [isUnkeyed, Option.isSome_eq_false_iff, Option.isNone_iff_eq_none] at registered
    rw [UnitContext.keyAt, registered, Option.getD_none]

def plainClass (name : String) (offset : Nat) (members : List Member) : TypeDeclaration :=
  let nameSpan : Span := ⟨⟨1, offset + 1, offset⟩, ⟨1, offset + 2, offset + 1⟩⟩
  ⟨{ modifiers := [], annotations := [], name, nameSpan, shape := .class [] none [] []
     span := nameSpan }, [], members⟩

def classAroundLambda : TypeDeclaration :=
  let span : Span := ⟨.start, .start⟩
  let header : FieldHeader :=
    { modifiers := [], annotations := [], type := ⟨"Runnable", [], false, [], 0, span⟩, name := "r"
      nameSpan := span, span }
  let body : Block := ⟨[.typeDeclaration (plainClass "L" 37 [])], span⟩
  plainClass "A" 6 [.field header (some (.blockLambda [] body span))]

def lambdaUnit : CompilationUnit :=
  { package := none, imports := [], types := [classAroundLambda], span := ⟨.start, .start⟩
    annotationArguments := #[] }

def lambdaContext : UnitContext :=
  let platform : ClassPath := ⟨fun _ => none, fun _ => false⟩
  { configuration := {}, declared := .ofUnits [("A.java", lambdaUnit)] platform
    names := ⟨none, [], platform⟩, file := "A.java" }

/-- The walk that binds names makes a scope for the class in the lambda too, but only the class
around it has a key. -/
theorem bind_classKeys_lambda :
    (lambdaUnit.bind lambdaContext).1.tree.typeKeys.length = 2 ∧
    (∃ key, lambdaContext.keyAt? 6 = some key ∧
      (lambdaContext.declared.classPath.type? key).isSome) ∧
    lambdaContext.keyAt? 37 = none ∧
    ∀ substitute, lambdaContext.keyAt 37 substitute = substitute := by
  have classes : Visit.ofUnit lambdaUnit =
      [⟨.declaration classAroundLambda, true⟩, ⟨.declaration (plainClass "L" 37 []), false⟩] := rfl
  have isAlone : ∀ other, ("A.java", other) ∈ [("A.java", lambdaUnit)] → other = lambdaUnit := by
    intro other member
    exact congrArg Prod.snd (mem_singleton.mp member)
  obtain ⟨scopes, keyed, exactly⟩ := bind_classKeys [("A.java", lambdaUnit)] _ lambdaContext
    lambdaUnit rfl (mem_singleton.mpr rfl)
  obtain ⟨key, found, known, _⟩ := keyed _ (mem_cons_self ..) rfl
  obtain ⟨registered, madeUp⟩ := exactly isAlone (by decide) _
    (mem_cons_of_mem _ (mem_singleton.mpr rfl))
  exact ⟨scopes.length_eq.symm, ⟨key, found, known⟩,
    Option.isNone_iff_eq_none.mp (Option.isSome_eq_false_iff.mp registered), madeUp rfl⟩

end JavaFrontEnd
