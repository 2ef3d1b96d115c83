/-
What is on record about the types that are written in a unit, once its names are bound. A written
type is recorded by the offset at which it begins, the latest one first, so that the last one that
was resolved at an offset counts. Declarators that share a type share its offset too.
-/

import JavaFrontEnd.Proofs.TypeScopes

namespace JavaFrontEnd

open List

theorem lookup_entries (context : UnitContext) (offset : Nat)
    (uses : List (NameScope × WrittenType)) : (uses.map context.entry).lookup offset =
      (uses.find? fun use => offset == use.2.span.start.offset).map context.denoted := by
  induction uses with
  | nil => rfl
  | cons use rest ih =>
    rw [map_cons, find?_cons, UnitContext.entry, lookup_cons]
    cases offset == use.2.span.start.offset with
    | true => rfl
    | false => exact ih

/-- All that is recorded of written types comes from resolving them: each adds what it denotes where
it stands. Afterwards a written type counts for what it denotes itself, unless one at the same
offset was resolved later: then it counts for what the last of these denotes. -/
theorem typeOf_bind (context : UnitContext) (unit : CompilationUnit) :
    (∀ place checksRaw written state,
      ((Binder.bindTypeChecked context place checksRaw written).run state).2.bindings.writtenTypes =
        context.entry (place.nameScope state.locals, written) :: state.bindings.writtenTypes) ∧
    ∃ uses : List (NameScope × WrittenType),
      (unit.bind context).1.writtenTypes = uses.map context.entry ∧
      ∀ later use earlier, uses = later ++ use :: earlier →
        ((unit.bind context).1.typeOf use.2 = context.denoted use ↔
          ∀ latest ∈ later.find? fun other =>
              use.2.span.start.offset == other.2.span.start.offset,
            context.denoted latest = context.denoted use) := by
  refine ⟨fun place => Binder.writtenTypes_bindTypeChecked place, ?_⟩
  let walks : Comparison := { context, unit, loose := unit.looseClasses, sole := fun _ => True }
  obtain ⟨uses, isTable⟩ := (Binder.covers_topTypes walks "" (Subset.refl _)).writtenTypes
    { bindings := { tree := ScopeTree.push {} .unit none } }
  have isTable : (unit.bind context).1.writtenTypes = uses.map context.entry :=
    isTable.trans (append_nil _)
  refine ⟨uses, isTable, ?_⟩
  rintro later use earlier rfl
  have isFound : (use :: earlier).find? (fun other =>
      use.2.span.start.offset == other.2.span.start.offset) = some use :=
    find?_cons_of_pos (beq_self_eq_true _)
  rw [Bindings.typeOf, isTable, lookup_entries, find?_append, isFound]
  cases later.find? fun other => use.2.span.start.offset == other.2.span.start.offset with
  | none => exact iff_of_true rfl (by simp)
  | some latest =>
    exact ⟨fun same _ isLatest => Option.some.inj isLatest ▸ same, fun all => all _ rfl⟩

/-- `class A { int a, b[]; }` -/
def twinUnit : CompilationUnit :=
  let span := Span.point .start
  let member (name : String) (dimensions : Nat) : Member :=
    .field { modifiers := [], annotations := [], type := ⟨"int", [], false, [], dimensions, span⟩
             name, nameSpan := span, span } none
  { lambdaUnit with types := [plainClass "A" 6 [member "a" 0, member "b" 1]] }

def twinContext : UnitContext :=
  { lambdaContext with
    declared := .ofUnits [("A.java", twinUnit)] ⟨fun _ => none, fun _ => false⟩ }

/-- The type of the first declarator counts for that of the second. -/
theorem typeOf_bind_twins : ∃ first second,
    (twinUnit.bind twinContext).1.writtenTypes = [second, first].map twinContext.entry ∧
    (twinUnit.bind twinContext).1.typeOf first.2 ≠ twinContext.denoted first := by
  obtain ⟨-, uses, isTable, verdict⟩ := typeOf_bind twinContext twinUnit
  have shown : (twinUnit.bind twinContext).1.writtenTypes = [(0, .array .int), (0, .int)] := rfl
  obtain ⟨second, _, rfl, isSecond, isRest⟩ := map_eq_cons_iff.mp (isTable.symm.trans shown)
  obtain ⟨first, _, rfl, isFirst, isNil⟩ := map_eq_cons_iff.mp isRest
  obtain rfl := map_eq_nil_iff.mp isNil
  refine ⟨first, second, isTable, fun isOwn => ?_⟩
  have sameOffset : first.2.span.start.offset = second.2.span.start.offset :=
    (congrArg Prod.fst isFirst).trans (congrArg Prod.fst isSecond).symm
  have sameType := (verdict [second] first [] rfl).mp isOwn second
    (find?_cons_of_pos (beq_iff_eq.mpr sameOffset))
  have isInt : Ty.array .int = .int :=
    (congrArg Prod.snd isSecond).symm.trans (sameType.trans (congrArg Prod.snd isFirst))
  cases isInt

end JavaFrontEnd
