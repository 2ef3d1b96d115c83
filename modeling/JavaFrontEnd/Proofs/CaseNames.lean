/-
Bare names in the labels of a switch on an enum. The walk that binds names comes to a label before
the type of the selector is known and looks the name up like any other. So a variable or a field
that is visible at the label hides the constant of the same name
(`LabelName.visible_before_constant`).
-/

import JavaFrontEnd.Proofs.Exhaustiveness
import JavaFrontEnd.Proofs.Scoping.Growth

namespace JavaFrontEnd

/-- A bare name in a label, with all that stands before and after it in the cases of a switch. -/
structure LabelName where
  earlierCases : List SwitchCase
  case : SwitchCase
  laterCases : List SwitchCase
  earlierLabels : List SwitchLabel
  label : SwitchLabel
  laterLabels : List SwitchLabel
  earlierElements : List CaseElement
  name : String
  id : Nat
  span : Span
  laterElements : List CaseElement
  labels_eq : case.labels = earlierLabels ++ label :: laterLabels
  elements_eq : label.elements = earlierElements ++ .constant (.name name id span) :: laterElements

variable (bare : LabelName)

namespace LabelName

def cases : List SwitchCase :=
  bare.earlierCases ++ bare.case :: bare.laterCases

def selected? (summaries : List CaseSummary) : Option CaseSelector :=
  summaries[bare.earlierCases.length]?.bind fun case =>
    case.labels[bare.earlierLabels.length]?.bind fun label =>
      label.selectors[bare.earlierElements.length]?.map Prod.fst

def bind (context : UnitContext) (place : Binder.Place) :
    Binder Binder.BoundExpression :=
  Binder.bindExpression context place .caseConstant (.name bare.name bare.id bare.span)

end LabelName

structure Bindings.SameAt (id : Nat) (before after : Bindings) : Prop where
  referent : after.referent? id = before.referent? id
  caseName : after.caseNames.contains id = before.caseNames.contains id

structure Bindings.IsNewAt (bindings : Bindings) (id : Nat) : Prop where
  referent : bindings.referent? id = none
  caseName : bindings.caseNames.contains id = false

namespace Binder

/-! ### What is recorded -/

/-- What a simple name denotes at a place: the innermost variable or field of this name around it,
or else a field that is imported. -/
def visible? (context : UnitContext) (place : Place) (bindings : Bindings) (name : String) :
    Option Referent :=
  match bindings.findName context.path place.guardScope name (bindings.tree.ancestors place.scope)
    place.frames 0 false false with
  | some (.field found _) => some (.field found)
  | some (.variable symbol _) => some (.variable symbol)
  | none => (context.names.staticField? name).map .field

section Lookup

variable (context : UnitContext) (place : Place) (name : String) (id : Nat) (span : Span)

/-- What is recorded for a bare name in a label: what is visible, or that nothing is. -/
structure RecordsName (visible : Option Referent) (bindings : Bindings) : Prop where
  referent : bindings.referent? id = visible
  caseName : bindings.caseNames.contains id = visible.isNone

variable {id} {state : BinderState}

theorem RecordsName.later (records : RecordsName id visible before)
    (same : before.SameAt id after) :
    RecordsName id visible after :=
  ⟨same.referent.trans records.referent, same.caseName.trans records.caseName⟩

theorem recordsName_record (isNew : state.bindings.IsNewAt id) (referent : Referent) :
    RecordsName id (some referent) ((record id referent).run state).2.bindings := by
  refine ⟨?_, isNew.caseName⟩
  show ((id, referent) :: state.bindings.referents).lookup id = _
  rw [List.lookup_cons, beq_self_eq_true]

theorem bindings_reportField (found : ClassPath.FoundField) (position : Position)
    (access : FieldAccess) (state : BinderState) :
    ((reportField place found span position access).run state).2.bindings = state.bindings := by
  unfold reportField
  split <;> rfl

theorem recordsName_bindDistantName (isNew : state.bindings.IsNewAt id) :
    RecordsName id ((context.names.staticField? name).map .field)
      ((bindDistantName context place .caseConstant name id span).run state).2.bindings := by
  unfold bindDistantName
  cases context.names.staticField? name with
  | some found => exact recordsName_record isNew (.field found)
  | none =>
    refine ⟨isNew.referent, ?_⟩
    show (id :: state.bindings.caseNames).contains id = true
    rw [List.contains_cons, beq_self_eq_true, Bool.true_or]

theorem recordsName_bindSimpleName (isNew : state.bindings.IsNewAt id) :
    RecordsName id (visible? context place state.bindings name)
      ((bindSimpleName context place .caseConstant name id span).run state).2.bindings := by
  unfold bindSimpleName visible?
  rw [StateT.run_bind, StateT.run_get, pure_bind]
  dsimp only
  cases state.bindings.findName context.path place.guardScope name
      (state.bindings.tree.ancestors place.scope) place.frames 0 false false with
  | none => exact recordsName_bindDistantName context place name span isNew
  | some hit =>
    cases hit with
    | field found around =>
      have reported := bindings_reportField place span found .caseConstant (.simple around) state
      exact recordsName_record (reported.symm ▸ isNew) (.field found)
    | «variable» symbol captured =>
      cases captured with
      | none => exact recordsName_record isNew (.variable symbol)
      | some kind =>
        let noted := { state with captures := { symbol, span, kind } :: state.captures }
        exact recordsName_record isNew (.variable symbol)

end Lookup

end Binder

namespace LabelName

open Binder

/-! ### What the rules are told -/

/-- The constant of an enum that a bare name in a label is taken for: the one that is visible under
this name, and the one of the enum that is switched on if nothing is. -/
def takenFor? (visible : Option Referent) (own : String × String) : Option (String × String) :=
  match visible with
  | none => some own
  | some (.field found) =>
    if found.field.isEnumConstant then some (found.owner.key, found.field.name) else none
  | some _ => none

theorem takenFor?_eq_own_iff (visible : Option Referent) (own : String × String) :
    takenFor? visible own = some own ↔ visible = none ∨ ∃ found, visible = some (.field found) ∧
      found.field.isEnumConstant = true ∧ (found.owner.key, found.field.name) = own := by
  cases visible with
  | none => exact iff_of_true rfl (.inl rfl)
  | some referent =>
    cases referent with
    | field found =>
      refine Option.ite_none_right_eq_some.trans ?_
      constructor
      · rintro ⟨isConstant, same⟩
        exact .inr ⟨found, rfl, isConstant, Option.some.inj same⟩
      · rintro (isNone | ⟨_, isFound, isConstant, same⟩)
        · cases isNone
        · cases isFound
          exact ⟨isConstant, congrArg some same⟩
    | «variable» | type | package =>
      constructor
      · intro isOwn
        cases isOwn
      · rintro (isNone | ⟨_, isFound, _⟩)
        · cases isNone
        · cases isFound

theorem denotedConstant?_name {context : UnitContext} {selector : Ty} {name : String} {id : Nat}
    {span : Span} (records : RecordsName id visible bindings) (isKey : selector.key? = some key)
    (isType : context.path.type? key = some type) (isEnum : type.isEnum = true)
    (isConstant : name ∈ type.enumConstants) :
    Attributor.denotedConstant? context bindings selector (.name name id span) =
      takenFor? visible (type.key, name) := by
  have isOpen : Attributor.openCaseName? bindings (.name name id span) =
      if visible.isNone then some (name, span) else none := by
    rw [← records.caseName]
    rfl
  unfold Attributor.denotedConstant?
  rw [isOpen]
  cases visible with
  | none =>
    show Attributor.namedConstant? context selector name = some (type.key, name)
    unfold Attributor.namedConstant?
    rw [isKey, Option.bind_some, isType, Option.filter_some, if_pos isEnum, Option.bind_some,
      if_pos (List.contains_iff_mem.mpr isConstant)]
  | some referent =>
    have isReferent : Attributor.referentOf? bindings
        (Expression.name name id span).unparenthesized = some referent := records.referent
    rw [Option.isNone_some, if_neg Bool.false_ne_true]
    rw [isReferent]
    cases referent <;> rfl

theorem exists_at_length {α β : Type} {related : α → β → Prop} {before after : List α} {item : α}
    {others : List β} (pairs : List.Forall₂ related (before ++ item :: after) others) :
    ∃ other, others[before.length]? = some other ∧ related item other := by
  induction before generalizing others with
  | nil =>
    cases pairs with
    | cons first _ => exact ⟨_, rfl, first⟩
  | cons _ rest ih =>
    cases pairs with
    | cons _ more => exact ih more

theorem exists_selected (context : UnitContext) (bindings : Bindings)
    (place : Attributor.Place) (selector : Ty) (before : AttributionState) :
    ∃ type known, bare.selected?
      ((Attributor.attributeCases context bindings place selector bare.cases).run before).1 =
        some (.constant type known (Attributor.denotedConstant? context bindings selector
          (.name bare.name bare.id bare.span))) := by
  have reflects : List.Forall₂ (Attributor.ReflectsCase context bindings selector) bare.cases
      ((Attributor.attributeCases context bindings place selector bare.cases).run before).1 :=
    Attributor.attributeCases_yields bare.cases before
  obtain ⟨case, isCase, reflects⟩ := exists_at_length reflects
  rw [Attributor.ReflectsCase, bare.labels_eq] at reflects
  obtain ⟨label, isLabel, reflects⟩ := exists_at_length reflects
  have elements := reflects.selected
  rw [bare.elements_eq] at elements
  obtain ⟨entry, isEntry, type, known, isConstant⟩ := exists_at_length elements
  refine ⟨type, known, ?_⟩
  rw [selected?, isCase, Option.bind_some, isLabel, Option.bind_some, isEntry, ← isConstant]
  rfl

/-- A bare name in a label of a switch on an enum that has a constant of this name. The walk that
binds names comes to it at some place, in some state; whatever is bound after it keeps what is
recorded under its number. Then the rules for switches are told what the name is taken for where it
is written: the constant of the enum exactly if nothing of the name is visible there, or that very
constant is. Anything else that is visible, such as a parameter, hides the constant. -/
theorem visible_before_constant (bare : LabelName) (context : UnitContext) (place : Binder.Place)
    (state : BinderState) (isNew : state.bindings.IsNewAt bare.id) (bindings : Bindings)
    (isKept : ((bare.bind context place).run state).2.bindings.SameAt bare.id bindings)
    (around : Attributor.Place) (before : AttributionState) (selected : Ty) (key : String)
    (type : KnownType) (isKey : selected.key? = some key)
    (isType : context.path.type? key = some type) (isEnum : type.isEnum = true)
    (isConstant : bare.name ∈ type.enumConstants) :
    let visible := visible? context place state.bindings bare.name
    (∃ kind known, bare.selected?
      ((Attributor.attributeCases context bindings around selected bare.cases).run before).1 =
        some (.constant kind known (takenFor? visible (type.key, bare.name)))) ∧
    (takenFor? visible (type.key, bare.name) = some (type.key, bare.name) ↔
      visible = none ∨ ∃ found, visible = some (.field found) ∧
        found.field.isEnumConstant = true ∧
          (found.owner.key, found.field.name) = (type.key, bare.name)) := by
  intro visible
  have records : RecordsName bare.id visible bindings :=
    (recordsName_bindSimpleName context place bare.name bare.span isNew).later isKept
  refine ⟨?_, takenFor?_eq_own_iff visible _⟩
  obtain ⟨kind, known, isSelected⟩ :=
    exists_selected bare context bindings around selected before
  rw [denotedConstant?_name records isKey isType isEnum isConstant] at isSelected
  exact ⟨kind, known, isSelected⟩

/-- Only the enum `E` is known, which has the constants `A` and `B`. -/
def lettersPath : ClassPath where
  type? key :=
    if key = "E" then some { key, kind := .enum, enumConstants := ["A", "B"] } else none
  hasPackage _ := false

def lettersContext : UnitContext where
  configuration := {}
  declared := .ofUnits [] lettersPath
  names := { package := none, imports := [], path := lettersPath }
  file := ""

/-- The walk is inside a method with a parameter `A`. -/
def lettersState : BinderState where
  bindings :=
    { tree := ((ScopeTree.push {} .unit none).push (.method false) (some 0)).bind 1 "A" 0
      symbols := #[{ name := "A", kind := .parameter, type := .primitive .int, scope := 1
                     span := .point .start }] }

def letterCase (name : String) (id : Nat) : SwitchCase :=
  .valueRule ⟨[.constant (.name name id (.point .start))], none, .point .start⟩
    (.literal (.int 0) (.point .start)) (.point .start)

/-- The first label of `switch (next()) { case A -> 0; case B -> 0; }`. -/
def letterName : LabelName where
  earlierCases := []
  case := letterCase "A" 1
  laterCases := [letterCase "B" 2]
  earlierLabels := []
  label := ⟨[.constant (.name "A" 1 (.point .start))], none, .point .start⟩
  laterLabels := []
  earlierElements := []
  name := "A"
  id := 1
  span := .point .start
  laterElements := []
  labels_eq := rfl
  elements_eq := rfl

theorem visible_letterName :
    visible? lettersContext { scope := 1 } lettersState.bindings "A" = some (.variable 0) := by
  have ofUnit : lettersState.bindings.tree.ancestors 0 = [0] := by
    rw [ScopeTree.ancestors]
    rfl
  have ofMethod : lettersState.bindings.tree.ancestors 1 =
      1 :: lettersState.bindings.tree.ancestors 0 :=
    ScopeTree.ancestors_eq_cons rfl (by decide)
  unfold visible?
  rw [ofMethod, ofUnit]
  rfl

/-- The parameter hides the constant: the first label counts for no constant at all. -/
theorem visible_before_constant_letters :
    ∃ kind known, letterName.selected?
      ((Attributor.attributeCases lettersContext
        ((letterName.bind lettersContext { scope := 1 }).run lettersState).2.bindings {}
        (.ofKey "E") letterName.cases).run { symbols := #[] }).1 =
          some (.constant kind known none) := by
  have isTaken := (visible_before_constant letterName lettersContext { scope := 1 } lettersState
    ⟨rfl, rfl⟩ _ ⟨rfl, rfl⟩ {} { symbols := #[] } (.ofKey "E") "E" _ rfl rfl rfl (by decide)).1
  rw [show letterName.name = "A" from rfl, visible_letterName] at isTaken
  exact isTaken

end LabelName

end JavaFrontEnd
