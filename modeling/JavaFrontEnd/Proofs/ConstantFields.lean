/-
The constant variables of a type and the fields that are marked as such. A constant variable is
final, of a primitive type or `String`, and its value is a constant expression over constant
variables. The marks are found in two rounds: first the final fields whose values use no names, and
then those whose values use only the names of the first round. So marks go wrong where types differ
or more than one step is needed (`DeclaredTypes.isConstant_verdicts`).
-/

import JavaFrontEnd.Proofs.Resolution.Table

namespace JavaFrontEnd

namespace Expression

/-- The names that have to be constant for an expression to be. -/
def constantNames : Expression → List String
  | .name spelled _ _ => [spelled]
  | .field target selected nameSpan id span =>
    (qualifiedName? (.field target selected nameSpan id span)).toList
  | .parenthesized inner _ | .unary _ inner _ | .cast _ _ inner _ => inner.constantNames
  | .binary _ left right _ => left.constantNames ++ right.constantNames
  | .conditional condition yes no _ =>
    condition.constantNames ++ yes.constantNames ++ no.constantNames
  | _ => []

/-- The expression is constant if its names are. -/
def isConstantForm (expression : Expression) : Bool :=
  expression.isConstant fun _ => true

theorem isConstant_eq (test : String → Bool) (expression : Expression) :
    expression.isConstant test =
      (expression.isConstantForm && expression.constantNames.all test) := by
  unfold isConstantForm
  cases expression with
  | name | literal => exact (Bool.and_true _).symm
  | field target selected nameSpan id span =>
    rw [isConstant, isConstant, constantNames]
    cases qualifiedName? (.field target selected nameSpan id span) <;> simp
  | parenthesized inner => exact isConstant_eq test inner
  | unary _ operand | cast _ _ operand =>
    rw [isConstant, isConstant_eq test operand, isConstant, constantNames, Bool.and_assoc]
    rfl
  | binary _ left right =>
    rw [isConstant, isConstant_eq test left, isConstant_eq test right, isConstant, constantNames,
      List.all_append, isConstantForm, isConstantForm]
    ac_rfl
  | conditional condition yes no =>
    rw [isConstant, isConstant_eq test condition, isConstant_eq test yes, isConstant_eq test no,
      isConstant, constantNames, List.all_append, List.all_append, isConstantForm, isConstantForm,
      isConstantForm]
    ac_rfl
  | _ => rfl
termination_by structural expression

end Expression

/-! ### Constant variables -/

def Initializes (members : List Member) (name : String) (value : Expression) : Prop :=
  ∃ header, (header, some value) ∈ fieldValues members ∧ header.name = name

def RefersTo (members : List Member) (name spelled : String) : Prop :=
  ∃ value, Initializes members name value ∧ spelled ∈ value.constantNames

def KnownField.hasConstantType (field : KnownField) : Bool :=
  field.type.isPrimitive || field.type.isString

inductive ConstantVariable (type : KnownType) (members : List Member) : String → Prop
  | intro (field : KnownField) (value : Expression) (isField : field ∈ type.fields)
    (isFinal : field.isFinal = true) (isTyped : field.hasConstantType = true)
    (isInitial : Initializes members field.name value) (isForm : value.isConstantForm = true)
    (areConstant : ∀ spelled ∈ value.constantNames, ConstantVariable type members spelled) :
    ConstantVariable type members field.name

/-! ### Marks -/

/-- The fields of a type have different names. They are those that members declare, and others
without marks. -/
structure MarksFields (resolve : WrittenType → Ty) (inInterface : Bool) (members : List Member)
    (type : KnownType) : Prop where
  exists_eq : ∃ implied : List KnownField, (∀ field ∈ implied, field.isConstant = false) ∧
    type.fields = implied ++ Site.declaredFields resolve inInterface members
  distinct : (type.fields.map KnownField.name).Nodup

theorem mem_plainConstants_iff {members : List Member} {inInterface : Bool} {name : String} :
    name ∈ Site.plainConstants members inInterface ↔
      ∃ header value, (header, some value) ∈ fieldValues members ∧ header.name = name ∧
        (header.modifiers.contains .final || inInterface) = true ∧
        value.isConstantForm = true ∧ value.constantNames = [] := by
  have isPlain_iff (value : Expression) : value.isConstant (fun _ => false) = true ↔
      value.isConstantForm = true ∧ value.constantNames = [] := by
    rw [Expression.isConstant_eq, Bool.and_eq_true]
    cases value.constantNames <;> simp
  simp only [Site.plainConstants, List.mem_filterMap, Prod.exists, Option.ite_none_right_eq_some,
    Option.some.injEq, Bool.and_eq_true, Option.any_eq_true, isPlain_iff]
  constructor
  · rintro ⟨header, _, isField, ⟨isFinal, value, rfl, isForm⟩, isName⟩
    exact ⟨header, value, isField, isName, isFinal, isForm⟩
  · rintro ⟨header, value, isField, isName, isFinal, isForm⟩
    exact ⟨header, _, isField, ⟨isFinal, value, rfl, isForm⟩, isName⟩

namespace MarksFields

variable {resolve : WrittenType → Ty} {inInterface : Bool} {members : List Member}
  {type : KnownType} {field other : KnownField} {name : String} {value : Expression}
  (marks : MarksFields resolve inInterface members type)

include marks

theorem eq_of_name (isField : field ∈ type.fields) (isOther : other ∈ type.fields)
    (sameName : field.name = other.name) : field = other :=
  List.inj_on_of_nodup_map marks.distinct isField isOther sameName

theorem declaredField_mem {entry : FieldHeader × Option Expression}
    (isEntry : entry ∈ fieldValues members) :
    Site.declaredField resolve inInterface (Site.plainConstants members inInterface) entry.1
      entry.2 ∈ type.fields := by
  obtain ⟨_, _, isFields⟩ := marks.exists_eq
  rw [isFields]
  exact List.mem_append_right _ (List.mem_map_of_mem isEntry)

theorem initial_unique {another : Expression} (isInitial : Initializes members name value)
    (isAnother : Initializes members name another) : value = another := by
  obtain ⟨header, isEntry, rfl⟩ := isInitial
  obtain ⟨_, isOther, sameName⟩ := isAnother
  obtain ⟨_, _, isFields⟩ := marks.exists_eq
  have distinct := marks.distinct
  rw [isFields, List.map_append, Site.declaredFields, List.map_map] at distinct
  cases List.inj_on_of_nodup_map (List.nodup_append.mp distinct).2.1 isOther isEntry sameName
  rfl

theorem eq_declaredField (isField : field ∈ type.fields)
    (isInitial : Initializes members field.name value) : ∃ header,
      (header, some value) ∈ fieldValues members ∧ field =
        Site.declaredField resolve inInterface (Site.plainConstants members inInterface) header
          (some value) := by
  obtain ⟨header, isEntry, isName⟩ := isInitial
  exact ⟨header, isEntry,
    marks.eq_of_name isField (marks.declaredField_mem isEntry) isName.symm⟩

theorem isConstant_iff (isField : field ∈ type.fields)
    (isInitial : Initializes members field.name value) :
    field.isConstant = true ↔ (field.isFinal = true ∧ field.hasConstantType = true) ∧
      value.isConstantForm = true ∧
      ∀ spelled ∈ value.constantNames, spelled ∈ Site.plainConstants members inInterface := by
  obtain ⟨header, _, isKnown⟩ := marks.eq_declaredField isField isInitial
  have isMark : field.isConstant = (field.isFinal && field.hasConstantType &&
      value.isConstant (Site.plainConstants members inInterface).contains) := by
    rw [isKnown]
    rfl
  rw [isMark, Expression.isConstant_eq]
  simp

theorem constantVariable_iff (isField : field ∈ type.fields)
    (isInitial : Initializes members field.name value) :
    ConstantVariable type members field.name ↔
      (field.isFinal = true ∧ field.hasConstantType = true) ∧ value.isConstantForm = true ∧
        ∀ spelled ∈ value.constantNames, ConstantVariable type members spelled := by
  constructor
  · intro isConstant
    generalize isName : field.name = name at isConstant
    obtain ⟨_, _, isOther, isFinal, isTyped, isOtherInitial, isForm, areConstant⟩ := isConstant
    obtain rfl := marks.eq_of_name isField isOther isName
    obtain rfl := marks.initial_unique isInitial isOtherInitial
    exact ⟨⟨isFinal, isTyped⟩, isForm, areConstant⟩
  · rintro ⟨⟨isFinal, isTyped⟩, isForm, areConstant⟩
    exact .intro field value isField isFinal isTyped isInitial isForm areConstant

theorem constantVariable_iff_of_plain
    (isPlain : name ∈ Site.plainConstants members inInterface) :
    ConstantVariable type members name ↔
      ∃ other ∈ type.fields, other.name = name ∧ other.hasConstantType = true := by
  obtain ⟨header, value, isEntry, rfl, isFinal, isForm, noNames⟩ :=
    mem_plainConstants_iff.mp isPlain
  have isField := marks.declaredField_mem isEntry
  have isInitial : Initializes members header.name value := ⟨header, isEntry, rfl⟩
  have isVariable_iff := marks.constantVariable_iff isField isInitial
  refine isVariable_iff.trans ⟨fun isVariable => ⟨_, isField, rfl, isVariable.1.2⟩, ?_⟩
  rintro ⟨other, isOther, sameName, isTyped⟩
  obtain rfl := marks.eq_of_name isOther isField sameName
  exact ⟨⟨isFinal, isTyped⟩, isForm, by simp [noNames]⟩

theorem plain_iff_of_constantVariable (isVariable : ConstantVariable type members name) :
    name ∈ Site.plainConstants members inInterface ↔
      ∀ further, ¬ RefersTo members name further := by
  obtain ⟨field, value, isField, isFinal, _, isInitial, isForm, _⟩ := isVariable
  obtain ⟨header, isEntry, isKnown⟩ := marks.eq_declaredField isField isInitial
  rw [mem_plainConstants_iff]
  constructor
  · rintro ⟨_, other, isOther, sameName, _, _, noNames⟩ further ⟨_, isInitialToo, isNamed⟩
    obtain rfl := marks.initial_unique ⟨_, isOther, sameName⟩ isInitialToo
    simp [noNames] at isNamed
  · intro noNames
    rw [isKnown] at isFinal
    refine ⟨header, value, isEntry, (congrArg KnownField.name isKnown).symm, isFinal, isForm, ?_⟩
    exact List.eq_nil_iff_forall_not_mem.mpr fun further isNamed =>
      noNames further ⟨value, isInitial, isNamed⟩

theorem constantVariable_iff_of_marked (isField : field ∈ type.fields)
    (isMarked : field.isConstant = true) : ConstantVariable type members field.name ↔
      ∀ spelled, RefersTo members field.name spelled →
        ∃ other ∈ type.fields, other.name = spelled ∧ other.hasConstantType = true := by
  have ⟨value, isInitial⟩ : ∃ value, Initializes members field.name value := by
    obtain ⟨_, unmarked, isFields⟩ := marks.exists_eq
    rw [isFields, List.mem_append, Site.declaredFields, List.mem_map] at isField
    obtain isImplied | ⟨⟨header, _ | value⟩, isEntry, rfl⟩ := isField
    · rw [unmarked field isImplied] at isMarked
      cases isMarked
    · have noMark := (Bool.and_eq_true_iff.mp isMarked).2
      cases noMark
    · exact ⟨value, header, isEntry, rfl⟩
  obtain ⟨isFinal, isForm, arePlain⟩ := (marks.isConstant_iff isField isInitial).mp isMarked
  have each_iff {spelled : String} (isNamed : spelled ∈ value.constantNames) :=
    marks.constantVariable_iff_of_plain (arePlain spelled isNamed)
  rw [marks.constantVariable_iff isField isInitial]
  constructor
  · rintro ⟨_, _, areConstant⟩ spelled ⟨other, isOther, isNamed⟩
    obtain rfl := marks.initial_unique isInitial isOther
    exact (each_iff isNamed).mp (areConstant spelled isNamed)
  · intro areTyped
    exact ⟨isFinal, isForm, fun spelled isNamed =>
      (each_iff isNamed).mpr (areTyped spelled ⟨value, isInitial, isNamed⟩)⟩

theorem isConstant_iff_of_constantVariable (isField : field ∈ type.fields)
    (isVariable : ConstantVariable type members field.name) : field.isConstant = true ↔
      ∀ spelled further, RefersTo members field.name spelled →
        ¬ RefersTo members spelled further := by
  have ⟨value, isInitial⟩ : ∃ value, Initializes members field.name value := by
    generalize field.name = name at isVariable
    cases isVariable
    exact ⟨_, ‹_›⟩
  obtain ⟨isFinal, isForm, areConstant⟩ :=
    (marks.constantVariable_iff isField isInitial).mp isVariable
  have each_iff {spelled : String} (isNamed : spelled ∈ value.constantNames) :=
    marks.plain_iff_of_constantVariable (areConstant spelled isNamed)
  rw [marks.isConstant_iff isField isInitial]
  constructor
  · rintro ⟨_, _, arePlain⟩ spelled further ⟨other, isOther, isNamed⟩
    obtain rfl := marks.initial_unique isInitial isOther
    exact (each_iff isNamed).mp (arePlain spelled isNamed) further
  · intro noChain
    exact ⟨isFinal, isForm, fun spelled isNamed => (each_iff isNamed).mpr fun further =>
      noChain spelled further ⟨value, isInitial, isNamed⟩⟩

end MarksFields

namespace DeclaredTypes

theorem unmarked_implied (site : Site) (resolve : WrittenType → Ty) :
    ∀ field ∈ (site.impliedMembers resolve).1, field.isConstant = false := by
  unfold Site.impliedMembers
  intro field isField
  split at isField
  · cases isField
  · cases isField
  split at isField
  · obtain ⟨_, _, rfl⟩ := List.mem_map.mp isField
    rfl
  · obtain ⟨_, _, rfl⟩ := List.mem_map.mp isField
    rfl
  · cases isField

/-- A marked field is a constant variable if its value uses only fields of primitive types or
`String`, and a constant variable is marked if the fields that its value uses have values without
names. -/
theorem isConstant_verdicts (units : List (String × CompilationUnit)) (platform : ClassPath)
    {site : Site} {type : KnownType}
    (isSole : ((Site.ofUnits units).filter fun other => other.key == site.key) = [site])
    (isType : (ofUnits units platform).classPath.type? site.key = some type)
    (distinct : (type.fields.map KnownField.name).Nodup) {field : KnownField}
    (isField : field ∈ type.fields) :
    (field.isConstant = true → (ConstantVariable type site.body.members field.name ↔
      ∀ spelled, RefersTo site.body.members field.name spelled →
        ∃ other ∈ type.fields, other.name = spelled ∧ other.hasConstantType = true)) ∧
    (ConstantVariable type site.body.members field.name → (field.isConstant = true ↔
      ∀ spelled further, RefersTo site.body.members field.name spelled →
        ¬ RefersTo site.body.members spelled further)) := by
  obtain ⟨permits, isKnown⟩ := type?_ofUnits units platform isSole
  have sameFields := congrArg KnownType.fields (Option.some.inj (isType.symm.trans isKnown))
  have isFields := (site.members_known (isInInterface (Site.ofUnits units) site)
    (outlinePath units platform) (supertypePath units platform)).1
  have marks : MarksFields _ _ site.body.members type :=
    ⟨⟨_, unmarked_implied site _, sameFields.trans isFields⟩, distinct⟩
  exact ⟨marks.constantVariable_iff_of_marked isField,
    marks.isConstant_iff_of_constantVariable isField⟩

/-- `static final int A = 1, B = A, C = B;` -/
def chainMembers : List Member :=
  let span := Span.point .start
  let member (name : String) (value : Expression) : Member :=
    .field { modifiers := [.static, .final], annotations := [], name, nameSpan := span, span
             type := ⟨"int", [], false, [], 0, span⟩ } (some value)
  [member "A" (.literal (.int 1) span), member "B" (.name "A" 0 span),
    member "C" (.name "B" 1 span)]

def chainUnit : CompilationUnit :=
  let span := Span.point .start
  { package := none, imports := [], span, annotationArguments := #[]
    types := [⟨{ modifiers := [], annotations := [], name := "T", nameSpan := span
                 shape := .class [] none [] [], span }, [], chainMembers⟩] }

def chainTypes : DeclaredTypes :=
  ofUnits [("T.java", chainUnit)] ⟨fun _ => none, fun _ => false⟩

theorem type?_chain : ∃ type, chainTypes.classPath.type? "T" = some type ∧
    (type.fields.map KnownField.name = ["A", "B", "C"] ∧
      ∀ field ∈ type.fields, field.isFinal = true ∧ field.hasConstantType = true) := by
  refine ⟨_, rfl, ?_⟩
  decide +kernel

/-- The last field of a chain of three is a constant variable without a mark. -/
theorem isConstant_verdicts_chain : ∃ type, chainTypes.classPath.type? "T" = some type ∧
    ConstantVariable type chainMembers "C" ∧
    ∃ field ∈ type.fields, field.name = "C" ∧ field.isConstant = false := by
  obtain ⟨type, isType, areNames, areFields⟩ := type?_chain
  have hasField (name : String) (isName : name ∈ ["A", "B", "C"]) :
      ∃ field ∈ type.fields, field.name = name :=
    List.mem_map.mp (areNames ▸ isName)
  have isVariable {name : String} {value : Expression} (isName : name ∈ ["A", "B", "C"])
      (isInitial : Initializes chainMembers name value) (isForm : value.isConstantForm = true)
      (areConstant : ∀ spelled ∈ value.constantNames,
        ConstantVariable type chainMembers spelled) : ConstantVariable type chainMembers name := by
    obtain ⟨field, isField, rfl⟩ := hasField name isName
    obtain ⟨isFinal, isTyped⟩ := areFields field isField
    exact .intro field value isField isFinal isTyped isInitial isForm areConstant
  have initialA : Initializes chainMembers "A" _ := ⟨_, .head _, rfl⟩
  have initialB : Initializes chainMembers "B" _ := ⟨_, .tail _ (.head _), rfl⟩
  have initialC : Initializes chainMembers "C" _ := ⟨_, .tail _ (.tail _ (.head _)), rfl⟩
  have variableC := isVariable (by decide) initialC rfl (List.forall_mem_singleton.mpr
    (isVariable (by decide) initialB rfl (List.forall_mem_singleton.mpr
      (isVariable (by decide) initialA rfl (List.forall_mem_nil _)))))
  obtain ⟨field, isField, isName⟩ := hasField "C" (by decide)
  refine ⟨type, isType, variableC, field, isField, isName, Bool.eq_false_iff.mpr fun isMarked => ?_⟩
  obtain ⟨site, isSole, isKey, areMembers⟩ : ∃ site,
      ((Site.ofUnits [("T.java", chainUnit)]).filter fun other => other.key == "T") = [site] ∧
      site.key = "T" ∧ site.body.members = chainMembers := ⟨_, rfl, rfl, rfl⟩
  have isChain := isConstant_verdicts [("T.java", chainUnit)] _ (isKey ▸ isSole) (isKey ▸ isType)
    (areNames ▸ (by decide : ["A", "B", "C"].Nodup)) isField
  rw [areMembers, isName] at isChain
  exact (isChain.2 variableC).mp isMarked "B" "A" ⟨_, initialC, .head _⟩ ⟨_, initialB, .head _⟩

end DeclaredTypes

end JavaFrontEnd
