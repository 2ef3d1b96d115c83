/-
What it means that a switch leaves no value out. Values are objects of classes, with the components
of records, and the constants of enums; the classes at run time extend the known ones as these say,
and a sealed type has only the subtypes that it permits. A switch in which no case is found to be
missing takes every value, but for the components of records and the guards of constants, which the
check does not look at (`attributeSwitch_covers`).
-/

import JavaFrontEnd.Attribution
import JavaFrontEnd.Proofs.Hierarchy
import Mathlib.Data.List.Forall2

namespace JavaFrontEnd

open List

/-! ### Values and classes at run time -/

inductive Value where
  | null
  | primitive (kind : Primitive)
  | array (element : Ty)
  /-- An object of a class, with its components if the class is a record. -/
  | object (key : String) (components : List Value)
  | constant (owner name : String)

/-- The classes that there are at run time, among them such as the class path does not know. -/
structure World (path : ClassPath) where
  Extends : String → String → Prop
  known : ∀ {sub super}, path.Extends sub super → Extends sub super
  rooted : ∀ key, Relation.ReflTransGen Extends key "java.lang.Object"
  /-- A sealed type has no direct subtypes but those that it permits. -/
  permitted : ∀ {sub super type}, path.type? super = some type → type.isSealed = true →
    Extends sub super → sub ∈ type.permits
  /-- An enum extends no other enum. -/
  apart : ∀ {sub super subtype supertype}, path.type? sub = some subtype →
    path.type? super = some supertype → subtype.isEnum = true → supertype.isEnum = true →
    Relation.ReflTransGen Extends sub super → sub = super

namespace World

variable {path : ClassPath} (world : World path)

def Reaches : String → String → Prop :=
  Relation.ReflTransGen world.Extends

/-- A class that has objects: it is neither abstract nor an interface, and only the constants of an
enum are of a class that is an enum or extends one. -/
structure Concrete (key : String) : Prop where
  isClass : ∀ type, path.type? key = some type → type.isAbstract = false ∧ type.isInterface = false
  isNoEnum : ∀ super type, path.type? super = some type → world.Reaches key super →
    type.isEnum = false

inductive Instance : Value → String → Prop where
  | object {key super : String} (components : List Value) (isConcrete : world.Concrete key)
      (reaches : world.Reaches key super) : Instance (.object key components) super
  | constant {owner name super : String} {type : KnownType} (isOwner : path.type? owner = some type)
      (isEnum : type.isEnum = true) (isListed : name ∈ type.enumConstants)
      (reaches : world.Reaches owner super) : Instance (.constant owner name) super

/-- A value passes a test for a type. A class type is tested by the class of the value. -/
def Suits : Value → Ty → Prop
  | .null, _ => False
  | .primitive kind, type => type = .primitive kind
  | .array element, type => path.isSubtype (.array element) type.erasure = some true
  | .object key _, type | .constant key _, type =>
    ∃ super, type.key? = some super ∧ world.Reaches key super

variable {world} {value : Value} {key : String}

theorem reaches_of_isSubclass (isSubclass : path.IsSubclass sub super) :
    world.Reaches sub super := by
  rcases isSubclass with rfl | rfl | reaches
  · exact .refl
  · exact world.rooted sub
  · exact Relation.ReflTransGen.mono (fun _ _ => world.known) _ _ reaches

theorem Instance.of_reaches (isValue : world.Instance value key)
    (reaches : world.Reaches key super) : world.Instance value super := by
  cases isValue with
  | object components isConcrete below =>
    exact .object components isConcrete (below.trans reaches)
  | constant isOwner isEnum isListed below =>
    exact .constant isOwner isEnum isListed (below.trans reaches)

theorem Instance.suits {type : Ty} (isValue : world.Instance value key)
    (isClass : type.key? = some key) : world.Suits value type := by
  cases isValue with
  | object components isConcrete below => exact ⟨key, isClass, below⟩
  | constant isOwner isEnum isListed below => exact ⟨key, isClass, below⟩

theorem Instance.of_enum (isValue : world.Instance value key) (isKnown : path.type? key = some type)
    (isEnum : type.isEnum = true) : ∃ name ∈ type.enumConstants, value = .constant key name := by
  cases isValue with
  | object components isConcrete reaches =>
    have isNoEnum := isConcrete.isNoEnum key type isKnown reaches
    rw [isEnum] at isNoEnum
    cases isNoEnum
  | constant isOwner ownsConstants isListed reaches =>
    obtain rfl := world.apart isOwner isKnown ownsConstants isEnum reaches
    rw [isKnown, Option.some.injEq] at isOwner
    exact ⟨_, isOwner ▸ isListed, rfl⟩

theorem Instance.of_sealed (isValue : world.Instance value key)
    (isKnown : path.type? key = some type) (isSealed : type.isSealed = true)
    (isOpen : (type.isAbstract || type.isInterface) = true)
    (isNoEnum : (type.isEnum && !type.enumConstants.isEmpty) = false) :
    ∃ permitted ∈ type.permits, world.Instance value permitted := by
  cases isValue with
  | object components isConcrete reaches =>
    rcases Relation.ReflTransGen.cases_tail reaches with rfl | ⟨sub, below, step⟩
    · obtain ⟨isFull, isNoInterface⟩ := isConcrete.isClass type isKnown
      rw [isFull, isNoInterface] at isOpen
      cases isOpen
    · exact ⟨sub, world.permitted isKnown isSealed step, .object components isConcrete below⟩
  | constant isOwner ownsConstants isListed reaches =>
    rcases Relation.ReflTransGen.cases_tail reaches with rfl | ⟨sub, below, step⟩
    · rw [isKnown, Option.some.injEq] at isOwner
      subst isOwner
      rw [ownsConstants, Bool.true_and, Bool.not_eq_false', List.isEmpty_iff] at isNoEnum
      rw [isNoEnum] at isListed
      cases isListed
    · exact ⟨sub, world.permitted isKnown isSealed step,
        .constant isOwner ownsConstants isListed below⟩

end World

/-! ### What labels cover -/

namespace CoveredValues

variable {path : ClassPath} {covered : CoveredValues} {key : String}

/-- Some pattern tests for a supertype of the class of a value, or some constant is the value. -/
def Takes (covered : CoveredValues) (world : World path) (value : Value) : Prop :=
  (∃ pattern ∈ covered.patterns, pattern.key?.isSome = true ∧ world.Suits value pattern) ∨
    ∃ constant ∈ covered.constants, value = .constant constant.1 constant.2

theorem key?_of_isSubtype (isSubtype : path.isSubtype (.ofKey key) pattern = some true) :
    ∃ super, pattern.key? = some super ∧ path.IsSubclass key super := by
  cases pattern with
  | «class» super arguments =>
    exact ⟨super, rfl, path.isSubclass_of_eq_true key super isSubtype⟩
  | _ => cases isSubtype

theorem takes_of_isSubtype {world : World path} {value : Value}
    (isPattern : pattern ∈ covered.patterns)
    (isSubtype : path.isSubtype (.ofKey key) pattern = some true)
    (isValue : world.Instance value key) : covered.Takes world value := by
  obtain ⟨super, isClass, isSubclass⟩ := key?_of_isSubtype isSubtype
  refine .inl ⟨pattern, isPattern, Option.isSome_of_eq_some isClass, ?_⟩
  exact (isValue.of_reaches (World.reaches_of_isSubclass isSubclass)).suits isClass

theorem takes_of_coversAll (world : World path) {keys : List String} {value : Value}
    (covers : covered.coversAll path steps keys = true) (isKey : key ∈ keys)
    (isValue : world.Instance value key) : covered.Takes world value := by
  fun_induction coversAll covered path steps keys generalizing key with
  | case1 => cases isKey
  | case2 | case4 | case7 => cases covers
  | case3 _ _ _ selected ih =>
    rcases mem_cons.mp isKey with rfl | isLater
    · obtain ⟨pattern, isPattern, isSubtype⟩ := any_eq_true.mp selected
      exact takes_of_isSubtype isPattern (eq_of_beq isSubtype) isValue
    · exact ih covers isLater isValue
  | case5 _ _ _ _ type isKnown isEnum ih =>
    rw [Bool.and_eq_true] at covers
    rcases mem_cons.mp isKey with rfl | isLater
    · obtain ⟨name, isListed, rfl⟩ := isValue.of_enum isKnown (Bool.and_elim_left isEnum)
      have isCovered := all_eq_true.mp covers.1 name isListed
      exact .inr ⟨(key, name), contains_iff_mem.mp isCovered, rfl⟩
    · exact ih covers.2 isLater isValue
  | case6 _ _ rest _ type isKnown isNoEnum isSealed ih =>
    rw [Bool.and_eq_true, Bool.and_eq_true] at isSealed
    rcases mem_cons.mp isKey with rfl | isLater
    · obtain ⟨permitted, isPermitted, isBelow⟩ := isValue.of_sealed isKnown isSealed.1.1
        isSealed.2 (Bool.eq_false_iff.mpr isNoEnum)
      exact ih covers (mem_append_left rest isPermitted) isBelow
    · exact ih covers (mem_append_right type.permits isLater) isValue

end CoveredValues

namespace SwitchSummary

variable {path : ClassPath} {summary : SwitchSummary} {key : String}

theorem takes_of_isExhaustive_ne_false (world : World path) {value : Value}
    (isDeterminate : summary.selector.isIndeterminate = false)
    (isClass : summary.selector.boxed.key? = some key) (isKnown : path.knows key = true)
    (isAccepted : summary.isExhaustive path ≠ some false) (isValue : world.Instance value key) :
    summary.coveredValues.Takes world value := by
  unfold isExhaustive at isAccepted
  rw [if_neg (Bool.eq_false_iff.mp isDeterminate)] at isAccepted
  cases isSelector : summary.selector with
  | «class» selected arguments =>
    rw [isSelector] at isAccepted isClass
    obtain rfl := Option.some.inj isClass
    dsimp only at isAccepted
    rw [if_pos isKnown, ne_eq, Option.some.injEq, Bool.not_eq_false] at isAccepted
    exact CoveredValues.takes_of_coversAll world isAccepted mem_cons_self isValue
  | primitive kind =>
    rw [isSelector] at isAccepted isClass
    obtain rfl := Option.some.inj isClass
    rw [ne_eq, Option.some.injEq, Bool.not_eq_false, any_eq_true] at isAccepted
    obtain ⟨pattern, isPattern, isSubtype⟩ := isAccepted
    exact CoveredValues.takes_of_isSubtype isPattern (eq_of_beq isSubtype) isValue
  | _ =>
    rw [isSelector] at isClass
    cases isClass

end SwitchSummary

/-! ### The elements of labels -/

namespace SwitchLabel

/-- Whatever an element of the label takes is taken: there is no guard, or it always holds. -/
def isUnguarded (label : SwitchLabel) : Bool :=
  label.guard.all fun condition => condition.closedConstant?.bind Constant.boolean? == some true

end SwitchLabel

def SwitchCase.elements (cases : List SwitchCase) : List (SwitchLabel × CaseElement) :=
  cases.flatMap fun case => case.labels.flatMap fun label => label.elements.map (Prod.mk label)

mutual

/-- A value matches a pattern. A variable that is declared with `var` matches every value; a record
pattern is matched by the objects of the record whose components match. -/
def Pattern.Matches {path : ClassPath} (world : World path) (bindings : Bindings) :
    Pattern → Value → Prop
  | .type pattern, value =>
    Attributor.isInferred bindings pattern.type = true ∨
      world.Suits value (bindings.typeOf pattern.type)
  | .record tested patterns _, value =>
    ∃ key components, value = .object key components ∧
      world.Suits value (bindings.typeOf tested) ∧
        Pattern.MatchAll world bindings patterns components

def Pattern.MatchAll {path : ClassPath} (world : World path) (bindings : Bindings) :
    List Pattern → List Value → Prop
  | [], [] => True
  | pattern :: patterns, value :: values =>
    pattern.Matches world bindings value ∧ Pattern.MatchAll world bindings patterns values
  | _, _ => False

end

namespace Attributor

variable (context : UnitContext) (bindings : Bindings)

/-- The constant of a name in the enum that is switched on, by owner and name. -/
def namedConstant? (selector : Ty) (name : String) : Option (String × String) :=
  ((selector.key?.bind context.path.type?).filter KnownType.isEnum).bind fun type =>
    if type.enumConstants.contains name then some (type.key, name) else none

/-- The constant of an enum that an expression in a label denotes, by owner and name. A bare name
that denotes nothing else is a constant of the enum that is switched on. -/
def denotedConstant? (selector : Ty) (value : Expression) : Option (String × String) :=
  match openCaseName? bindings value with
  | some (name, _) => namedConstant? context selector name
  | none =>
    match referentOf? bindings value.unparenthesized with
    | some (.field found) =>
      if found.field.isEnumConstant then some (found.owner.key, found.field.name) else none
    | _ => none

def Takes {path : ClassPath} (world : World path) (selector : Ty) : CaseElement → Value → Prop
  | .default _, _ => True
  | .null _, value => value = .null
  | .pattern pattern, value => pattern.Matches world bindings value
  | .constant constant, value =>
    ∃ owner name, denotedConstant? context bindings selector constant = some (owner, name) ∧
      value = .constant owner name

/-- The check whether a switch is exhaustive counts an element of a label for a value. -/
inductive Counts {path : ClassPath} (world : World path) (selector : Ty) (label : SwitchLabel)
    (value : Value) : CaseElement → Prop where
  | taken {element : CaseElement} (isUnguarded : label.isUnguarded = true)
      (takes : Takes context bindings world selector element value) :
      Counts world selector label value element
  /-- The components of a record are not looked at. -/
  | ofRecord {record : WrittenType} {patterns : List Pattern} {span : Span}
      (isUnguarded : label.isUnguarded = true)
      (suits : world.Suits value (bindings.typeOf record)) :
      Counts world selector label value (.pattern (.record record patterns span))
  /-- The guard of a constant is not looked at. -/
  | constant {constant : Expression}
      (takes : Takes context bindings world selector (.constant constant) value) :
      Counts world selector label value (.constant constant)

/-! ### What the walk makes of the labels -/

def Reflects (selector : Ty) : CaseElement → CaseSelector → Prop
  | .default _, selected => selected = .default
  | .null _, selected => selected = .null
  | .pattern pattern, selected => selected = selectPattern bindings pattern
  | .constant value, selected =>
    ∃ type known, selected = .constant type known (denotedConstant? context bindings selector value)

/-- What the rules for switches are told about an element and the guard of its label. -/
structure ReflectsEntry (selector : Ty) (element : SwitchLabel × CaseElement)
    (entry : CaseEntry) : Prop where
  selected : Reflects context bindings selector element.2 entry.selector
  guard : entry.isUnguarded = element.1.isUnguarded

structure ReflectsLabel (selector : Ty) (label : SwitchLabel) (summary : LabelSummary) : Prop where
  selected : Forall₂ (fun element entry => Reflects context bindings selector element entry.1)
    label.elements summary.selectors
  guard : (summary.guard.all fun guard => guard.constant == some true) = label.isUnguarded

def ReflectsCase (selector : Ty) (case : SwitchCase) (summary : CaseSummary) : Prop :=
  Forall₂ (ReflectsLabel context bindings selector) case.labels summary.labels

section Yields

variable {α β : Type} {step : Attributor α} {next : α → Attributor β} {property : α → Prop}
  {result : β → Prop}

def Yields (step : Attributor α) (property : α → Prop) : Prop :=
  ∀ state, property (step.run state).1

theorem Yields.pure {value : α} (holds : property value) :
    Yields (Pure.pure value : Attributor α) property :=
  fun _ => holds

theorem Yields.bind (first : Yields step property)
    (second : ∀ value, property value → Yields (next value) result) :
    Yields (step >>= next) result :=
  fun state => second _ (first state) _

theorem Yields.after (second : ∀ value, Yields (next value) result) :
    Yields (step >>= next) result :=
  fun _ => second _ _

end Yields

variable {context bindings} {place : Place} {selector : Ty} (cases : List SwitchCase)

theorem selectName_yields {span : Span} :
    Yields (selectName context place selector name span) fun selected =>
      ∃ type known, selected = .constant type known (namedConstant? context selector name) := by
  unfold selectName namedConstant?
  cases (selector.key?.bind context.path.type?).filter KnownType.isEnum with
  | none =>
    dsimp only [Option.bind_none]
    split
    · exact .after fun _ => .pure ⟨_, _, rfl⟩
    · exact .pure ⟨_, _, rfl⟩
  | some type =>
    dsimp only [Option.bind_some]
    by_cases isListed : type.enumConstants.contains name = true
    · rw [if_pos isListed, if_pos isListed]
      exact .pure ⟨_, _, rfl⟩
    · rw [if_neg isListed, if_neg isListed]
      exact .after fun _ => .pure ⟨_, _, rfl⟩

theorem attributeCaseElements_yields {elements : List CaseElement} :
    Yields (attributeCaseElements context bindings place selector elements)
      (Forall₂ (fun element entry => Reflects context bindings selector element entry.1)
        elements) := by
  induction elements with
  | nil => exact .pure .nil
  | cons element rest ih =>
    cases element with
    | default | null | pattern =>
      exact ih.bind fun more listed => .pure (.cons rfl listed)
    | constant value =>
      rw [attributeCaseElements]
      cases isOpen : openCaseName? bindings value with
      | some named =>
        refine selectName_yields.bind fun selected isSelected =>
          ih.bind fun more listed => .pure (.cons ?_ listed)
        obtain ⟨type, known, rfl⟩ := isSelected
        refine ⟨type, known, ?_⟩
        unfold denotedConstant?
        rw [isOpen]
      | none =>
        refine .after fun type => ih.bind fun more listed =>
          .pure (.cons ⟨type, value.closedConstant?, ?_⟩ listed)
        unfold denotedConstant?
        rw [isOpen]
        rfl

theorem attributeLabel_yields (label : SwitchLabel) :
    Yields (attributeLabel context bindings place selector label)
      (ReflectsLabel context bindings selector label) := by
  obtain ⟨elements, guard, span⟩ := label
  refine attributeCaseElements_yields.bind fun _ listed => .after fun _ => .pure ⟨listed, ?_⟩
  cases guard <;> rfl

theorem attributeLabels_yields (labels : List SwitchLabel) :
    Yields (attributeLabels context bindings place selector labels)
      (Forall₂ (ReflectsLabel context bindings selector) labels) := by
  induction labels with
  | nil => exact .pure .nil
  | cons label rest ih =>
    exact (attributeLabel_yields label).bind fun summary reflects =>
      ih.bind fun more listed => .pure (.cons reflects listed)

theorem attributeCases_yields :
    Yields (attributeCases context bindings place selector cases)
      (Forall₂ (ReflectsCase context bindings selector) cases) := by
  induction cases with
  | nil => exact .pure .nil
  | cons case rest ih =>
    cases case with
    | group labels statements span =>
      exact (attributeLabels_yields labels).bind fun summaries reflects => .after fun _ =>
        ih.bind fun more listed => .pure (.cons reflects listed)
    | _ =>
      exact (attributeLabel_yields _).bind fun summary reflects => .after fun _ =>
        ih.bind fun more listed => .pure (.cons (.cons reflects .nil) listed)

theorem reflectsEntry_of_label {label : SwitchLabel} {summary : LabelSummary}
    (reflects : ReflectsLabel context bindings selector label summary)
    (isSelected : ∀ selected, (entry selected).selector = selected.1)
    (isGuarded : ∀ selected, (entry selected).guard = summary.guard) :
    Forall₂ (ReflectsEntry context bindings selector)
      (label.elements.map (Prod.mk label)) (summary.selectors.map entry) := by
  rw [forall₂_map_left_iff, forall₂_map_right_iff]
  refine reflects.selected.imp fun element selected isReflected => ⟨?_, ?_⟩
  · rw [isSelected]
    exact isReflected
  · rw [← reflects.guard, ← isGuarded selected]
    unfold CaseEntry.isUnguarded
    cases (entry selected).guard <;> rfl

theorem reflectsEntry_of_labels {case : CaseSummary}
    (reflects : Forall₂ (ReflectsLabel context bindings selector) labels summaries) :
    Forall₂ (ReflectsEntry context bindings selector)
      (labels.flatMap fun label => label.elements.map (Prod.mk label))
      (case.entriesOf fallsInto summaries number isFirst) := by
  induction reflects generalizing number isFirst with
  | nil => exact .nil
  | cons first _ ih =>
    exact rel_append (reflectsEntry_of_label first (fun _ => rfl) (fun _ => rfl)) ih

theorem reflectsEntry_of_cases {cases : List SwitchCase}
    (reflects : Forall₂ (ReflectsCase context bindings selector) cases summaries) :
    Forall₂ (ReflectsEntry context bindings selector) (SwitchCase.elements cases)
      (SwitchSummary.entriesOf summaries number fallsInto) := by
  unfold SwitchCase.elements
  induction reflects generalizing number fallsInto with
  | nil => exact .nil
  | cons first _ ih =>
    exact rel_append (reflectsEntry_of_labels first) ih

theorem exists_of_mem_right {α β : Type} {related : α → β → Prop} {left : List α} {right : List β}
    (pairs : Forall₂ related left right) {second : β} (isRight : second ∈ right) :
    ∃ first ∈ left, related first second := by
  obtain ⟨⟨index, isIndex⟩, rfl⟩ := mem_iff_get.mp isRight
  have isLeft : index < left.length := pairs.length_eq ▸ isIndex
  exact ⟨_, get_mem .., pairs.get isLeft isIndex⟩

theorem exists_of_mem_left {α β : Type} {related : α → β → Prop} {left : List α} {right : List β}
    (pairs : Forall₂ related left right) {first : α} (isLeft : first ∈ left) :
    ∃ second ∈ right, related first second :=
  exists_of_mem_right (Forall₂.flip pairs) isLeft

/-! ### Switches -/

def attributeSwitch (context : UnitContext) (bindings : Bindings) (place : Place)
    (isExpression : Bool) (expected : Option Ty) (selector : Expression) (cases : List SwitchCase)
    (keywordSpan span : Span) : Attributor Unit :=
  if isExpression then
    discard (attributeExpression context bindings place expected
      (.switch selector cases keywordSpan span))
  else attributeStatement context bindings place (.switch selector cases keywordSpan span)

def typeFound (context : UnitContext) (bindings : Bindings) (place : Place)
    (expression : Expression) (before : AttributionState) : Ty :=
  ((attributeExpression context bindings place none expression).run before).1

theorem exists_summary (context : UnitContext) (bindings : Bindings) (place : Place)
    (isExpression : Bool) (expected : Option Ty) (selector : Expression) (cases : List SwitchCase)
    (keywordSpan span : Span) (before : AttributionState) :
    ∃ summary : SwitchSummary, summary.isExpression = isExpression ∧
      summary.selector = typeFound context bindings place selector before ∧
      summary.keywordSpan = keywordSpan ∧
      Forall₂ (ReflectsEntry context bindings summary.selector) (SwitchCase.elements cases)
        summary.entries ∧
      ∀ problem ∈ summary.problems context.path context.configuration,
        (.switch problem.1, problem.2) ∈ ((attributeSwitch context bindings place isExpression
          expected selector cases keywordSpan span).run before).2.problems := by
  let found := (attributeExpression context bindings place none selector).run before
  let labelled := (attributeCases context bindings place found.1 cases).run found.2
  let summary : SwitchSummary :=
    { isExpression, selector := found.1, keywordSpan, cases := labelled.1 }
  refine ⟨summary, rfl, rfl, rfl,
    reflectsEntry_of_cases (attributeCases_yields cases found.2), fun problem isProblem => ?_⟩
  have isRun : ((attributeSwitch context bindings place isExpression expected selector cases
      keywordSpan span).run before).2 = ((reportSwitch context summary).run labelled.2).2 := by
    cases isExpression <;> rfl
  rw [isRun]
  refine mem_append_left _ (mem_reverse.mpr ?_)
  exact mem_map_of_mem isProblem

end Attributor

theorem SwitchSummary.exists_problem_of_incomplete {summary : SwitchSummary} {path : ClassPath}
    (noDefault : ∀ entry ∈ summary.entries, entry.selector.isDefault = false)
    (isChecked : summary.isExpression = true ∨ ∃ entry ∈ summary.entries, entry.selector.isPattern
      = true ∨ entry.selector.isNull = true)
    (isIncomplete : summary.isExhaustive path = some false) :
    ∃ problem, (problem, summary.keywordSpan) ∈ summary.problems path config ∧
      (problem.category = .switchExpressionMustHaveDefault ∨
        problem.category = .enhancedSwitchMustBeExhaustive) := by
  have hasNone : summary.entries.any (fun entry => entry.selector.isDefault) = false := by
    rw [any_eq_false]
    exact fun entry isEntry => Bool.eq_false_iff.mp (noDefault entry isEntry)
  have listed : ∀ problem, problem ∈ summary.missingCases path config →
      problem ∈ summary.problems path config :=
    fun problem => mem_append_right _
  unfold missingCases at listed
  rw [hasNone, isIncomplete] at listed
  cases isExpression : summary.isExpression with
  | true =>
    rw [isExpression] at listed
    exact ⟨_, listed _ mem_cons_self, .inl rfl⟩
  | false =>
    have isEnhanced : summary.isEnhanced path config = true := by
      obtain ⟨entry, isEntry, isSuch⟩ :=
        isChecked.resolve_left (Bool.eq_false_iff.mp isExpression)
      unfold SwitchSummary.isEnhanced
      rw [Bool.or_eq_true]
      refine .inl (any_eq_true.mpr ⟨entry, isEntry, ?_⟩)
      rw [Bool.or_eq_true]
      exact isSuch
    rw [isExpression, isEnhanced] at listed
    exact ⟨_, listed _ mem_cons_self, .inr rfl⟩

namespace World

theorem suits_of_erasure {path : ClassPath} {world : World path} {value : Value} {type : Ty}
    (isClass : type.key?.isSome = true) (suits : world.Suits value type.erasure) :
    world.Suits value type := by
  cases type with
  | «class» key arguments =>
    cases value with
    | primitive kind => cases suits
    | _ => exact suits
  | _ => cases isClass

end World

namespace Attributor

variable {context : UnitContext} {bindings : Bindings} {selector : Ty} {element : CaseElement}
  {cases : List SwitchCase} {label : SwitchLabel}

section Reflects

variable {selected : CaseSelector} (reflects : Reflects context bindings selector element selected)

include reflects

theorem isDefault_of_reflects : selected.isDefault = element.isDefault := by
  cases element with
  | pattern pattern =>
    cases pattern <;> (cases reflects; rfl)
  | constant value =>
    obtain ⟨type, known, rfl⟩ := reflects
    rfl
  | _ =>
    cases reflects
    rfl

theorem isPattern_or_isNull_of_reflects
    (isSuch : element.pattern?.isSome = true ∨ element.isNull = true) :
    selected.isPattern = true ∨ selected.isNull = true := by
  cases element with
  | pattern pattern => cases pattern <;> (cases reflects; exact .inl rfl)
  | null span =>
    cases reflects
    exact .inr rfl
  | default | constant => rcases isSuch with isSuch | isSuch <;> cases isSuch

theorem pattern_of_reflects (isPattern : selected.patternType? = some type) :
    ∃ pattern, element = .pattern pattern ∧ type = bindings.typeOf pattern.writtenType := by
  cases element with
  | pattern pattern => cases pattern <;> (cases reflects; cases isPattern; exact ⟨_, rfl, rfl⟩)
  | constant value =>
    obtain ⟨_, _, rfl⟩ := reflects
    cases isPattern
  | _ =>
    cases reflects
    cases isPattern

end Reflects

theorem constant_of_reflects
    (reflects : Reflects context bindings selector element (.constant type known denoted)) :
    ∃ value, element = .constant value ∧
      denoted = denotedConstant? context bindings selector value := by
  cases element with
  | pattern pattern => cases pattern <;> cases reflects
  | constant value =>
    obtain ⟨_, _, isSelected⟩ := reflects
    cases isSelected
    exact ⟨value, rfl, rfl⟩
  | _ => cases reflects

theorem mem_elements (isCase : case ∈ cases) (isLabel : label ∈ case.labels)
    (isElement : element ∈ label.elements) : (label, element) ∈ SwitchCase.elements cases :=
  mem_flatMap.mpr ⟨case, isCase, mem_flatMap.mpr ⟨label, isLabel, mem_map_of_mem isElement⟩⟩

theorem exists_of_mem_elements (isListed : (label, element) ∈ SwitchCase.elements cases) :
    ∃ case ∈ cases, label ∈ case.labels ∧ element ∈ label.elements := by
  obtain ⟨case, isCase, isInCase⟩ := mem_flatMap.mp isListed
  obtain ⟨other, isLabel, isInLabel⟩ := mem_flatMap.mp isInCase
  obtain ⟨_, isElement, rfl, rfl⟩ := mem_map.mp isInLabel
  exact ⟨case, isCase, isLabel, isElement⟩

theorem exists_element_of_any
    (isSuch : SwitchCase.anyPattern cases = true ∨ SwitchCase.anyNull cases = true) :
    ∃ pair ∈ SwitchCase.elements cases, pair.2.pattern?.isSome = true ∨ pair.2.isNull = true := by
  rcases isSuch with isSuch | isSuch
  · obtain ⟨case, isCase, isInCase⟩ := any_eq_true.mp isSuch
    obtain ⟨label, isLabel, isInLabel⟩ := any_eq_true.mp isInCase
    obtain ⟨pattern, isPattern⟩ : ∃ pattern, pattern ∈ label.patterns :=
      exists_mem_of_ne_nil _ (by simpa using isInLabel)
    obtain ⟨element, isElement, isOf⟩ := mem_filterMap.mp isPattern
    exact ⟨_, mem_elements isCase isLabel isElement, .inl (Option.isSome_of_eq_some isOf)⟩
  · obtain ⟨case, isCase, isInCase⟩ := any_eq_true.mp isSuch
    obtain ⟨label, isLabel, isInLabel⟩ := any_eq_true.mp isInCase
    obtain ⟨element, isElement, isNull⟩ := any_eq_true.mp isInLabel
    exact ⟨_, mem_elements isCase isLabel isElement, .inr isNull⟩

theorem exists_element_of_takes {summary : SwitchSummary}
    (reflects : Forall₂ (ReflectsEntry context bindings selector) (SwitchCase.elements cases)
      summary.entries)
    (resolved : ∀ label element, (label, element) ∈ SwitchCase.elements cases →
      ∀ pattern, element = .pattern pattern →
        (bindings.typeOf pattern.writtenType).key?.isSome = true)
    {path : ClassPath} {world : World path} {value : Value}
    (takes : summary.coveredValues.Takes world value) :
    ∃ label element, (label, element) ∈ SwitchCase.elements cases ∧
      Counts context bindings world selector label value element := by
  rcases takes with ⟨pattern, isPattern, _, suits⟩ | ⟨constant, isConstant, rfl⟩
  · obtain ⟨entry, isEntry, isOf⟩ := mem_filterMap.mp isPattern
    obtain ⟨⟨label, element⟩, isElement, reflected⟩ := exists_of_mem_right reflects isEntry
    obtain ⟨isUnguarded, isTested⟩ := Option.ite_none_right_eq_some.mp isOf
    obtain ⟨type, isType, rfl⟩ := Option.map_eq_some_iff.mp isTested
    obtain ⟨pattern, rfl, rfl⟩ := pattern_of_reflects reflected.selected isType
    have isClass := resolved label _ isElement pattern rfl
    have suits := World.suits_of_erasure isClass suits
    rw [reflected.guard] at isUnguarded
    refine ⟨label, _, isElement, ?_⟩
    cases pattern with
    | type tested => exact .taken isUnguarded (.inr suits)
    | record tested patterns span => exact .ofRecord isUnguarded suits
  · obtain ⟨entry, isEntry, isOf⟩ := mem_filterMap.mp isConstant
    obtain ⟨⟨label, element⟩, isElement, reflected⟩ := exists_of_mem_right reflects isEntry
    have selected := reflected.selected
    cases isSelected : entry.selector with
    | constant type known denoted =>
      rw [isSelected] at isOf selected
      obtain ⟨value, rfl, rfl⟩ := constant_of_reflects selected
      exact ⟨label, _, isElement, .constant ⟨_, _, isOf, rfl⟩⟩
    | _ =>
      rw [isSelected] at isOf
      cases isOf

/-- A switch expression, or a switch statement with a pattern or `null`, that has no default and is
not reported to leave values out, is attributed in a place where the type of its selector and those
of its patterns are known. For every value of the selector some element of some label is counted:
an element of an unguarded label that takes the value, a record pattern for whose record the value
is tested but perhaps not its components, or a constant that is the value but may be guarded. -/
theorem attributeSwitch_covers (context : UnitContext) (bindings : Bindings) (place : Place)
    (isExpression : Bool) (expected : Option Ty) (selector : Expression) (cases : List SwitchCase)
    (keywordSpan span : Span) (before : AttributionState) (key : String)
    (isDeterminate : (typeFound context bindings place selector before).isIndeterminate = false)
    (isClass : (typeFound context bindings place selector before).boxed.key? = some key)
    (isKnown : context.path.knows key = true)
    (resolved : ∀ label element, (label, element) ∈ SwitchCase.elements cases →
      ∀ pattern, element = .pattern pattern →
        (bindings.typeOf pattern.writtenType).key?.isSome = true)
    (noDefault : SwitchCase.anyDefault cases = false)
    (isChecked : isExpression = true ∨ SwitchCase.anyPattern cases = true ∨
      SwitchCase.anyNull cases = true)
    (isAccepted : ∀ problem, (.switch problem, keywordSpan) ∈ ((attributeSwitch context bindings
        place isExpression expected selector cases keywordSpan span).run before).2.problems →
      problem.category ≠ .switchExpressionMustHaveDefault ∧
        problem.category ≠ .enhancedSwitchMustBeExhaustive)
    (world : World context.path) (value : Value) (isValue : world.Instance value key) :
    ∃ label element, (label, element) ∈ SwitchCase.elements cases ∧
      Counts context bindings world (typeFound context bindings place selector before) label value
        element := by
  obtain ⟨summary, rfl, isSelector, rfl, reflects, listed⟩ := exists_summary context bindings place
    isExpression expected selector cases keywordSpan span before
  rw [← isSelector] at isDeterminate isClass ⊢
  refine exists_element_of_takes reflects resolved
    (SwitchSummary.takes_of_isExhaustive_ne_false world isDeterminate isClass isKnown ?_ isValue)
  intro isIncomplete
  have noEntry : ∀ entry ∈ summary.entries, entry.selector.isDefault = false := by
    intro entry isEntry
    obtain ⟨⟨label, element⟩, isElement, reflected⟩ := exists_of_mem_right reflects isEntry
    obtain ⟨case, isCase, isLabel, isInLabel⟩ := exists_of_mem_elements isElement
    rw [isDefault_of_reflects reflected.selected]
    have noLabel := any_eq_false.mp (Bool.eq_false_iff.mpr
      (any_eq_false.mp noDefault case isCase)) label isLabel
    exact Bool.eq_false_iff.mpr
      (any_eq_false.mp (Bool.eq_false_iff.mpr noLabel) element isInLabel)
  have isSeen : summary.isExpression = true ∨ ∃ entry ∈ summary.entries,
      entry.selector.isPattern = true ∨ entry.selector.isNull = true := by
    refine isChecked.imp_right fun isSuch => ?_
    obtain ⟨pair, isElement, isSuch⟩ := exists_element_of_any isSuch
    obtain ⟨entry, isEntry, reflected⟩ := exists_of_mem_left reflects isElement
    exact ⟨entry, isEntry, isPattern_or_isNull_of_reflects reflected.selected isSuch⟩
  obtain ⟨problem, isProblem, isSuch⟩ :=
    SwitchSummary.exists_problem_of_incomplete noEntry isSeen isIncomplete
  have isNeither := isAccepted problem (listed _ isProblem)
  exact isSuch.elim isNeither.1 isNeither.2

def boxPath : ClassPath where
  type? key := if key = "Box" then some { key, kind := .record, isFinal := true } else none
  hasPackage _ := false

theorem eq_of_boxPath {key : String} (isKnown : boxPath.type? key = some type) :
    type = { key := "Box", kind := .record, isFinal := true } := by
  obtain ⟨rfl, isType⟩ := Option.ite_none_right_eq_some.mp isKnown
  exact (Option.some.inj isType).symm

def boxWorld : World boxPath where
  Extends _ super := super = "java.lang.Object"
  known {sub super} step := by
    by_cases isBox : sub = "Box"
    · subst isBox
      exact mem_singleton.mp step
    · have isUnknown : boxPath.type? sub = none := if_neg isBox
      have noSupers : boxPath.superKeys sub = [] := by
        refine boxPath.superKeys_of_unknown sub ?_
        unfold ClassPath.knows
        rw [isUnknown]
        rfl
      rw [ClassPath.Extends, noSupers] at step
      cases step
  rooted key := .single rfl
  permitted isKnown isSealed := by
    rw [eq_of_boxPath isKnown] at isSealed
    cases isSealed
  apart isKnown _ isEnum := by
    rw [eq_of_boxPath isKnown] at isEnum
    cases isEnum

def boxPlace : Place where
  frames :=
    [{ key := "Box", type := boxPath.type? "Box", isStaticType := true
       typeParameters := [], fieldOffsets := [], blankFinals := [] }]

def boxContext : UnitContext where
  configuration := {}
  declared := .ofUnits [] boxPath
  names := { package := none, imports := [], path := boxPath }
  file := ""

def spanAt (offset : Nat) : Span :=
  .point ⟨1, offset, offset⟩

def boxCases : List SwitchCase :=
  [.valueRule ⟨[.pattern (.record (.simple "Box" (spanAt 0))
    [.type ⟨[], .simple "String" (spanAt 1), "text", spanAt 2, spanAt 1⟩] (spanAt 0))], none,
    spanAt 0⟩ (.this none (spanAt 3)) (spanAt 0)]

def boxBindings : Bindings :=
  { writtenTypes := [(0, .ofKey "Box"), (1, .string)] }

/-- A switch on a record is accepted whose only case looks for a text in the record. The check
counts the case for a record that holds something else, but the case does not take it. -/
theorem attributeSwitch_covers_box :
    (∃ label element, (label, element) ∈ SwitchCase.elements boxCases ∧
      Counts boxContext boxBindings boxWorld (.ofKey "Box") label
        (.object "Box" [.object "Number" []]) element) ∧
    ∀ label element, (label, element) ∈ SwitchCase.elements boxCases →
      ¬ Takes boxContext boxBindings boxWorld (.ofKey "Box") element
        (.object "Box" [.object "Number" []]) := by
  constructor
  · have isConcrete : boxWorld.Concrete "Box" := by
      refine ⟨fun type isKnown => ?_, fun super type isKnown _ => ?_⟩
      · rw [eq_of_boxPath isKnown]
        exact ⟨rfl, rfl⟩
      · rw [eq_of_boxPath isKnown]
        rfl
    refine attributeSwitch_covers boxContext boxBindings boxPlace true none (.this none (spanAt 3))
      boxCases (spanAt 4) (spanAt 4) { symbols := #[] } "Box" rfl rfl rfl ?_ rfl (.inl rfl) ?_
      boxWorld _ (.object _ isConcrete .refl)
    · intro label element isElement pattern isPattern
      cases isElement with
      | head =>
        cases isPattern
        rfl
      | tail _ isLater => cases isLater
    · intro problem isProblem
      cases isProblem
  · intro label element isElement takes
    cases isElement with
    | tail _ isLater => cases isLater
    | head =>
      obtain ⟨key, components, isObject, _, isMatched⟩ := takes
      cases isObject
      rcases isMatched.1 with isInferred | ⟨super, isText, reaches⟩
      · cases isInferred
      · cases isText
        rcases Relation.ReflTransGen.cases_tail reaches with isSame | ⟨_, _, isRoot⟩
        · exact absurd isSame (by decide)
        · have isObject : "java.lang.String" = "java.lang.Object" := isRoot
          exact absurd isObject (by decide)

end Attributor

end JavaFrontEnd
