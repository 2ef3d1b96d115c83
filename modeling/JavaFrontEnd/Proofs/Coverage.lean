/-
Which classes are covered by what labels select. A class is covered if a pattern selects it, if it
is an enum whose constants are all selected, or if it is an abstract sealed type whose permitted
subtypes are all covered. The search unfolds the graph of permitted subtypes into a tree, and it
finds a class to be covered exactly if it is and the tree is not too large
(`CoveredValues.covers_iff_covered`).
-/

import Mathlib.Logic.ExistsUnique
import JavaFrontEnd.Switch

namespace JavaFrontEnd

open List

namespace KnownType

def IsListed (type : KnownType) : Prop :=
  type.isEnum = true ∧ type.enumConstants ≠ []

structure IsDivided (type : KnownType) : Prop where
  notListed : ¬ type.IsListed
  isSealed : type.isSealed = true
  isOpen : type.isAbstract = true ∨ type.isInterface = true
  permits : type.permits ≠ []

instance (type : KnownType) : Decidable type.IsListed :=
  inferInstanceAs (Decidable (_ ∧ _))

theorem isDivided_iff (type : KnownType) :
    type.IsDivided ↔ ¬ type.IsListed ∧ type.isSealed = true ∧
      (type.isAbstract = true ∨ type.isInterface = true) ∧ type.permits ≠ [] :=
  ⟨fun ⟨notListed, isSealed, isOpen, permits⟩ => ⟨notListed, isSealed, isOpen, permits⟩,
    fun ⟨notListed, isSealed, isOpen, permits⟩ => ⟨notListed, isSealed, isOpen, permits⟩⟩

instance (type : KnownType) : Decidable type.IsDivided :=
  decidable_of_iff' _ type.isDivided_iff

end KnownType

namespace CoveredValues

variable (covered : CoveredValues) (path : ClassPath)

inductive Covered : String → Prop where
  | ofPattern {key : String} {pattern : Ty} (isPattern : pattern ∈ covered.patterns)
      (isSubtype : path.isSubtype (.ofKey key) pattern = some true) : Covered key
  | ofConstants {key : String} {type : KnownType} (isKnown : path.type? key = some type)
      (isListed : type.IsListed)
      (areSelected : ∀ name ∈ type.enumConstants, (key, name) ∈ covered.constants) : Covered key
  | ofPermitted {key : String} {type : KnownType} (isKnown : path.type? key = some type)
      (isDivided : type.IsDivided)
      (areCovered : ∀ permitted ∈ type.permits, Covered permitted) : Covered key

def unfolded (key : String) : List String :=
  if covered.selects path key then []
  else (((path.type? key).filter fun type => type.IsDivided).map KnownType.permits).getD []

/-- The number of classes in the trees below some classes, these included. A class that is
permitted at several places is counted at each of them. Where the graph of permitted subtypes leads
back to where it came from, the tree has no end and there is no number. -/
inductive Calls : List String → Nat → Prop where
  | nil : Calls [] 0
  | cons {key : String} {rest : List String} {below later : Nat}
      (inside : Calls (covered.unfolded path key) below) (after : Calls rest later) :
      Calls (key :: rest) (below + later + 1)

variable {covered path} {keys others : List String} {key : String}

/-! ### The tree below a class -/

theorem Calls.append (calls : Calls covered path keys first)
    (more : Calls covered path others second) :
    Calls covered path (keys ++ others) (first + second) := by
  induction calls with
  | nil => rwa [Nat.zero_add]
  | @cons key rest below later inside _ _ ih =>
    have isSum : below + later + 1 + second = below + (later + second) + 1 := by omega
    rw [isSum]
    exact .cons inside ih

theorem Calls.of_append (calls : Calls covered path (keys ++ others) total) :
    ∃ first second, first + second = total ∧ Calls covered path keys first ∧
      Calls covered path others second := by
  induction keys generalizing total with
  | nil => exact ⟨0, total, Nat.zero_add total, .nil, calls⟩
  | cons key rest ih =>
    cases calls with
    | @cons _ _ below later inside after =>
      obtain ⟨first, second, rfl, own, more⟩ := ih after
      exact ⟨below + first + 1, second, by omega, .cons inside own, more⟩

theorem Calls.unique (calls : Calls covered path keys first)
    (others : Calls covered path keys second) : first = second := by
  induction calls generalizing second with
  | nil =>
    cases others
    rfl
  | cons _ _ sameInside sameAfter =>
    cases others with
    | cons inside after => rw [sameInside inside, sameAfter after]

theorem unfolded_of_selects (isSelected : covered.selects path key = true) :
    covered.unfolded path key = [] :=
  if_pos isSelected

theorem unfolded_of_known (notSelected : ¬ covered.selects path key = true)
    (isKnown : path.type? key = some type) :
    covered.unfolded path key = if type.IsDivided then type.permits else [] := by
  unfold unfolded
  rw [if_neg notSelected, isKnown, Option.filter_some]
  by_cases isDivided : type.IsDivided
  · rw [if_pos (decide_eq_true isDivided), if_pos isDivided]
    rfl
  · rw [if_neg (by simpa using isDivided), if_neg isDivided]
    rfl

/-! ### One step of the search -/

theorem selects_iff : covered.selects path key = true ↔
    ∃ pattern ∈ covered.patterns, path.isSubtype (.ofKey key) pattern = some true := by
  unfold selects
  rw [any_eq_true]
  exact exists_congr fun pattern => and_congr_right fun _ => beq_iff_eq

/-- A class is not covered unless a pattern selects it, its constants are selected, or it is divided
into its permitted subtypes. -/
def IsPlausible (covered : CoveredValues) (path : ClassPath) (key : String) : Prop :=
  covered.selects path key = true ∨ ∃ type, path.type? key = some type ∧
    (type.IsListed ∧ (∀ name ∈ type.enumConstants, (key, name) ∈ covered.constants) ∨
      type.IsDivided)

theorem coversAll_cons_iff :
    covered.coversAll path (steps + 1) (key :: rest) = true ↔ covered.IsPlausible path key ∧
        covered.coversAll path steps (covered.unfolded path key ++ rest) = true := by
  rw [coversAll, IsPlausible]
  by_cases isSelected : covered.selects path key = true
  · rw [if_pos isSelected, unfolded_of_selects isSelected, nil_append]
    exact (and_iff_right (.inl isSelected)).symm
  rw [if_neg isSelected]
  cases isKnown : path.type? key with
  | none => simp [isSelected]
  | some type =>
  rw [unfolded_of_known isSelected isKnown]
  by_cases isListed : type.IsListed
  · have notDivided : ¬ type.IsDivided := fun isDivided => isDivided.notListed isListed
    have isTested : (type.isEnum && !type.enumConstants.isEmpty) = true := by
      simpa [KnownType.IsListed] using isListed
    dsimp only
    rw [if_pos isTested, if_neg notDivided, nil_append, Bool.and_eq_true, all_eq_true]
    simp [isSelected, isListed, notDivided]
  have notTested : ¬ (type.isEnum && !type.enumConstants.isEmpty) = true := by
    simpa [KnownType.IsListed] using isListed
  have isTested : (type.isSealed && !type.permits.isEmpty &&
      (type.isAbstract || type.isInterface)) = true ↔ type.IsDivided := by
    rw [KnownType.isDivided_iff]
    simp [isListed, and_assoc, and_comm]
  dsimp only
  rw [if_neg notTested]
  by_cases isDivided : type.IsDivided
  · rw [if_pos (isTested.mpr isDivided), if_pos isDivided]
    simp [isSelected, isDivided]
  · rw [if_neg (fun isSuch => isDivided (isTested.mp isSuch)), if_neg isDivided]
    simp [isSelected, isListed, isDivided]

theorem Covered.isPlausible (isCovered : Covered covered path key) :
    covered.IsPlausible path key := by
  cases isCovered with
  | ofPattern isPattern isSubtype => exact .inl (selects_iff.mpr ⟨_, isPattern, isSubtype⟩)
  | ofConstants isKnown isListed areSelected =>
    exact .inr ⟨_, isKnown, .inl ⟨isListed, areSelected⟩⟩
  | ofPermitted isKnown isDivided _ => exact .inr ⟨_, isKnown, .inr isDivided⟩

theorem mem_unfolded_iff :
    permitted ∈ covered.unfolded path key ↔ ¬ covered.selects path key = true ∧
      ∃ type, path.type? key = some type ∧ type.IsDivided ∧ permitted ∈ type.permits := by
  by_cases isSelected : covered.selects path key = true
  · simp [unfolded_of_selects isSelected, isSelected]
  cases isKnown : path.type? key with
  | none => simp [unfolded, isKnown]
  | some type =>
    rw [unfolded_of_known isSelected isKnown]
    by_cases isDivided : type.IsDivided <;> simp [isSelected, isDivided]

theorem Covered.induction_unfolded {motive : String → Prop} (isCovered : Covered covered path key)
    (step : ∀ other, covered.IsPlausible path other →
      (∀ permitted ∈ covered.unfolded path other, motive permitted) → motive other) :
    motive key := by
  induction isCovered with
  | ofPattern isPattern isSubtype =>
    have isSelected := selects_iff.mpr ⟨_, isPattern, isSubtype⟩
    refine step _ (.inl isSelected) fun permitted isUnfolded => ?_
    exact absurd isSelected (mem_unfolded_iff.mp isUnfolded).1
  | ofConstants isKnown isListed areSelected =>
    refine step _ (.inr ⟨_, isKnown, .inl ⟨isListed, areSelected⟩⟩) fun permitted isUnfolded => ?_
    obtain ⟨_, type, isSame, isDivided, _⟩ := mem_unfolded_iff.mp isUnfolded
    obtain rfl := Option.some.inj (isKnown.symm.trans isSame)
    exact absurd isListed isDivided.notListed
  | ofPermitted isKnown isDivided _ ih =>
    refine step _ (.inr ⟨_, isKnown, .inr isDivided⟩) fun permitted isUnfolded => ?_
    obtain ⟨_, type, isSame, _, isPermitted⟩ := mem_unfolded_iff.mp isUnfolded
    obtain rfl := Option.some.inj (isKnown.symm.trans isSame)
    exact ih permitted isPermitted

theorem covered_iff : Covered covered path key ↔
    covered.IsPlausible path key ∧
      ∀ permitted ∈ covered.unfolded path key, Covered covered path permitted := by
  refine ⟨fun isCovered => ⟨isCovered.isPlausible, fun permitted isUnfolded => ?_⟩, ?_⟩
  · obtain ⟨notSelected, type, isKnown, isDivided, isPermitted⟩ := mem_unfolded_iff.mp isUnfolded
    cases isCovered with
    | ofPattern isPattern isSubtype =>
      exact absurd (selects_iff.mpr ⟨_, isPattern, isSubtype⟩) notSelected
    | ofConstants isSame isListed _ =>
      obtain rfl := Option.some.inj (isKnown.symm.trans isSame)
      exact absurd isListed isDivided.notListed
    | ofPermitted isSame _ areCovered =>
      obtain rfl := Option.some.inj (isKnown.symm.trans isSame)
      exact areCovered permitted isPermitted
  · rintro ⟨isPlausible, areCovered⟩
    by_cases isSelected : covered.selects path key = true
    · obtain ⟨pattern, isPattern, isSubtype⟩ := selects_iff.mp isSelected
      exact .ofPattern isPattern isSubtype
    obtain ⟨type, isKnown, ⟨isListed, areSelected⟩ | isDivided⟩ :=
      isPlausible.resolve_left isSelected
    · exact .ofConstants isKnown isListed areSelected
    · exact .ofPermitted isKnown isDivided fun permitted isPermitted =>
        areCovered permitted (mem_unfolded_iff.mpr
          ⟨isSelected, type, isKnown, isDivided, isPermitted⟩)

/-! ### The whole search -/

theorem exists_calls_of_forall (each : ∀ key ∈ keys, ∃ calls, Calls covered path [key] calls) :
    ∃ calls, Calls covered path keys calls := by
  induction keys with
  | nil => exact ⟨0, .nil⟩
  | cons key rest ih =>
    obtain ⟨first, own⟩ := each key mem_cons_self
    obtain ⟨second, more⟩ :=
      ih fun other isOther => each other (mem_cons_of_mem key isOther)
    exact ⟨first + second, own.append more⟩

theorem Covered.exists_calls (isCovered : Covered covered path key) :
    ∃ calls, Calls covered path [key] calls := by
  refine isCovered.induction_unfolded
    (motive := fun other => ∃ calls, Calls covered path [other] calls) fun other _ each => ?_
  obtain ⟨below, inside⟩ := exists_calls_of_forall each
  exact ⟨below + 0 + 1, .cons inside .nil⟩

theorem Covered.not_mem_unfolded (isCovered : Covered covered path key) :
    key ∉ covered.unfolded path key := by
  intro isUnfolded
  refine isCovered.induction_unfolded (motive := fun other => other ≠ key)
    (fun other _ each => ?_) rfl
  rintro rfl
  exact each other isUnfolded rfl

theorem coversAll_iff :
    covered.coversAll path steps keys = true ↔ (∀ key ∈ keys, Covered covered path key) ∧
        ∃ calls ≤ steps, Calls covered path keys calls := by
  induction steps generalizing keys with
  | zero =>
    cases keys with
    | nil => exact iff_of_true rfl ⟨forall_mem_nil _, 0, Nat.le_refl 0, .nil⟩
    | cons key rest =>
      have noCalls : ∀ calls ≤ 0, ¬ Calls covered path (key :: rest) calls := by
        intro calls isNone counted
        cases counted
        omega
      simp only [coversAll, Bool.false_eq_true, false_iff, not_and, not_exists]
      exact fun _ => noCalls
  | succ steps ih =>
    cases keys with
    | nil => exact iff_of_true rfl ⟨forall_mem_nil _, 0, Nat.zero_le _, .nil⟩
    | cons key rest =>
      rw [coversAll_cons_iff, ih, forall_mem_cons, covered_iff, forall_mem_append]
      have sameBudget : (∃ calls ≤ steps,
            Calls covered path (covered.unfolded path key ++ rest) calls) ↔
          ∃ calls ≤ steps + 1, Calls covered path (key :: rest) calls := by
        constructor
        · rintro ⟨_, isWithin, counted⟩
          obtain ⟨below, later, rfl, inside, after⟩ := counted.of_append
          exact ⟨below + later + 1, Nat.succ_le_succ isWithin, .cons inside after⟩
        · rintro ⟨_, isWithin, counted⟩
          cases counted with
          | @cons _ _ below later inside after =>
            exact ⟨below + later, Nat.le_of_succ_le_succ isWithin, inside.append after⟩
      rw [sameBudget, and_assoc, and_assoc, and_assoc]

/-- A class is found to be covered exactly if it is covered and the tree of permitted subtypes below
it has no more classes than may be looked at. The tree below a class that is covered is always
finite. -/
theorem covers_iff_covered (covered : CoveredValues) (path : ClassPath) (key : String) :
    (covered.covers path key = true ↔ Covered covered path key ∧
      ∃ calls ≤ hierarchySteps, Calls covered path [key] calls) ∧
    (Covered covered path key → ∃! calls, Calls covered path [key] calls) := by
  constructor
  · unfold covers
    rw [coversAll_iff, forall_mem_singleton]
  · intro isCovered
    obtain ⟨calls, counted⟩ := isCovered.exists_calls
    exact ⟨calls, counted, fun _ others => others.unique counted⟩

def roundType : KnownType :=
  { key := "Round", kind := .interface, isSealed := true, permits := ["Disc", "Ring"] }

def suitType : KnownType :=
  { key := "Suit", kind := .enum, enumConstants := ["HEART", "SPADE"] }

def shapeType : KnownType :=
  { key := "Shape", kind := .interface, isSealed := true, permits := ["Round", "Suit", "Round"] }

/-- Among the sealed types are one that is permitted twice and one that permits itself. -/
def shapePath : ClassPath where
  type? key := [shapeType, roundType, suitType,
    { key := "Knot", kind := .interface, isSealed := true, permits := ["Knot"] }].find? fun type =>
      type.key == key
  hasPackage _ := false

def shapeLabels : CoveredValues where
  patterns := [.ofKey "Disc", .ofKey "Ring"]
  constants := [("Suit", "SPADE"), ("Suit", "HEART")]

theorem covered_shape : Covered shapeLabels shapePath "Shape" := by
  have discs : Covered shapeLabels shapePath "Disc" := .ofPattern mem_cons_self rfl
  have rings : Covered shapeLabels shapePath "Ring" := .ofPattern (.tail _ mem_cons_self) rfl
  have rounds : Covered shapeLabels shapePath "Round" :=
    @Covered.ofPermitted _ _ _ roundType rfl (by decide) (by simpa [roundType] using ⟨discs, rings⟩)
  have suits : Covered shapeLabels shapePath "Suit" :=
    @Covered.ofConstants _ _ _ suitType rfl (by decide) (by decide)
  exact @Covered.ofPermitted _ _ _ shapeType rfl (by decide)
    (by simpa [shapeType] using ⟨rounds, suits, rounds⟩)

/-- A shape is covered; a type that permits nothing but itself is not. -/
theorem covers_iff_covered_shape :
    (Covered shapeLabels shapePath "Shape" ∧
      ∃! calls, Calls shapeLabels shapePath ["Shape"] calls) ∧
    shapeLabels.covers shapePath "Knot" = false := by
  refine ⟨⟨covered_shape, (covers_iff_covered _ _ _).2 covered_shape⟩, Bool.eq_false_iff.mpr ?_⟩
  intro isFound
  have isCovered := ((covers_iff_covered shapeLabels shapePath "Knot").1.mp isFound).1
  exact isCovered.not_mem_unfolded (by decide)

end CoveredValues

end JavaFrontEnd
