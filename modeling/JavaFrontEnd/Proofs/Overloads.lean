/-
Which method a call chooses. A method stands in a phase when no comparison with another applicable
one fails; a method that stands alone is chosen. Where none or several stand, the choice is
ambiguous or undecided, and it is undecided when some comparison was left open before one failed:
here the order of the candidates shows.
-/

import Mathlib.Data.List.Forall2
import Mathlib.Data.List.Pairwise
import Mathlib.Logic.ExistsUnique
import JavaFrontEnd.Types.Conversion

namespace JavaFrontEnd

open List

namespace KnownMethod

variable (path : ClassPath)

/-! ### Applicable methods -/

/-- A method accepts arguments in a phase: what it is given for each parameter may be of its type.
A method with a variable number of arguments takes the arguments beyond its other parameters as
elements of the last one. -/
def Applies (arguments : List Ty) (method : KnownMethod) : Phase → Prop
  | .strict => Forall₂ (fun parameter argument =>
      path.isSubtype argument parameter ≠ some false) method.parameters arguments
  | .loose => Forall₂ (fun parameter argument =>
      path.isAssignable argument parameter ≠ some false) method.parameters arguments
  | .variadic => method.variadic = true ∧
    Forall₂ (fun parameter argument => path.isAssignable argument parameter ≠ some false)
      method.parameters.dropLast (arguments.take method.parameters.dropLast.length) ∧
    ∀ argument ∈ arguments.drop method.parameters.dropLast.length,
      path.isAssignable argument (method.lastElement?.getD .unknown) ≠ some false

theorem forall₂_take_iff {α β : Type} (relation : α → β → Prop) (first : List α)
    (second : List β) : Forall₂ relation first (second.take first.length) ↔
      first.length ≤ second.length ∧ ∀ pair ∈ first.zip second, relation pair.1 pair.2 := by
  induction first generalizing second with
  | nil => simp
  | cons head rest ih =>
    cases second with
    | nil => simp
    | cons other others => simp [ih, and_left_comm]

theorem isApplicable_iff (arguments : List Ty) (phase : Phase) (method : KnownMethod) :
    isApplicable path arguments phase method = true ↔ method.Applies path arguments phase := by
  cases phase with
  | strict | loose =>
    simp only [isApplicable, Applies, accepts, forall₂_iff_zip, Bool.and_eq_true, beq_iff_eq,
      all_eq_true, bne_iff_ne, Prod.forall]
  | variadic =>
    have fixed : method.parameters.length - 1 = method.parameters.dropLast.length :=
      length_dropLast.symm
    have room : method.parameters.length ≤ arguments.length + 1 ↔
        method.parameters.dropLast.length ≤ arguments.length := by omega
    have front : method.parameters.take method.parameters.dropLast.length =
        method.parameters.dropLast := by rw [← fixed, dropLast_eq_take]
    simp only [isApplicable, Applies, accepts, forall₂_take_iff, fixed, front, room, and_assoc,
      Bool.and_eq_true, decide_eq_true_eq, all_eq_true, bne_iff_ne, Prod.forall]

/-! ### Comparing two methods -/

/-- Two parameters that stand at one place of two methods compare in some way. -/
def Compares (phase : Phase) (first second : KnownMethod) (answer : Option Bool) : Prop :=
  ∃ place < max first.parameters.length second.parameters.length,
    ∃ one ∈ first.parameterAt? phase place, ∃ other ∈ second.parameterAt? phase place,
      path.isSubtype one other = answer

theorem isMoreSpecific_eq (phase : Phase) (first second : KnownMethod) :
    (first.isMoreSpecific path phase second = some false ↔
      Compares path phase first second (some false)) ∧
    (first.isMoreSpecific path phase second = none ↔
      ¬ Compares path phase first second (some false) ∧ Compares path phase first second none) := by
  unfold isMoreSpecific
  dsimp only
  generalize isAnswers : filterMap _ (range _) = answers
  have compares : ∀ answer, answers.contains answer = true ↔
      Compares path phase first second answer := by
    intro answer
    rw [← isAnswers, contains_iff_mem, mem_filterMap]
    constructor
    · rintro ⟨place, isPlace, isAnswer⟩
      split at isAnswer
      next one other isOne isOther =>
        exact ⟨place, mem_range.mp isPlace, one, isOne, other, isOther, Option.some.inj isAnswer⟩
      · cases isAnswer
    · rintro ⟨place, isPlace, one, isOne, other, isOther, rfl⟩
      refine ⟨place, mem_range.mpr isPlace, ?_⟩
      rw [Option.mem_def.mp isOne, Option.mem_def.mp isOther]
  rw [← compares, ← compares]
  cases answers.contains (some false) <;> cases answers.contains none <;> simp

end KnownMethod

namespace Selection

open KnownMethod

variable {path : ClassPath} {phase : Phase} {method : KnownMethod}
  {methods candidates reordered : List KnownMethod} {arguments : List Ty}

/-! ### Methods that stand -/

def Meets (path : ClassPath) (phase : Phase) (methods : List KnownMethod) (method : KnownMethod)
    (answer : Option Bool) : Prop :=
  ∃ other ∈ methods, other ≠ method ∧ method.isMoreSpecific path phase other = answer

/-- A method of a list for which no comparison with another one fails. -/
def Stands (path : ClassPath) (phase : Phase) (methods : List KnownMethod)
    (method : KnownMethod) : Prop :=
  method ∈ methods ∧ ¬ Meets path phase methods method (some false)

theorem stands_singleton (path : ClassPath) (phase : Phase) (only method : KnownMethod) :
    Stands path phase [only] method ↔ method = only := by
  unfold Stands Meets
  simp only [mem_singleton]
  constructor
  · exact fun stands => stands.1
  · rintro rfl
    exact ⟨rfl, fun ⟨_, same, different, _⟩ => different same⟩

theorem exists_eq_singleton (isInhabited : methods ≠ []) (few : ¬ 1 < methods.length) :
    ∃ only, methods = [only] := by
  refine length_eq_one_iff.mp ?_
  have := length_pos_iff.mpr isInhabited
  omega

/-- When a method is compared with others in their order, a comparison is left open before one
fails. -/
def OpensFirst (path : ClassPath) (phase : Phase) (method : KnownMethod)
    (others : List KnownMethod) : Prop :=
  ∃ before other after, others = before ++ other :: after ∧
    method.isMoreSpecific path phase other = none ∧
    ∀ earlier ∈ before, method.isMoreSpecific path phase earlier ≠ some false

theorem comparison_fst (path : ClassPath) (phase : Phase) (method : KnownMethod)
    (others : List KnownMethod) : (comparison path phase method others).1 = true ↔
      ∀ other ∈ others, method.isMoreSpecific path phase other ≠ some false := by
  induction others with
  | nil => simp [comparison]
  | cons other rest ih =>
    rw [comparison, forall_mem_cons, ← ih]
    split <;> simp_all

theorem opensFirst_cons (other : KnownMethod) (rest : List KnownMethod) :
    OpensFirst path phase method (other :: rest) ↔ method.isMoreSpecific path phase other = none ∨
        method.isMoreSpecific path phase other ≠ some false ∧
          OpensFirst path phase method rest := by
  constructor
  · rintro ⟨before, found, after, isList, isOpen, isClear⟩
    cases before with
    | nil =>
      obtain ⟨rfl, rfl⟩ := cons.inj isList
      exact Or.inl isOpen
    | cons head before =>
      obtain ⟨rfl, rfl⟩ := cons.inj isList
      obtain ⟨headClear, restClear⟩ := forall_mem_cons.mp isClear
      exact Or.inr ⟨headClear, before, found, after, rfl, isOpen, restClear⟩
  · rintro (isOpen | ⟨headClear, before, found, after, rfl, isOpen, restClear⟩)
    · exact ⟨[], other, rest, rfl, isOpen, forall_mem_nil _⟩
    · exact ⟨other :: before, found, after, rfl, isOpen, forall_mem_cons.mpr ⟨headClear, restClear⟩⟩

theorem comparison_snd (path : ClassPath) (phase : Phase) (method : KnownMethod)
    (others : List KnownMethod) : (comparison path phase method others).2 = true ↔
      OpensFirst path phase method others := by
  induction others with
  | nil => simp [comparison, OpensFirst]
  | cons other rest ih =>
    rw [comparison, opensFirst_cons, ← ih]
    split <;> simp_all

theorem maximal_eq (path : ClassPath) (phase : Phase) (before methods : List KnownMethod)
    (nodup : (before.reverse ++ methods).Nodup) :
    maximal path phase before methods = (methods.filter fun method =>
        (comparison path phase method ((before.reverse ++ methods).erase method)).1,
      methods.any fun method =>
        (comparison path phase method ((before.reverse ++ methods).erase method)).2) := by
  induction methods generalizing before with
  | nil => rfl
  | cons method rest ih =>
    have isFresh : method ∉ before.reverse := fun isEarlier =>
      (nodup_append.mp nodup).2.2 method isEarlier method mem_cons_self rfl
    have own : (before.reverse ++ method :: rest).erase method = before.reverse ++ rest := by
      rw [erase_append_right _ isFresh, erase_cons_head]
    have whole : (method :: before).reverse ++ rest = before.reverse ++ method :: rest := by simp
    rw [maximal, ih (method :: before) (whole ▸ nodup), whole, filter_cons, any_cons, own]

theorem mem_maximal_iff (nodup : methods.Nodup) :
    method ∈ (maximal path phase [] methods).1 ↔ Stands path phase methods method := by
  rw [maximal_eq path phase [] methods nodup, mem_filter, comparison_fst, Stands, Meets]
  simp only [reverse_nil, nil_append, nodup.mem_erase_iff]
  refine and_congr_right fun _ => ⟨?_, ?_⟩
  · rintro isClear ⟨other, isOther, isDifferent, fails⟩
    exact isClear other ⟨isDifferent, isOther⟩ fails
  · rintro none other ⟨isDifferent, isOther⟩ fails
    exact none ⟨other, isOther, isDifferent, fails⟩

/-- Some method of a list is compared with the others so that a comparison is left open before one
fails. -/
def LeavesOpen (path : ClassPath) (phase : Phase) (methods : List KnownMethod) : Prop :=
  ∃ method ∈ methods, OpensFirst path phase method (methods.erase method)

theorem maximal_snd_iff (nodup : methods.Nodup) :
    (maximal path phase [] methods).2 = true ↔ LeavesOpen path phase methods := by
  rw [maximal_eq path phase [] methods nodup, any_eq_true]
  simp only [comparison_snd]
  rfl

/-! ### The most specific method -/

def Distinct (methods : List KnownMethod) : Prop :=
  methods.Pairwise fun first second => first.erasedParameters ≠ second.erasedParameters

theorem Distinct.nodup (distinct : Distinct methods) : methods.Nodup :=
  distinct.imp fun different same => different (congrArg erasedParameters same)

theorem Distinct.maximal (distinct : Distinct methods) :
    Distinct (Selection.maximal path phase [] methods).1 := by
  rw [maximal_eq path phase [] methods distinct.nodup]
  exact distinct.sublist filter_sublist

theorem mostSpecific_of_unique (distinct : Distinct methods)
    (unique : ∀ other, Stands path phase methods other ↔ other = method) :
    mostSpecific path phase methods = .found method phase := by
  have isBest : (maximal path phase [] methods).1 = [method] := by
    rw [← perm_singleton, perm_ext_iff_of_nodup distinct.maximal.nodup (by simp)]
    intro other
    rw [mem_maximal_iff distinct.nodup, unique, mem_singleton]
  unfold mostSpecific
  generalize maximal path phase [] methods = result at isBest ⊢
  obtain ⟨best, isOpen⟩ := result
  obtain rfl : best = [method] := isBest
  rfl

/-- A choice fails: it is undecided where something is left open, and ambiguous otherwise. -/
def Fails (isOpen : Prop) (selection : Selection) : Prop :=
  isOpen ∧ selection = .undecided ∨ ¬ isOpen ∧ ∃ rivals, selection = .ambiguous rivals

theorem mostSpecific_of_contested (distinct : Distinct methods)
    (contested : ¬ ∃! method, Stands path phase methods method) :
    Fails (LeavesOpen path phase methods) (mostSpecific path phase methods) := by
  rw [← maximal_snd_iff distinct.nodup]
  unfold mostSpecific
  have isDistinct := @Distinct.maximal path phase methods distinct
  have stands := fun method => @mem_maximal_iff path phase method methods distinct.nodup
  generalize maximal path phase [] methods = result at isDistinct stands
  obtain ⟨best, isOpen⟩ := result
  cases best with
  | nil => cases isOpen <;> simp [Fails]
  | cons first rest =>
    cases rest with
    | nil =>
      refine absurd ⟨first, (stands first).mp mem_cons_self, fun other isOther => ?_⟩ contested
      exact mem_singleton.mp ((stands other).mpr isOther)
    | cons second rest =>
      have differs : second.erasedParameters ≠ first.erasedParameters :=
        ((pairwise_cons.mp isDistinct).1 second mem_cons_self).symm
      cases isOpen <;> simp [Fails, differs]

/-! ### Phases -/

def rivals (path : ClassPath) (arguments : List Ty) (phase : Phase)
    (candidates : List KnownMethod) : List KnownMethod :=
  candidates.filter (isApplicable path arguments phase)

theorem Distinct.rivals (distinct : Distinct candidates) :
    Distinct (Selection.rivals path arguments phase candidates) :=
  distinct.sublist filter_sublist

def firstPhase? (path : ClassPath) (candidates : List KnownMethod) (arguments : List Ty)
    (phases : List Phase) : Option Phase :=
  phases.find? fun phase => candidates.any (isApplicable path arguments phase)

theorem firstPhase?_cons (phase : Phase) (later : List Phase) :
    firstPhase? path candidates arguments (phase :: later) =
      if rivals path arguments phase candidates = [] then
        firstPhase? path candidates arguments later
      else some phase := by
  unfold firstPhase? rivals
  rw [find?_cons]
  cases isAny : candidates.any (isApplicable path arguments phase) with
  | true =>
    obtain ⟨method, isCandidate, applies⟩ := any_eq_true.mp isAny
    rw [if_neg fun none => filter_eq_nil_iff.mp none method isCandidate applies]
  | false => rw [if_pos (filter_eq_nil_iff.mpr (any_eq_false.mp isAny))]

def phases : List Phase :=
  [.strict, .loose, .variadic]

def settle (path : ClassPath) (arguments : List Ty) (phase : Phase) : List KnownMethod → Selection
  | [method] => .found method phase
  | methods =>
    if arguments.any Ty.isIndeterminate then .undecided else mostSpecific path phase methods

theorem settle_of_several (several : 1 < methods.length) :
    settle path arguments phase methods =
      if arguments.any Ty.isIndeterminate then .undecided else mostSpecific path phase methods := by
  obtain _ | ⟨first, _ | ⟨second, rest⟩⟩ := methods
  · cases several
  · exact absurd several (Nat.lt_irrefl 1)
  · rfl

theorem settle_of_unique (distinct : Distinct methods)
    (fair : methods.length = 1 ∨ arguments.any Ty.isIndeterminate = false)
    (unique : ∀ other, Stands path phase methods other ↔ other = method) :
    settle path arguments phase methods = .found method phase := by
  have isMember := ((unique method).mpr rfl).1
  by_cases several : 1 < methods.length
  · rw [settle_of_several several, fair.resolve_left (by omega), if_neg Bool.false_ne_true]
    exact mostSpecific_of_unique distinct unique
  · obtain ⟨only, rfl⟩ := exists_eq_singleton (ne_nil_of_mem isMember) several
    rw [mem_singleton.mp isMember]
    rfl

theorem settle_of_contested (distinct : Distinct methods) (isInhabited : methods ≠ [])
    (determinate : arguments.any Ty.isIndeterminate = false)
    (contested : ¬ ∃! method, Stands path phase methods method) :
    Fails (LeavesOpen path phase methods) (settle path arguments phase methods) := by
  have several : 1 < methods.length := by
    by_contra few
    obtain ⟨only, rfl⟩ := exists_eq_singleton isInhabited few
    exact contested ⟨only, (stands_singleton path phase only only).mpr rfl,
      fun other => (stands_singleton path phase only other).mp⟩
  rw [settle_of_several several, determinate, if_neg Bool.false_ne_true]
  exact mostSpecific_of_contested distinct contested

theorem inPhases_eq (phases : List Phase) : inPhases path candidates arguments phases =
    ((firstPhase? path candidates arguments phases).map fun phase =>
      settle path arguments phase (rivals path arguments phase candidates)).getD
        .notApplicable := by
  induction phases with
  | nil => rfl
  | cons phase later ih =>
    rw [inPhases, firstPhase?_cons]
    by_cases isEmpty : rivals path arguments phase candidates = []
    · rw [if_pos isEmpty, ← ih]
      rw [rivals] at isEmpty
      rw [isEmpty]
    · rw [if_neg isEmpty, Option.map_some, Option.getD_some]
      unfold rivals at isEmpty ⊢
      generalize candidates.filter (isApplicable path arguments phase) = found at isEmpty ⊢
      obtain _ | ⟨first, _ | ⟨second, rest⟩⟩ := found
      · exact absurd rfl isEmpty
      · rfl
      · rfl

theorem among_eq (isInhabited : candidates ≠ []) : among path candidates arguments =
    ((firstPhase? path candidates arguments phases).map fun phase =>
      settle path arguments phase (rivals path arguments phase candidates)).getD
        .notApplicable := by
  rw [among, if_neg (by simpa using isInhabited)]
  exact inPhases_eq phases

theorem among_of_some (isFirst : firstPhase? path candidates arguments phases = some phase) :
    rivals path arguments phase candidates ≠ [] ∧
    among path candidates arguments =
      settle path arguments phase (rivals path arguments phase candidates) := by
  obtain ⟨method, isCandidate, applies⟩ := any_eq_true.mp (find?_some
    (p := fun phase => candidates.any (isApplicable path arguments phase)) isFirst)
  rw [among_eq (ne_nil_of_mem isCandidate), isFirst]
  exact ⟨ne_nil_of_mem (mem_filter.mpr ⟨isCandidate, applies⟩), rfl⟩

/-! ### What is chosen -/

theorem maximal_sublist (before : List KnownMethod) :
    (maximal path phase before methods).1 <+ methods := by
  induction methods generalizing before with
  | nil => exact .slnil
  | cons first rest ih =>
    rw [maximal]
    dsimp only
    split
    · exact (ih _).cons_cons _
    · exact (ih _).cons _

theorem mem_of_mostSpecific (isFound : mostSpecific path phase methods = .found method chosen) :
    method ∈ methods ∧ chosen = phase := by
  have isSublist := @maximal_sublist path phase methods []
  unfold mostSpecific at isFound
  generalize maximal path phase [] methods = result at isFound isSublist
  obtain ⟨best, isOpen⟩ := result
  dsimp only at isFound isSublist
  split at isFound
  · cases isFound
    exact ⟨isSublist.subset mem_cons_self, rfl⟩
  · split at isFound <;> cases isFound
  next first rest _ =>
    split at isFound
    · cases isFound
      refine ⟨isSublist.subset ?_, rfl⟩
      cases isWhole : (first :: rest).find? fun method => !method.isAbstract with
      | none => exact mem_cons_self
      | some other => exact mem_of_find?_eq_some isWhole
    · split at isFound <;> cases isFound

theorem mem_of_settle (isFound : settle path arguments phase methods = .found method chosen) :
    method ∈ methods ∧ chosen = phase := by
  unfold settle at isFound
  split at isFound
  · cases isFound
    exact ⟨mem_cons_self, rfl⟩
  · split at isFound
    · cases isFound
    · exact mem_of_mostSpecific isFound

theorem mem_of_among (isFound : among path candidates arguments = .found method phase) :
    method ∈ rivals path arguments phase candidates := by
  have isInhabited : candidates ≠ [] := by
    rintro rfl
    cases isFound
  rw [among_eq isInhabited] at isFound
  cases isFirst : firstPhase? path candidates arguments phases with
  | none => rw [isFirst] at isFound; cases isFound
  | some first =>
    rw [isFirst] at isFound
    obtain ⟨isMember, rfl⟩ := mem_of_settle isFound
    exact isMember

/-! ### The order of the candidates -/

/-- The same method is chosen in the same phase, or the choice fails in the same way. -/
inductive Agrees : Selection → Selection → Prop
  | found (method : KnownMethod) (phase : Phase) :
    Agrees (.found method phase) (.found method phase)
  | ambiguous (methods others : List KnownMethod) : Agrees (.ambiguous methods) (.ambiguous others)
  | notApplicable : Agrees .notApplicable .notApplicable
  | undecided : Agrees .undecided .undecided
  | noCandidates : Agrees .noCandidates .noCandidates

theorem Agrees.refl (selection : Selection) : Agrees selection selection := by
  cases selection <;> constructor

def Differs (first second : Selection) : Prop :=
  ∃ methods, first = .undecided ∧ second = .ambiguous methods ∨
    first = .ambiguous methods ∧ second = .undecided

/-- The applicable candidates are compared, and not exactly one of them stands. -/
def Contested (path : ClassPath) (arguments : List Ty) (candidates : List KnownMethod)
    (phase : Phase) : Prop :=
  firstPhase? path candidates arguments phases = some phase ∧
    arguments.any Ty.isIndeterminate = false ∧
    ¬ ∃! method, Stands path phase (rivals path arguments phase candidates) method

theorem among_of_contested (distinct : Distinct candidates)
    (contested : Contested path arguments candidates phase) :
    Fails (LeavesOpen path phase (rivals path arguments phase candidates))
      (among path candidates arguments) := by
  obtain ⟨isFirst, determinate, notUnique⟩ := contested
  obtain ⟨hasRivals, isChoice⟩ := among_of_some isFirst
  rw [isChoice]
  exact settle_of_contested distinct.rivals hasRivals determinate notUnique

variable (same : candidates.Perm reordered)
include same

theorem Distinct.perm (distinct : Distinct candidates) : Distinct reordered :=
  (same.pairwise_iff fun different => different.symm).mp distinct

theorem meets_perm : Meets path phase candidates method answer ↔
    Meets path phase reordered method answer := by
  unfold Meets
  simp only [same.mem_iff]

theorem stands_perm : Stands path phase candidates method ↔ Stands path phase reordered method := by
  unfold Stands
  rw [same.mem_iff, meets_perm same]

theorem rivals_perm : (rivals path arguments phase candidates).Perm
    (rivals path arguments phase reordered) :=
  same.filter _

theorem firstPhase?_perm (phases : List Phase) : firstPhase? path candidates arguments phases =
    firstPhase? path reordered arguments phases := by
  unfold firstPhase?
  simp only [same.any_eq]

theorem contested_perm : Contested path arguments candidates phase ↔
    Contested path arguments reordered phase := by
  unfold Contested
  rw [firstPhase?_perm same]
  simp only [stands_perm (rivals_perm same)]

theorem settle_perm (distinct : Distinct candidates) (isInhabited : candidates ≠ [])
    (uncontested : arguments.any Ty.isIndeterminate = false →
      ∃! method, Stands path phase candidates method) :
    settle path arguments phase reordered = settle path arguments phase candidates := by
  by_cases several : 1 < candidates.length
  · cases determinate : arguments.any Ty.isIndeterminate with
    | true =>
      rw [settle_of_several several, settle_of_several (same.length_eq ▸ several), determinate,
        if_pos rfl, if_pos rfl]
    | false =>
      obtain ⟨method, stands, isOnly⟩ := uncontested determinate
      have unique : ∀ other, Stands path phase candidates other ↔ other = method :=
        fun other => ⟨isOnly other, fun isMethod => isMethod ▸ stands⟩
      rw [settle_of_unique distinct (Or.inr determinate) unique]
      exact settle_of_unique (distinct.perm same) (Or.inr determinate)
        fun other => (stands_perm same).symm.trans (unique other)
  · obtain ⟨only, rfl⟩ := exists_eq_singleton isInhabited several
    rw [singleton_perm.mp same]

theorem among_perm (distinct : Distinct candidates)
    (uncontested : ∀ phase, ¬ Contested path arguments candidates phase) :
    among path reordered arguments = among path candidates arguments := by
  by_cases isEmpty : candidates = []
  · subst isEmpty
    rw [nil_perm.mp same]
  · have isInhabited : reordered ≠ [] := fun none => isEmpty (perm_nil.mp (none ▸ same))
    rw [among_eq isEmpty, among_eq isInhabited, ← firstPhase?_perm same]
    cases isFirst : firstPhase? path candidates arguments phases with
    | none => rfl
    | some phase =>
      refine settle_perm (rivals_perm same) distinct.rivals (among_of_some isFirst).1 ?_
      intro determinate
      by_contra notUnique
      exact uncontested phase ⟨isFirst, determinate, notUnique⟩

omit same

theorem leavesOpen_of_stands (nodup : methods.Nodup) (stands : Stands path phase methods method)
    (isOpen : Meets path phase methods method none) : LeavesOpen path phase methods := by
  obtain ⟨other, isOther, different, isOpen⟩ := isOpen
  obtain ⟨before, after, isSplit⟩ :=
    append_of_mem (nodup.mem_erase_iff.mpr ⟨different, isOther⟩)
  refine ⟨method, stands.1, before, other, after, isSplit, isOpen, ?_⟩
  intro earlier isEarlier fails
  have isRest : earlier ∈ methods.erase method := isSplit ▸ mem_append_left _ isEarlier
  obtain ⟨isDifferent, isMember⟩ := nodup.mem_erase_iff.mp isRest
  exact stands.2 ⟨earlier, isMember, isDifferent, fails⟩

theorem exists_meets_of_leavesOpen (nodup : methods.Nodup)
    (leavesOpen : LeavesOpen path phase methods) :
    ∃ method ∈ methods, Meets path phase methods method none := by
  obtain ⟨method, isMember, before, other, after, isSplit, isOpen, _⟩ := leavesOpen
  have isRest : other ∈ methods.erase method :=
    isSplit ▸ mem_append_right _ mem_cons_self
  obtain ⟨different, isOther⟩ := nodup.mem_erase_iff.mp isRest
  exact ⟨method, isMember, other, isOther, different, isOpen⟩

theorem leavesOpen_iff_of_clear (nodup : methods.Nodup)
    (clear : (∃ method, Stands path phase methods method ∧ Meets path phase methods method none) ∨
      ∀ method ∈ methods, Meets path phase methods method none →
        ¬ Meets path phase methods method (some false)) :
    LeavesOpen path phase methods ↔ ∃ method ∈ methods, Meets path phase methods method none := by
  refine ⟨exists_meets_of_leavesOpen nodup, fun isOpen => ?_⟩
  rcases clear with ⟨method, stands, isOpen⟩ | clear
  · exact leavesOpen_of_stands nodup stands isOpen
  · obtain ⟨method, isMember, isOpen⟩ := isOpen
    exact leavesOpen_of_stands nodup ⟨isMember, clear method isMember isOpen⟩ isOpen

theorem Fails.agrees_iff (one : Fails isOpen first) (other : Fails isOpenToo second) :
    (Agrees first second ↔ (isOpen ↔ isOpenToo)) ∧
      (¬ Agrees first second → Differs first second) := by
  rcases one with ⟨holds, rfl⟩ | ⟨fails, methods, rfl⟩ <;>
    rcases other with ⟨holdsToo, rfl⟩ | ⟨failsToo, others, rfl⟩
  · exact ⟨iff_of_true .undecided (iff_of_true holds holdsToo), fun differ =>
      absurd .undecided differ⟩
  · exact ⟨iff_of_false nofun fun both => failsToo (both.mp holds), fun _ =>
      ⟨others, Or.inl ⟨rfl, rfl⟩⟩⟩
  · exact ⟨iff_of_false nofun fun both => fails (both.mpr holdsToo), fun _ =>
      ⟨methods, Or.inr ⟨rfl, rfl⟩⟩⟩
  · exact ⟨iff_of_true (.ambiguous _ _) (iff_of_false fails failsToo), fun differ =>
      absurd (.ambiguous _ _) differ⟩

/-- For candidates with different erased parameter types, the order has no part in which method is
chosen in which phase, nor in whether the choice fails for want of an applicable candidate. Only an
undecided choice may be ambiguous in another order. This happens exactly if not one applicable
candidate alone stands, and in one of the orders, but not in the other, some candidate is left open
against another one before it fails against a third. It does not happen if some candidate that
stands is left open, nor if no candidate both is left open and fails. -/
theorem among_agrees_iff (path : ClassPath) (arguments : List Ty)
    (candidates reordered : List KnownMethod) (distinct : Distinct candidates)
    (same : candidates.Perm reordered) :
    (Agrees (among path candidates arguments) (among path reordered arguments) ↔
      ∀ phase, Contested path arguments candidates phase →
        (LeavesOpen path phase (rivals path arguments phase candidates) ↔
          LeavesOpen path phase (rivals path arguments phase reordered))) ∧
    (¬ Agrees (among path candidates arguments) (among path reordered arguments) →
      Differs (among path candidates arguments) (among path reordered arguments)) ∧
    ((∀ phase, Contested path arguments candidates phase →
        (∃ method, Stands path phase (rivals path arguments phase candidates) method ∧
          Meets path phase (rivals path arguments phase candidates) method none) ∨
        ∀ method ∈ rivals path arguments phase candidates,
          Meets path phase (rivals path arguments phase candidates) method none →
          ¬ Meets path phase (rivals path arguments phase candidates) method (some false)) →
      Agrees (among path candidates arguments) (among path reordered arguments)) := by
  have failures := fun phase contested => (@among_of_contested path phase candidates arguments
    distinct contested).agrees_iff
      (among_of_contested (distinct.perm same) ((contested_perm same).mp contested))
  have agreement : Agrees (among path candidates arguments) (among path reordered arguments) ↔
      ∀ phase, Contested path arguments candidates phase →
        (LeavesOpen path phase (rivals path arguments phase candidates) ↔
          LeavesOpen path phase (rivals path arguments phase reordered)) := by
    constructor
    · exact fun agrees phase contested => (failures phase contested).1.mp agrees
    · intro both
      by_cases contested : ∃ phase, Contested path arguments candidates phase
      · obtain ⟨phase, contested⟩ := contested
        exact (failures phase contested).1.mpr (both phase contested)
      · rw [among_perm same distinct (not_exists.mp contested)]
        exact .refl _
  refine ⟨agreement, fun differ => ?_, fun clear => agreement.mpr fun phase contested => ?_⟩
  · by_contra none
    have sameChoice := among_perm same distinct fun phase contested =>
      none ((failures phase contested).2 differ)
    exact differ (sameChoice ▸ .refl _)
  · have sameRivals : (rivals path arguments phase candidates).Perm
        (rivals path arguments phase reordered) := rivals_perm same
    have isClear := clear phase contested
    rw [leavesOpen_iff_of_clear distinct.rivals.nodup isClear]
    simp only [stands_perm sameRivals, meets_perm sameRivals, sameRivals.mem_iff] at isClear ⊢
    exact (leavesOpen_iff_of_clear (distinct.perm same).rivals.nodup isClear).symm

def binary (first second : Ty) : KnownMethod :=
  { name := "m", parameters := [first, second], result := .void, owner := "C" }

/-- Two classes that have nothing in common but the class of all objects. -/
def twoClasses : ClassPath where
  type? key :=
    if ["A", "B", "java.lang.Object"].contains key then some { key, kind := .class } else none
  hasPackage _ := false

def binaries : List KnownMethod :=
  [binary (.ofKey "A") (.ofKey "A"), binary (.ofKey "B") (.ofKey "B"),
    binary (.variable "T") .object]

/-- A call of these methods with two null references is ambiguous in one order and undecided in
another. The first two are left open against the generic one, but only if they are not compared
with each other before. -/
theorem among_agrees_iff_binaries :
    among twoClasses binaries [.null, .null] = .ambiguous (binaries.take 2) ∧
    among twoClasses (binaries.rotate 2) [.null, .null] = .undecided ∧
    ¬ ∀ phase, Contested twoClasses [.null, .null] binaries phase →
      (LeavesOpen twoClasses phase (rivals twoClasses [.null, .null] phase binaries) ↔
        LeavesOpen twoClasses phase
          (rivals twoClasses [.null, .null] phase (binaries.rotate 2))) := by
  have isAmbiguous : among twoClasses binaries [.null, .null] = .ambiguous (binaries.take 2) := by
    decide
  have isUndecided : among twoClasses (binaries.rotate 2) [.null, .null] = .undecided := by
    decide
  have distinct : Distinct binaries := by
    unfold Distinct
    decide
  have agreement := (among_agrees_iff twoClasses [.null, .null] binaries (binaries.rotate 2)
    distinct (by decide)).1
  exact ⟨isAmbiguous, isUndecided, agreement.not.mp nofun⟩

/-! ### The least method -/

def Corresponding (candidates : List KnownMethod) (one other : Ty) : Prop :=
  ∃ first ∈ candidates, ∃ second ∈ candidates, first ≠ second ∧
    (one, other) ∈ first.parameters.zip second.parameters

def Below (path : ClassPath) (first second : KnownMethod) : Prop :=
  Forall₂ (fun one other => path.isSubtype one other = some true) first.parameters
    second.parameters

/-- A candidate that is applicable in a phase and lies below every other one that is. -/
def IsLeast (path : ClassPath) (arguments : List Ty) (phase : Phase)
    (candidates : List KnownMethod) (method : KnownMethod) : Prop :=
  method ∈ candidates ∧ method.Applies path arguments phase ∧
    ∀ other ∈ candidates, other ≠ method → other.Applies path arguments phase →
      Below path method other

theorem mem_rivals_iff : method ∈ rivals path arguments phase candidates ↔
    method ∈ candidates ∧ method.Applies path arguments phase := by
  rw [rivals, mem_filter, isApplicable_iff]

theorem rivals_eq_nil_iff : rivals path arguments phase candidates = [] ↔
    ∀ method ∈ candidates, ¬ method.Applies path arguments phase := by
  simp only [eq_nil_iff_forall_not_mem, mem_rivals_iff, not_and]

theorem length_eq_of_applies (fixed : phase ≠ .variadic)
    (applies : method.Applies path arguments phase) :
    method.parameters.length = arguments.length := by
  cases phase with
  | strict | loose => exact Forall₂.length_eq applies
  | variadic => exact absurd rfl fixed

theorem compares_iff_of_fixed (fixed : phase ≠ .variadic) :
    Compares path phase first second answer ↔
      ∃ pair ∈ first.parameters.zip second.parameters, path.isSubtype pair.1 pair.2 = answer := by
  have parameterAt?_eq : ∀ (method : KnownMethod) (place : Nat),
      method.parameterAt? phase place = method.parameters[place]? := by
    simp [parameterAt?, fixed]
  simp only [Compares, parameterAt?_eq, Option.mem_def, mem_iff_getElem?, getElem?_zip_eq_some]
  constructor
  · rintro ⟨place, _, one, isOne, other, isOther, isAnswer⟩
    exact ⟨(one, other), ⟨place, isOne, isOther⟩, isAnswer⟩
  · rintro ⟨⟨one, other⟩, ⟨place, isOne, isOther⟩, isAnswer⟩
    obtain ⟨isPlace, _⟩ := List.getElem?_eq_some_iff.mp isOne
    exact ⟨place, Nat.lt_of_lt_of_le isPlace (Nat.le_max_left _ _), one, isOne, other,
      isOther, isAnswer⟩

section Decided

variable (fixed : phase ≠ .variadic)
  (decided : ∀ one other, Corresponding candidates one other → path.isSubtype one other ≠ none)
include fixed decided

theorem isMoreSpecific_ne_none (isFirst : first ∈ candidates) (isSecond : second ∈ candidates)
    (different : first ≠ second) : first.isMoreSpecific path phase second ≠ none := by
  intro isOpen
  obtain ⟨-, compares⟩ := (isMoreSpecific_eq path phase first second).2.mp isOpen
  obtain ⟨pair, isPair, isOpen⟩ := (compares_iff_of_fixed fixed).mp compares
  exact decided pair.1 pair.2 ⟨first, isFirst, second, isSecond, different, isPair⟩ isOpen

theorem isMoreSpecific_ne_false_iff (isFirst : first ∈ candidates) (isSecond : second ∈ candidates)
    (different : first ≠ second) (sameLength : first.parameters.length = second.parameters.length) :
    first.isMoreSpecific path phase second ≠ some false ↔ Below path first second := by
  rw [ne_eq, (isMoreSpecific_eq path phase first second).1, compares_iff_of_fixed fixed, Below,
    forall₂_iff_zip]
  constructor
  · intro none
    refine ⟨sameLength, fun {one other} isPair => ?_⟩
    have isDecided := decided one other ⟨first, isFirst, second, isSecond, different, isPair⟩
    cases isAnswer : path.isSubtype one other with
    | none => exact absurd isAnswer isDecided
    | some answer =>
      cases answer with
      | true => rfl
      | false => exact absurd ⟨(one, other), isPair, isAnswer⟩ none
  · rintro ⟨-, isBelow⟩ ⟨pair, isPair, fails⟩
    rw [isBelow isPair] at fails
    cases fails

theorem stands_iff_isLeast :
    Stands path phase (rivals path arguments phase candidates) method ↔
      IsLeast path arguments phase candidates method := by
  rw [Stands, IsLeast, mem_rivals_iff, and_assoc]
  refine and_congr_right fun isCandidate => and_congr_right fun applies => ?_
  have below : ∀ other ∈ candidates, other ≠ method → other.Applies path arguments phase →
      (method.isMoreSpecific path phase other ≠ some false ↔ Below path method other) := by
    intro other isOther different appliesToo
    refine isMoreSpecific_ne_false_iff fixed decided isCandidate isOther different.symm ?_
    rw [length_eq_of_applies fixed applies, length_eq_of_applies fixed appliesToo]
  constructor
  · intro none other isOther different appliesToo
    refine (below other isOther different appliesToo).mp fun fails => none ?_
    exact ⟨other, mem_rivals_iff.mpr ⟨isOther, appliesToo⟩, different, fails⟩
  · rintro isBelow ⟨other, isRival, different, fails⟩
    obtain ⟨isOther, appliesToo⟩ := mem_rivals_iff.mp isRival
    exact (below other isOther different appliesToo).mpr
      (isBelow other isOther different appliesToo) fails

theorem not_leavesOpen (distinct : Distinct candidates) :
    ¬ LeavesOpen path phase (rivals path arguments phase candidates) := by
  intro leavesOpen
  obtain ⟨method, isRival, other, isOther, different, isOpen⟩ :=
    exists_meets_of_leavesOpen distinct.rivals.nodup leavesOpen
  exact isMoreSpecific_ne_none fixed decided (mem_rivals_iff.mp isRival).1
    (mem_rivals_iff.mp isOther).1 different.symm isOpen

end Decided

section Antisymmetric

variable (distinct : Distinct candidates)
  (antisymmetric : ∀ one other, Corresponding candidates one other → path.isSubtype one other =
    some true → path.isSubtype other one = some true → one.erasure = other.erasure)
include antisymmetric

theorem erasedParameters_eq_of_below (isFirst : first ∈ candidates) (isSecond : second ∈ candidates)
    (different : first ≠ second) (below : Below path first second)
    (above : Below path second first) :
    first.erasedParameters = second.erasedParameters := by
  have sameErasure : Forall₂ (fun one other => Ty.erasure one = Ty.erasure other)
      first.parameters second.parameters := by
    refine forall₂_iff_zip.mpr ⟨below.length_eq, fun {one other} isPair => ?_⟩
    exact antisymmetric one other ⟨first, isFirst, second, isSecond, different, isPair⟩
      (forall₂_zip below isPair) (forall₂_zip above.flip isPair)
  unfold erasedParameters
  rw [← forall₂_eq_eq_eq, forall₂_map_left_iff, forall₂_map_right_iff]
  exact sameErasure

include distinct in
theorem IsLeast.eq (isLeast : IsLeast path arguments phase candidates method)
    (isLeastToo : IsLeast path arguments phase candidates other) : other = method := by
  by_contra different
  obtain ⟨isMember, applies, below⟩ := isLeast
  obtain ⟨isOther, appliesToo, above⟩ := isLeastToo
  have isSymmetric : Std.Symm fun one other : KnownMethod =>
      one.erasedParameters ≠ other.erasedParameters := ⟨fun _ _ => Ne.symm⟩
  refine Pairwise.forall distinct isOther isMember different ?_
  exact erasedParameters_eq_of_below antisymmetric isOther isMember different
    (above method isMember (Ne.symm different) applies) (below other isOther different appliesToo)

end Antisymmetric

theorem firstPhase?_of_fixed (isFirst : phase = .strict ∨ phase = .loose ∧
      ∀ method ∈ candidates, ¬ method.Applies path arguments .strict)
    (applies : ∃ method ∈ candidates, method.Applies path arguments phase) :
    firstPhase? path candidates arguments phases = some phase := by
  have hasRivals : rivals path arguments phase candidates ≠ [] := by
    rw [ne_eq, rivals_eq_nil_iff]
    obtain ⟨method, isCandidate, applies⟩ := applies
    exact fun none => none method isCandidate applies
  unfold phases
  rcases isFirst with rfl | ⟨rfl, none⟩
  · rw [firstPhase?_cons, if_neg hasRivals]
  · rw [firstPhase?_cons, if_pos (rivals_eq_nil_iff.mpr none), firstPhase?_cons, if_neg hasRivals]

theorem firstPhase?_eq_none_iff : firstPhase? path candidates arguments phases = none ↔
    ∀ phase, ∀ method ∈ candidates, ¬ method.Applies path arguments phase := by
  unfold firstPhase?
  simp only [find?_eq_none, any_eq_true, not_exists, not_and, isApplicable_iff]
  exact ⟨fun none phase => none phase (by cases phase <;> decide), fun none phase _ => none phase⟩

theorem settle_ne_notApplicable : settle path arguments phase methods ≠ .notApplicable := by
  unfold settle mostSpecific
  generalize maximal path phase [] _ = result
  repeat' split
  all_goals nofun

theorem among_eq_notApplicable_iff (isInhabited : candidates ≠ []) :
    among path candidates arguments = .notApplicable ↔
      ∀ phase, ∀ method ∈ candidates, ¬ method.Applies path arguments phase := by
  rw [among_eq isInhabited, ← firstPhase?_eq_none_iff]
  cases firstPhase? path candidates arguments phases with
  | none => simp
  | some phase => exact ⟨fun failed => absurd failed settle_ne_notApplicable, nofun⟩

/-- Let no two candidates have the same erased parameter types, let all be known of the arguments,
let every comparison of parameters that stand at one place be decided, and let mutual subtypes among
them have the same erasure. Then a call chooses, in the first of the first two phases in which a
candidate is applicable, the applicable candidate that lies below all others, and it is ambiguous
if several are applicable and there is none like that. No candidate is found applicable exactly if
none is in any phase. -/
theorem among_least (path : ClassPath) (candidates : List KnownMethod) (arguments : List Ty)
    (isInhabited : candidates ≠ []) (distinct : Distinct candidates)
    (determinate : ∀ argument ∈ arguments, argument.isIndeterminate = false)
    (decided : ∀ one other, Corresponding candidates one other → path.isSubtype one other ≠ none)
    (antisymmetric : ∀ one other, Corresponding candidates one other →
      path.isSubtype one other = some true → path.isSubtype other one = some true →
        one.erasure = other.erasure) :
    (∀ phase, (phase = .strict ∨ phase = .loose ∧
        ∀ method ∈ candidates, ¬ method.Applies path arguments .strict) →
      (∃ method ∈ candidates, method.Applies path arguments phase) →
      (∀ method chosen, among path candidates arguments = .found method chosen ↔
        chosen = phase ∧ IsLeast path arguments phase candidates method) ∧
      ((∃ methods, among path candidates arguments = .ambiguous methods) ↔
        (∃ first ∈ candidates, ∃ second ∈ candidates, first ≠ second ∧
          first.Applies path arguments phase ∧ second.Applies path arguments phase) ∧
        ¬ ∃ method, IsLeast path arguments phase candidates method)) ∧
    (among path candidates arguments = .notApplicable ↔
      ∀ phase, ∀ method ∈ candidates, ¬ method.Applies path arguments phase) := by
  refine ⟨fun phase isFirst applies => ?_, among_eq_notApplicable_iff isInhabited⟩
  have fixed : phase ≠ .variadic := by
    rcases isFirst with rfl | ⟨rfl, _⟩ <;> nofun
  have isPhase := firstPhase?_of_fixed isFirst applies
  have determinateAll : arguments.any Ty.isIndeterminate = false :=
    any_eq_false.mpr fun argument isArgument => by simp [determinate argument isArgument]
  have stands := fun method =>
    @stands_iff_isLeast path phase method candidates arguments fixed decided
  by_cases hasLeast : ∃ method, IsLeast path arguments phase candidates method
  · obtain ⟨least, isLeast⟩ := hasLeast
    have isOnly : ∀ other, IsLeast path arguments phase candidates other ↔ other = least :=
      fun other => ⟨isLeast.eq distinct antisymmetric, fun same => same ▸ isLeast⟩
    have isFound : among path candidates arguments = .found least phase := by
      rw [(among_of_some isPhase).2]
      exact settle_of_unique distinct.rivals (Or.inr determinateAll)
        fun other => (stands other).trans (isOnly other)
    rw [isFound]
    constructor
    · intro method chosen
      rw [isOnly, Selection.found.injEq, eq_comm, and_comm, eq_comm (a := phase)]
    · exact ⟨nofun, fun none => absurd ⟨least, isLeast⟩ none.2⟩
  · have contested : Contested path arguments candidates phase := by
      refine ⟨isPhase, determinateAll, fun ⟨method, isStanding, _⟩ => hasLeast ?_⟩
      exact ⟨method, (stands method).mp isStanding⟩
    obtain ⟨methods, isAmbiguous⟩ := ((among_of_contested distinct contested).resolve_left
      fun isOpen => not_leavesOpen fixed decided distinct isOpen.1).2
    rw [isAmbiguous]
    constructor
    · exact fun method _ => ⟨nofun, fun both => absurd ⟨method, both.2⟩ hasLeast⟩
    · refine ⟨fun _ => ⟨?_, hasLeast⟩, fun _ => ⟨methods, rfl⟩⟩
      -- a candidate that alone is applicable would be the least one
      obtain ⟨first, isCandidate, applies⟩ := applies
      by_contra none
      refine hasLeast ⟨first, isCandidate, applies, fun other isOther different appliesToo => ?_⟩
      exact absurd ⟨first, isCandidate, other, isOther, Ne.symm different, applies, appliesToo⟩ none

/-- A class path that knows what a number is boxed to. -/
def numbers : ClassPath where
  type? key :=
    if key = "java.lang.Integer" then
      some { key, kind := .class, superclass := some (.ofKey "java.lang.Number") }
    else if ["java.lang.Number", "java.lang.Object"].contains key then some { key, kind := .class }
    else none
  hasPackage _ := false

def unaries : List KnownMethod :=
  [{ name := "m", parameters := [.object], result := .void, owner := "C" },
    { name := "m", parameters := [.ofKey "java.lang.Number"], result := .void, owner := "C" },
    { name := "m", parameters := [.array (.primitive .char)], variadic := true, result := .void,
      owner := "C" }]

/-- A number is boxed, and the method that takes numbers lies below the one that takes objects. -/
theorem among_least_numbers : ∃ method ∈ unaries,
    IsLeast numbers [.primitive .int] .loose unaries method ∧
    among numbers unaries [.primitive .int] = .found method .loose := by
  have distinct : Distinct unaries := by
    unfold Distinct
    decide
  have answers : ∀ first ∈ unaries, ∀ second ∈ unaries,
      ∀ pair ∈ first.parameters.zip second.parameters,
        numbers.isSubtype pair.1 pair.2 ≠ none ∧
        (numbers.isSubtype pair.1 pair.2 = some true →
          numbers.isSubtype pair.2 pair.1 = some true → pair.1.erasure = pair.2.erasure) := by
    decide
  have none : ∀ method ∈ unaries, ¬ method.Applies numbers [.primitive .int] .strict := by
    simp only [← isApplicable_iff]
    decide
  have some : ∃ method ∈ unaries, method.Applies numbers [.primitive .int] .loose := by
    simp only [← isApplicable_iff]
    decide
  have isFound : ∃ method ∈ unaries, among numbers unaries [.primitive .int] =
      .found method .loose := by
    decide
  have choice := (among_least numbers unaries [.primitive .int] (by decide) distinct
    (by decide)
    (fun _ _ ⟨first, isFirst, second, isSecond, _, isPair⟩ =>
      (answers first isFirst second isSecond _ isPair).1)
    (fun _ _ ⟨first, isFirst, second, isSecond, _, isPair⟩ =>
      (answers first isFirst second isSecond _ isPair).2)).1 .loose (Or.inr ⟨rfl, none⟩) some
  obtain ⟨method, isCandidate, isFound⟩ := isFound
  exact ⟨method, isCandidate, ((choice.1 method .loose).mp isFound).2, isFound⟩

end Selection

end JavaFrontEnd
