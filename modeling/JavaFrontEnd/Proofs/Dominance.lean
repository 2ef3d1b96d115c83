/-
Labels that can never be chosen. A switch chooses the first element of a label that takes a value,
and the default if none does. An element after an unguarded type pattern for a supertype of what it
selects is dominated. Where subtyping is transitive as far as it is decided, the patterns and
constants that are reported are never chosen (`SwitchSummary.dominated_exact`). Patterns after a
default are reported because a default says that all the rest is meant.
-/

import JavaFrontEnd.Proofs.Subtyping
import JavaFrontEnd.Switch

namespace JavaFrontEnd

open List

variable (path : ClassPath)

def ClassPath.IsTransitive : Prop :=
  ∀ first second third, path.isSubtype first second = some true →
    path.isSubtype second third = some true → path.isSubtype first third = some true

theorem ClassPath.isTransitive_of_walkEnds {path : ClassPath} (bare : path.TopsAreBare)
    (ends : ∀ sub super, path.WalkEnds sub super) : path.IsTransitive := by
  intro first second third one two
  have isSubtype := (isSubtype_of_eq_true one).trans bare (isSubtype_of_eq_true two)
  exact isSubtype.eq_true fun keys _ => ends keys.1 keys.2

/-- The type below which the class of a value must be for the value to be selected. -/
def CaseSelector.tested? : CaseSelector → Option Ty
  | .constant type _ _ => some type.boxed.erasure
  | .typePattern type | .recordPattern type => some type.erasure
  | .default | .null => none

theorem CaseSelector.isSome_tested? (selector : CaseSelector) :
    selector.tested?.isSome = !(selector.isNull || selector.isDefault) := by
  cases selector <;> rfl

theorem CaseSelector.tested?_of_patternType? {selector : CaseSelector}
    (isPattern : selector.patternType? = some type) : selector.tested? = some type.erasure := by
  cases selector <;> cases isPattern <;> rfl

namespace CaseEntry

def TakesAll (entry : CaseEntry) (type : Ty) : Prop :=
  ∃ pattern, entry.selector = .typePattern pattern ∧ entry.isUnguarded = true ∧
    path.isSubtype type pattern.erasure = some true

/-- The entry may take a value. The class of a value is a type; null has none. -/
def MayTake (entry : CaseEntry) (value : Option Ty) : Prop :=
  entry.selector.isNull = true ∧ value = none ∨
    ∃ tested ∈ entry.selector.tested?, ∃ own ∈ value, path.isSubtype own tested = some true

variable {path : ClassPath} {entry : CaseEntry} {type : Ty}

theorem takesAll_iff : entry.TakesAll path type ↔ (entry.unguardedType?.any fun pattern =>
    path.isSubtype type pattern.erasure == some true) = true := by
  unfold TakesAll unguardedType?
  cases entry.selector with
  | typePattern pattern =>
    by_cases isUnguarded : entry.isUnguarded = true <;> simp [isUnguarded]
  | _ => simp

theorem TakesAll.of_isSubtype (takesAll : entry.TakesAll path type) (transitive : path.IsTransitive)
    (isSubtype : path.isSubtype own type = some true) : entry.TakesAll path own := by
  obtain ⟨pattern, isPattern, isUnguarded, isSuper⟩ := takesAll
  exact ⟨pattern, isPattern, isUnguarded, transitive _ _ _ isSubtype isSuper⟩

end CaseEntry

namespace SwitchSummary

abbrev NumberedEntry := CaseEntry × Nat

section Definitions

variable (summary : SwitchSummary) (path : ClassPath)

def numbered : List NumberedEntry :=
  summary.entries.zipIdx

def before (position : Nat) : List CaseEntry :=
  summary.entries.take position

def isDominated (entry : NumberedEntry) : Bool :=
  (summary.before entry.2).any fun earlier => dominates path summary.selector earlier entry.1

def reported : List NumberedEntry :=
  summary.numbered.filter (summary.isDominated path)

def followsDefault (entry : NumberedEntry) : Bool :=
  (summary.before entry.2).any fun earlier =>
    earlier.selector.isDefault && earlier.label != entry.1.label

/-- The entry is a constant that is reported, or a pattern that is reported although it does not
come after the default of another label. -/
def isDead (entry : NumberedEntry) : Bool :=
  summary.isDominated path entry && entry.1.selector.tested?.isSome &&
    !(entry.1.selector.isPattern && summary.followsDefault entry)

end Definitions

/-- What the entries of a switch do with one value. Which constants it equals, which guards hold for
it and which record patterns its components match is left open. -/
structure Trial (path : ClassPath) (summary : SwitchSummary) where
  value : Option Ty
  takes : Nat → Bool
  mayTake : ∀ entry ∈ summary.numbered, takes entry.2 = true → entry.1.MayTake path value
  takesAll : ∀ entry ∈ summary.numbered, ∀ own ∈ value, entry.1.TakesAll path own →
    takes entry.2 = true

/-- The entry that is chosen among some entries: the first one that takes the value, or else the
default, unless the value is null. -/
def Trial.chosen {path : ClassPath} {summary : SwitchSummary} (trial : Trial path summary)
    (entries : List NumberedEntry) : Option NumberedEntry :=
  (entries.find? fun entry => trial.takes entry.2).or
    (entries.find? fun entry => trial.value.isSome && entry.1.selector.isDefault)

/-- A value of a class that equals no constant, has no components to be matched and for which no
guard holds that does not always hold. -/
def Trial.ofClass (summary : SwitchSummary) (value : Option Ty) :
    Trial path summary where
  value := value
  takes position := summary.entries[position]?.any fun entry => value.any fun own =>
    entry.unguardedType?.any fun pattern => path.isSubtype own pattern.erasure == some true
  mayTake entry isEntry takes := by
    rw [mem_zipIdx_iff_getElem?.mp isEntry, Option.any_some] at takes
    obtain ⟨own, isOwn, takesAll⟩ := (Option.any_eq_true _ _).mp takes
    obtain ⟨pattern, isPattern, _, isSubtype⟩ := CaseEntry.takesAll_iff.mpr takesAll
    refine .inr ⟨pattern.erasure, ?_, own, isOwn, isSubtype⟩
    rw [isPattern]
    rfl
  takesAll entry isEntry own isOwn takesAll := by
    rw [mem_zipIdx_iff_getElem?.mp isEntry, Option.any_some]
    exact (Option.any_eq_true _ _).mpr ⟨own, isOwn, CaseEntry.takesAll_iff.mp takesAll⟩

/-! ### What is reported -/

section Reports

variable {path : ClassPath}

theorem dominatedCases_eq (selector : Ty) (earlier rest : List CaseEntry) :
    dominatedCases path selector earlier rest = ((rest.zipIdx earlier.length).filter fun entry =>
        ((earlier.reverse ++ rest).take entry.2).any fun other =>
          dominates path selector other entry.1).map
        fun entry => (.dominated, entry.1.span) := by
  induction rest generalizing earlier with
  | nil => rfl
  | cons entry rest ih =>
    have areEarlier : (earlier.reverse ++ entry :: rest).take earlier.length = earlier.reverse := by
      rw [take_append_of_le_length (length_reverse ..).ge, ← length_reverse, take_length]
    have sameEntries : (entry :: earlier).reverse ++ rest = earlier.reverse ++ entry :: rest := by
      rw [reverse_cons, append_assoc, singleton_append]
    rw [dominatedCases, ih, sameEntries, zipIdx_cons, filter_cons, areEarlier, any_reverse]
    split <;> rfl

section Others

variable {span : Span}

theorem notMem_duplicateCases (seen : List CaseKey) (entries : List CaseEntry) :
    (.dominated, span) ∉ duplicateCases seen entries := by
  fun_induction duplicateCases seen entries <;> simp_all

theorem notMem_falseGuards (seen : List Nat) (entries : List CaseEntry) :
    (.dominated, span) ∉ falseGuards seen entries := by
  fun_induction falseGuards seen entries <;> simp_all

theorem notMem_completingArms (isExpression : Bool) (cases : List CaseSummary) :
    (.dominated, span) ∉ completingArms isExpression cases := by
  fun_induction completingArms isExpression cases <;> simp_all +zetaDelta

theorem notMem_totalWithDefault (selector : Ty) (entries : List CaseEntry) :
    (.dominated, span) ∉ totalWithDefault path selector entries := by
  unfold totalWithDefault
  dsimp only
  split <;> simp

theorem notMem_missingCases (summary : SwitchSummary) (config : Configuration) :
    (.dominated, span) ∉ summary.missingCases path config := by
  unfold missingCases
  split_ifs <;> simp

end Others

theorem filter_problems (summary : SwitchSummary) (config : Configuration) :
    ((summary.problems path config).filter fun problem => problem.1 = .dominated) =
      (summary.reported path).map fun entry => (.dominated, entry.1.span) := by
  have noneOf : ∀ {problems : SwitchProblems}, (∀ span, (.dominated, span) ∉ problems) →
      (problems.filter fun problem => problem.1 = .dominated) = [] := by
    intro problems isOther
    refine filter_eq_nil_iff.mpr ?_
    rintro ⟨kind, span⟩ isProblem isDominated
    exact isOther span (of_decide_eq_true isDominated ▸ isProblem)
  have all : ((dominatedCases path summary.selector [] summary.entries).filter
      fun problem => problem.1 = .dominated) =
        (summary.reported path).map fun entry => (.dominated, entry.1.span) := by
    rw [dominatedCases_eq, filter_eq_self.mpr]
    · rfl
    · exact forall_mem_map.mpr fun _ _ => rfl
  unfold problems
  simp only [filter_append, all, noneOf fun _ => notMem_duplicateCases _ _,
    noneOf fun _ => notMem_totalWithDefault _ _, noneOf fun _ => notMem_falseGuards _ _,
    noneOf fun _ => notMem_completingArms _ _, noneOf fun _ => notMem_missingCases _ _,
    nil_append, append_nil]
  simp [nullCombinations, fallThroughs, noneOf]

end Reports

/-! ### What is dominated -/

section Dominance

variable {path : ClassPath} {summary : SwitchSummary}

theorem dominates_iff {selector : Ty} {later : CaseEntry}
    (isTested : later.selector.tested? = some tested) :
    dominates path selector earlier later = true ↔ earlier.TakesAll path tested ∨
      later.selector.isPattern = true ∧
        (earlier.selector.isDefault && earlier.label != later.label) = true := by
  unfold dominates
  cases isSelector : later.selector with
  | constant | typePattern | recordPattern =>
    rw [isSelector] at isTested
    obtain rfl := Option.some.inj isTested
    rw [CaseEntry.takesAll_iff]
    simp [CaseSelector.isPattern, CaseSelector.patternType?]
  | _ =>
    rw [isSelector] at isTested
    cases isTested

theorem mem_before_iff :
    entry ∈ summary.before position ↔
      ∃ earlier < position, (entry, earlier) ∈ summary.numbered := by
  unfold before numbered
  rw [mem_take_iff_getElem]
  simp only [mem_zipIdx_iff_getElem?, getElem?_eq_some_iff, Nat.lt_min]
  constructor
  · rintro ⟨earlier, ⟨isBefore, isInside⟩, isEntry⟩
    exact ⟨earlier, isBefore, isInside, isEntry⟩
  · rintro ⟨earlier, isBefore, isInside, isEntry⟩
    exact ⟨earlier, ⟨isBefore, isInside⟩, isEntry⟩

theorem exists_takesAll_of_isDead (isDead : summary.isDead path entry = true) :
    ∃ tested ∈ entry.1.selector.tested?, ∃ earlier ∈ summary.before entry.2,
      earlier.TakesAll path tested := by
  unfold SwitchSummary.isDead at isDead
  rw [Bool.and_eq_true, Bool.and_eq_true, Bool.not_eq_true', isDominated, any_eq_true] at isDead
  obtain ⟨⟨⟨earlier, isEarlier, dominates⟩, isTested⟩, notAfter⟩ := isDead
  obtain ⟨tested, isTested⟩ := Option.isSome_iff_exists.mp isTested
  refine ⟨tested, isTested, earlier, isEarlier, ?_⟩
  rcases (dominates_iff isTested).mp dominates with takesAll | ⟨isPattern, isDefault⟩
  · exact takesAll
  · have follows : summary.followsDefault entry = true :=
      any_eq_true.mpr ⟨earlier, isEarlier, isDefault⟩
    rw [isPattern, follows] at notAfter
    cases notAfter

theorem isDominated_iff {entry : NumberedEntry}
    (isPattern : entry.1.selector.patternType? = some type)
    (notAfter : summary.followsDefault entry = false) :
    summary.isDominated path entry = true ↔
      ∃ earlier ∈ summary.before entry.2, earlier.TakesAll path type.erasure := by
  unfold isDominated
  rw [any_eq_true]
  refine exists_congr fun earlier => and_congr_right fun isEarlier => ?_
  rw [dominates_iff (CaseSelector.tested?_of_patternType? isPattern)]
  refine or_iff_left fun isAfter => ?_
  exact any_eq_false.mp notAfter earlier isEarlier isAfter.2

end Dominance

/-! ### What is chosen -/

section Choice

variable {path : ClassPath} {summary : SwitchSummary} (trial : Trial path summary)

theorem find?_filter_of_keeps {α : Type} {entries : List α} {keeps isKind : α → Bool}
    (isKept : ∀ first, entries.find? isKind = some first → keeps first = true) :
    (entries.filter keeps).find? isKind = entries.find? isKind := by
  induction entries with
  | nil => rfl
  | cons entry rest ih =>
    cases isOfKind : isKind entry <;> cases isKeptHere : keeps entry <;> simp_all

theorem Trial.isDead_of_default
    (isFirst : (summary.numbered.find? fun entry => trial.value.isSome &&
      entry.1.selector.isDefault) = some entry) : summary.isDead path entry = false := by
  have isDefault := find?_some isFirst
  simp_all [isDead, CaseSelector.isSome_tested?]

variable (transitive : path.IsTransitive)
include transitive

theorem Trial.exists_takes_before (isEntry : entry ∈ summary.numbered)
    (isDead : summary.isDead path entry = true)
    (takes : trial.takes entry.2 = true) :
    ∃ earlier ∈ summary.numbered, earlier.2 < entry.2 ∧ trial.takes earlier.2 = true := by
  obtain ⟨tested, isTested, other, isBefore, takesAll⟩ := exists_takesAll_of_isDead isDead
  obtain ⟨position, isEarlier, isOther⟩ := mem_before_iff.mp isBefore
  rcases trial.mayTake entry isEntry takes with ⟨isNull, _⟩ | ⟨same, isSame, own, isOwn, isSubtype⟩
  · have isSome := entry.1.selector.isSome_tested?
    rw [isNull, isTested] at isSome
    cases isSome
  · obtain rfl := Option.mem_unique isTested isSame
    refine ⟨(other, position), isOther, isEarlier, trial.takesAll _ isOther own isOwn ?_⟩
    exact takesAll.of_isSubtype transitive isSubtype

theorem Trial.isDead_of_find?
    (isFirst : (summary.numbered.find? fun entry => trial.takes entry.2) = some entry) :
    summary.isDead path entry = false := by
  refine Bool.eq_false_iff.mpr fun isDead => ?_
  obtain ⟨takes, position, isInside, isEntry, noneBefore⟩ :=
    find?_eq_some_iff_getElem.mp isFirst
  have isNumbered : ∀ index, (isIndex : index < summary.numbered.length) →
      summary.numbered[index].2 = index :=
    fun index isIndex => (congrArg Prod.snd (getElem_zipIdx isIndex)).trans (Nat.zero_add index)
  obtain ⟨earlier, isEarlier, isBefore, takesEarlier⟩ :=
    trial.exists_takes_before transitive (isEntry ▸ getElem_mem isInside) isDead takes
  rw [← isEntry, isNumbered] at isBefore
  have isUntaken := noneBefore earlier.2 isBefore
  rw [isNumbered, takesEarlier] at isUntaken
  cases isUntaken

theorem Trial.isDead_of_chosen (isChosen : trial.chosen summary.numbered = some entry) :
    summary.isDead path entry = false := by
  rcases Option.or_eq_some_iff.mp isChosen with isFirst | ⟨_, isDefault⟩
  · exact trial.isDead_of_find? transitive isFirst
  · exact trial.isDead_of_default isDefault

theorem Trial.chosen_filter :
    trial.chosen (summary.numbered.filter fun entry => !summary.isDead path entry) =
      trial.chosen summary.numbered := by
  unfold Trial.chosen
  rw [find?_filter_of_keeps fun first isFirst => ?_, find?_filter_of_keeps fun first isFirst => ?_]
  · rw [trial.isDead_of_default isFirst]
    rfl
  · rw [trial.isDead_of_find? transitive isFirst]
    rfl

end Choice

/-- The rules report the entries that are dominated, at their places and in their order. A pattern
that does not come after the default of another label is reported exactly if an unguarded type
pattern for a supertype comes before. Where subtyping is transitive as far as it is decided, all
classes that such a pattern or a reported constant may take are taken by a pattern before it, so
that it is never chosen, whatever the value, and without all such entries every value chooses the
same entry. -/
theorem dominated_exact (summary : SwitchSummary) (path : ClassPath) (configuration : Configuration)
    (transitive : path.IsTransitive) :
    ((summary.problems path configuration).filter fun problem => problem.1 = .dominated) =
      (summary.reported path).map (fun entry => (.dominated, entry.1.span)) ∧
    (∀ entry ∈ summary.numbered, ∀ type ∈ entry.1.selector.patternType?,
      summary.followsDefault entry = false →
        (entry ∈ summary.reported path ↔
          ∃ earlier ∈ summary.before entry.2, earlier.TakesAll path type.erasure)) ∧
    (∀ entry ∈ summary.reported path, summary.isDead path entry = true →
      ∃ tested ∈ entry.1.selector.tested?, ∃ earlier ∈ summary.before entry.2,
        earlier.TakesAll path tested ∧
          ∀ own, path.isSubtype own tested = some true → earlier.TakesAll path own) ∧
    ∀ trial : Trial path summary,
      (∀ entry, trial.chosen summary.numbered = some entry → summary.isDead path entry = false) ∧
      trial.chosen (summary.numbered.filter fun entry => !summary.isDead path entry) =
        trial.chosen summary.numbered := by
  refine ⟨summary.filter_problems configuration, fun entry isEntry type isType notAfter => ?_,
    fun entry _ isDead => ?_, fun trial => ⟨fun entry => trial.isDead_of_chosen transitive,
      trial.chosen_filter transitive⟩⟩
  · rw [reported, mem_filter, and_iff_right isEntry]
    exact isDominated_iff isType notAfter
  · obtain ⟨tested, isTested, earlier, isEarlier, takesAll⟩ := exists_takesAll_of_isDead isDead
    exact ⟨tested, isTested, earlier, isEarlier, takesAll, fun own isSubtype =>
      takesAll.of_isSubtype transitive isSubtype⟩

def ladderLabel (selector : CaseSelector) (guard : Option CaseGuard) : CaseSummary where
  labels := [{ selectors := [(selector, .point .start)], guard }]
  isRule := true
  isBlock := false
  completes := false
  span := .point .start

/-- The pattern for the interface comes before one for the class with a guard and before a constant
of the superclass. -/
def ladderSwitch : SwitchSummary where
  isExpression := true
  selector := .object
  keywordSpan := .point .start
  cases :=
    [ladderLabel (.typePattern (.ofKey "C")) none,
     ladderLabel (.typePattern (.ofKey "A")) (some { span := .point .start, constant := none }),
     ladderLabel (.constant (.ofKey "B") none none) none,
     ladderLabel .default none]

def ladderEntry : NumberedEntry :=
  ({ selector := .typePattern (.ofKey "A"), span := .point .start, label := 1
     guard := some { span := .point .start, constant := none }
     isRule := true, isReachedFromAbove := false }, 1)

/-- The guarded pattern for the class is reported, and it is of no use to any value. -/
theorem dominated_exact_ladder :
    ClassPath.ladder.IsTransitive ∧ ladderEntry ∈ ladderSwitch.numbered ∧
    ladderSwitch.followsDefault ladderEntry = false ∧
    ladderEntry ∈ ladderSwitch.reported ClassPath.ladder ∧
    ladderSwitch.isDead ClassPath.ladder ladderEntry = true ∧
    ∀ value, (Trial.ofClass ClassPath.ladder ladderSwitch value).chosen ladderSwitch.numbered ≠
      some ladderEntry := by
  have transitive := ClassPath.isTransitive_of_walkEnds ClassPath.ladder_topsAreBare
    ClassPath.ladder_walkEnds
  have reports := dominated_exact ladderSwitch ClassPath.ladder {} transitive
  have isEntry : ladderEntry ∈ ladderSwitch.numbered := .tail _ mem_cons_self
  have notAfter : ladderSwitch.followsDefault ladderEntry = false := by decide
  have isDead : ladderSwitch.isDead ClassPath.ladder ladderEntry = true := by decide
  refine ⟨transitive, isEntry, notAfter, ?_, isDead, fun value isChosen => ?_⟩
  · refine (reports.2.1 ladderEntry isEntry (.ofKey "A") rfl notAfter).mpr ?_
    exact ⟨_, mem_cons_self, .ofKey "C", rfl, rfl, by decide⟩
  · have notDead := (reports.2.2.2 _).1 ladderEntry isChosen
    cases notDead

end SwitchSummary

end JavaFrontEnd
