/-
What the answers about subtypes are worth. A question about two types comes down to one about two
primitive types, about two classes, or to one that their shapes settle, at whatever depth of arrays
it is asked. So a yes means that the types stand in a preorder that is stated here without a search,
and an answer is not taken back when more types become known.
-/

import JavaFrontEnd.Proofs.Hierarchy
import JavaFrontEnd.Types.Conversion

namespace JavaFrontEnd

/-! ### Widening -/

namespace Primitive

theorem mem_all (kind : Primitive) : kind ∈ all := by
  cases kind <;> decide

theorem widensTo_refl (kind : Primitive) : kind.widensTo kind = true := by
  cases kind <;> rfl

theorem widensTo_trans {first : Primitive} (one : first.widensTo second = true)
    (two : second.widensTo third = true) : first.widensTo third = true := by
  have table : ∀ first ∈ all, ∀ second ∈ all, ∀ third ∈ all, first.widensTo second = true →
      second.widensTo third = true → first.widensTo third = true := by decide
  exact table first (mem_all first) second (mem_all second) third (mem_all third) one two

end Primitive

/-! ### The classes that a question about types comes down to -/

namespace Ty

variable {keys : String × String}

/-- The keys of the classes that are compared when one type is asked to be a subtype of another. -/
def comparedKeys? : Ty → Ty → Option (String × String)
  | .class sub _, .class super _ => some (sub, super)
  | .array first, .array second => comparedKeys? first second
  | _, _ => none

/-- A type that can be compared with itself: neither it nor, if it is an array, its elements are
void, unknown, a type variable or a wildcard. -/
def isDefinite : Ty → Bool
  | .void | .unknown | .variable _ | .wildcard => false
  | .array element => element.isDefinite
  | .primitive _ | .null | .class .. => true

theorem comparedKeys?_boxed {first : Ty} (compared : keys ∈ first.comparedKeys? second) :
    keys ∈ first.boxed.comparedKeys? second := by
  cases first with
  | primitive => cases compared
  | _ => exact compared

theorem isPrimitive_of_comparedKeys? {first : Ty}
    (compared : first.comparedKeys? second = some keys) :
    (first.isPrimitive || second.isPrimitive) = false := by
  cases first <;> cases second <;> simp_all [comparedKeys?, isPrimitive]

end Ty

namespace ClassPath

variable {path wider : ClassPath} {first second : Ty}

theorem isSubtype_array (path : ClassPath) (first second : Ty) :
    path.isSubtype (.array first) (.array second) =
      if first.isPrimitive || second.isPrimitive then some (decide (first = second))
      else path.isSubtype first second := by
  cases first <;> cases second <;> simp [isSubtype, Ty.isPrimitive, beq_eq_decide]

theorem isSubtype_of_comparedKeys? (path : ClassPath)
    (compared : first.comparedKeys? second = some keys) :
    path.isSubtype first second = path.isSubclass keys.1 keys.2 := by
  fun_induction Ty.comparedKeys? first second with
  | case1 sub _ super _ =>
    cases compared
    rfl
  | case2 first second ih =>
    rw [isSubtype_array, Ty.isPrimitive_of_comparedKeys? compared, if_neg Bool.false_ne_true]
    exact ih compared
  | case3 => cases compared

theorem isSubtype_of_comparedKeys?_eq_none (path wider : ClassPath)
    (noKeys : first.comparedKeys? second = none) :
    path.isSubtype first second = wider.isSubtype first second := by
  fun_induction Ty.comparedKeys? first second with
  | case1 => cases noKeys
  | case2 first second ih =>
    rw [isSubtype_array, isSubtype_array, ih noKeys]
  | case3 first second noClasses noArrays =>
    cases first with
    | «class» sub arguments =>
      cases second with
      | «class» super others => exact (noClasses sub arguments super others rfl rfl).elim
      | _ => rfl
    | array one =>
      cases second with
      | array other => exact (noArrays one other rfl rfl).elim
      | _ => rfl
    | _ => cases second <;> rfl

/-! ### Subtypes, without a search -/

inductive IsSubtype (path : ClassPath) : Ty → Ty → Prop
  | widening {first second : Primitive} (widens : first.widensTo second = true) :
    IsSubtype path (.primitive first) (.primitive second)
  | null : IsSubtype path .null .null
  | nullClass (key : String) (arguments : List Ty) : IsSubtype path .null (.class key arguments)
  | nullArray (element : Ty) : IsSubtype path .null (.array element)
  | subclass {sub super : String} (arguments others : List Ty)
    (isSubclass : path.IsSubclass sub super) :
    IsSubtype path (.class sub arguments) (.class super others)
  | arrayTop (element : Ty) {key : String} (arguments : List Ty) (isTop : key ∈ arraySupertypes) :
    IsSubtype path (.array element) (.class key arguments)
  | primitiveArray (kind : Primitive) :
    IsSubtype path (.array (.primitive kind)) (.array (.primitive kind))
  | array {first second : Ty} (noPrimitive : first.isPrimitive = false)
    (isSubtype : IsSubtype path first second) : IsSubtype path (.array first) (.array second)

theorem isSubtype_of_eq_true (yes : path.isSubtype first second = some true) :
    path.IsSubtype first second := by
  fun_induction isSubtype path first second with
  | case7 first second =>
    exact .widening (Option.some.inj yes)
  | case12 second notUnknown notVariable notWildcard notPrimitive notVoid =>
    cases second with
    | null => exact .null
    | «class» key arguments => exact .nullClass key arguments
    | array element => exact .nullArray element
    | _ => simp_all
  | case14 element key arguments =>
    exact .arrayTop element arguments (List.contains_iff_mem.mp (Option.some.inj yes))
  | case15 first second =>
    rw [eq_of_beq (Option.some.inj yes)]
    exact .primitiveArray second
  | case18 first second _ notPrimitive _ ih =>
    refine .array ?_ (ih yes)
    cases first <;> simp_all [Ty.isPrimitive]
  | case20 sub arguments super others =>
    exact .subclass arguments others (path.isSubclass_of_eq_true sub super yes)
  | _ => cases yes

namespace IsSubtype

theorem isPrimitive_eq (isSubtype : path.IsSubtype first second) :
    first.isPrimitive = second.isPrimitive := by
  cases isSubtype <;> rfl

theorem eq_true (isSubtype : path.IsSubtype first second)
    (ends : ∀ keys ∈ first.comparedKeys? second, path.WalkEnds keys.1 keys.2) :
    path.isSubtype first second = some true := by
  induction isSubtype with
  | widening widens => exact congrArg some widens
  | null => rfl
  | nullClass key arguments => rfl
  | nullArray element => rfl
  | @subclass sub super arguments others isSubclass =>
    have answers := path.isSubclass_answers_of_walkEnds sub super (ends _ rfl)
    exact answers.iff.1.mpr isSubclass
  | arrayTop element arguments isTop =>
    exact congrArg some (List.contains_iff_mem.mpr isTop)
  | primitiveArray kind =>
    exact congrArg some (beq_self_eq_true kind)
  | @array first second noPrimitive isSubtype ih =>
    rw [isSubtype_array, ← isSubtype.isPrimitive_eq, noPrimitive, Bool.or_self,
      if_neg Bool.false_ne_true]
    exact ih ends

end IsSubtype

/-! ### Subtyping is a preorder -/

/-- The classes that all arrays extend have no supertypes but the class of all objects. -/
def TopsAreBare (path : ClassPath) : Prop :=
  ∀ key ∈ arraySupertypes, ∀ super, path.Extends key super → super = "java.lang.Object"

namespace TopsAreBare

theorem eq_or_of_reaches (bare : path.TopsAreBare) (isTop : key ∈ arraySupertypes)
    (reaches : path.Reaches key other) : other = key ∨ other = "java.lang.Object" := by
  induction reaches with
  | refl => exact Or.inl rfl
  | tail _ step ih =>
    rcases ih with rfl | rfl
    · exact Or.inr (bare _ isTop _ step)
    · exact Or.inr (bare _ (by decide) _ step)

theorem mem_of_isSubclass (bare : path.TopsAreBare) (isTop : key ∈ arraySupertypes)
    (isSubclass : path.IsSubclass key other) : other ∈ arraySupertypes := by
  rcases isSubclass with rfl | rfl | reaches
  · exact isTop
  · decide
  · rcases bare.eq_or_of_reaches isTop reaches with rfl | rfl
    · exact isTop
    · decide

theorem isSubclass_trans (bare : path.TopsAreBare) {first second : String}
    (one : path.IsSubclass first second) (two : path.IsSubclass second third) :
    path.IsSubclass first third := by
  rcases two with rfl | object | onward
  · exact one
  · exact Or.inr (Or.inl object)
  · rcases one with rfl | rfl | reaches
    · exact Or.inr (Or.inr onward)
    · -- only the class of all objects is reached from itself
      rcases bare.eq_or_of_reaches (by decide) onward with rfl | rfl
      · exact Or.inr (Or.inl rfl)
      · exact Or.inr (Or.inl rfl)
    · exact Or.inr (Or.inr (reaches.trans onward))

end TopsAreBare

theorem IsSubtype.trans (bare : path.TopsAreBare) (one : path.IsSubtype first second)
    (two : path.IsSubtype second third) : path.IsSubtype first third := by
  induction one generalizing third with
  | widening widens =>
    cases two with
    | widening further => exact .widening (Primitive.widensTo_trans widens further)
  | null => exact two
  | nullClass =>
    cases two with
    | subclass _ others => exact .nullClass _ others
  | nullArray =>
    cases two with
    | arrayTop _ others => exact .nullClass _ others
    | primitiveArray => exact .nullArray _
    | array => exact .nullArray _
  | subclass arguments _ isSubclass =>
    cases two with
    | subclass _ others further =>
      exact .subclass arguments others (bare.isSubclass_trans isSubclass further)
  | arrayTop element _ isTop =>
    cases two with
    | subclass _ others further =>
      exact .arrayTop element others (bare.mem_of_isSubclass isTop further)
  | primitiveArray =>
    exact two
  | array noPrimitive isSubtype ih =>
    cases two with
    | arrayTop _ others isTop => exact .arrayTop _ others isTop
    | primitiveArray =>
      rw [isSubtype.isPrimitive_eq] at noPrimitive
      exact absurd noPrimitive (by simp [Ty.isPrimitive])
    | array _ further => exact .array noPrimitive (ih further)

theorem isSubtype_self_iff (path : ClassPath) : ∀ type : Ty,
    path.isSubtype type type = some true ↔ type.isDefinite = true
  | .primitive kind => by simp [isSubtype, Ty.isDefinite, Primitive.widensTo_refl]
  | .null | .class _ _ => by simp [isSubtype, isSubclass, Ty.isDefinite]
  | .void | .unknown | .variable _ | .wildcard => by simp [isSubtype, Ty.isDefinite]
  | .array element => by
    rw [isSubtype_array, Ty.isDefinite, ← isSubtype_self_iff path element]
    cases element with
    | primitive kind => simp [isSubtype, Ty.isPrimitive, Primitive.widensTo_refl]
    | _ => simp [Ty.isPrimitive]

/-- Where every search is over within its steps, subtyping as far as it is decided is a preorder:
every type that can be compared with itself is its own subtype, and no other type is; and a subtype
of a subtype is a subtype. -/
theorem isSubtype_preorder (path : ClassPath) (bare : path.TopsAreBare)
    (ends : ∀ sub super, path.WalkEnds sub super) :
    (∀ type, path.isSubtype type type = some true ↔ type.isDefinite = true) ∧
    ∀ first second third, path.isSubtype first second = some true →
      path.isSubtype second third = some true → path.isSubtype first third = some true := by
  refine ⟨isSubtype_self_iff path, fun first second third one two => ?_⟩
  have isSubtype : path.IsSubtype first third :=
    (isSubtype_of_eq_true one).trans bare (isSubtype_of_eq_true two)
  exact isSubtype.eq_true fun keys _ => ends keys.1 keys.2

/-- A class, its superclass, and an interface of that one of which nothing is known. -/
def ladder : ClassPath where
  type? key :=
    if key = "A" then some { key, kind := .class, superclass := some (.ofKey "B") }
    else if key = "B" then some { key, kind := .class, interfaces := [.ofKey "C"] }
    else none
  hasPackage _ := false

theorem ladder_superKeys (notA : key ≠ "A") (notB : key ≠ "B") : ladder.superKeys key = [] := by
  refine superKeys_of_unknown ladder key ?_
  simp [knows, ladder, notA, notB]

theorem ladder_walkEnds (sub super : String) : ladder.WalkEnds sub super := by
  have fromC (steps : Nat) (seen : List String) (fresh : "C" ∉ seen) :
      ladder.SearchEnds super (steps + 1) ["C"] seen := by
    rw [SearchEnds, if_neg fresh, ladder_superKeys (by decide) (by decide)]
    exact Or.inr searchEnds_nil
  have fromB (steps : Nat) (seen : List String) (fresh : "B" ∉ seen) (free : "C" ∉ seen) :
      ladder.SearchEnds super (steps + 2) ["B"] seen := by
    rw [SearchEnds, if_neg fresh]
    exact Or.inr (fromC steps _ (by simp [free]))
  refine Or.inr (Or.inr ?_)
  by_cases isA : sub = "A"
  · rw [isA]
    exact Or.inr (fromB 9997 _ (by decide) (by decide))
  · by_cases isB : sub = "B"
    · rw [isB]
      exact fromB 9998 _ (by decide) (by decide)
    · show ladder.SearchEnds super (9999 + 1) [sub] []
      rw [SearchEnds, if_neg List.not_mem_nil, ladder_superKeys isA isB]
      exact Or.inr searchEnds_nil

theorem ladder_topsAreBare : ladder.TopsAreBare := by
  intro key isTop super step
  have isOther : key ≠ "A" ∧ key ≠ "B" := by
    constructor <;> rintro rfl <;> exact absurd isTop (by decide)
  rw [Extends, ladder_superKeys isOther.1 isOther.2] at step
  exact absurd step List.not_mem_nil

/-- Arrays of arrays of the class are such arrays of the interface, by way of the superclass. -/
theorem isSubtype_preorder_ladder :
    ladder.TopsAreBare ∧ (∀ sub super, ladder.WalkEnds sub super) ∧
    ladder.isSubtype (.arrayOf (.ofKey "A") 2) (.arrayOf (.ofKey "B") 2) = some true ∧
    ladder.isSubtype (.arrayOf (.ofKey "B") 2) (.arrayOf (.ofKey "C") 2) = some true ∧
    ladder.isSubtype (.arrayOf (.ofKey "A") 2) (.arrayOf (.ofKey "C") 2) = some true := by
  have one : ladder.isSubtype (.arrayOf (.ofKey "A") 2) (.arrayOf (.ofKey "B") 2) = some true := by
    decide
  have two : ladder.isSubtype (.arrayOf (.ofKey "B") 2) (.arrayOf (.ofKey "C") 2) = some true := by
    decide
  exact ⟨ladder_topsAreBare, ladder_walkEnds, one, two,
    (isSubtype_preorder ladder ladder_topsAreBare ladder_walkEnds).2 _ _ _ one two⟩

/-! ### Learning more types -/

/-- The second class path knows what the first knows, and may know more. -/
def Within (path wider : ClassPath) : Prop :=
  ∀ key type, path.type? key = some type → wider.type? key = some type

theorem within_orElse (first second : ClassPath) : first.Within (first.orElse second) := by
  intro key type found
  simp [orElse, found]

namespace Within

variable (within : path.Within wider)
include within

theorem knows (known : path.knows key = true) : wider.knows key = true := by
  obtain ⟨type, found⟩ := Option.isSome_iff_exists.mp known
  rw [ClassPath.knows, within key type found]
  rfl

theorem superKeys_eq (known : path.knows key = true) :
    wider.superKeys key = path.superKeys key := by
  obtain ⟨type, found⟩ := Option.isSome_iff_exists.mp known
  unfold superKeys references directSupertypes?
  rw [found, within key type found]

theorem extends_of_extends (step : path.Extends sub super) : wider.Extends sub super := by
  rw [Extends] at step ⊢
  cases known : path.knows sub with
  | true => rwa [within.superKeys_eq known]
  | false =>
    rw [path.superKeys_of_unknown sub known] at step
    exact absurd step List.not_mem_nil

theorem reaches (reaches : path.Reaches sub super) : wider.Reaches sub super :=
  Relation.ReflTransGen.mono (fun _ _ => within.extends_of_extends) _ _ reaches

theorem reaches_of_reachesOnlyKnown (onlyKnown : path.ReachesOnlyKnown key)
    (reaches : wider.Reaches key other) : path.Reaches key other := by
  induction reaches with
  | refl => exact .refl
  | tail _ step ih =>
    refine ih.tail ?_
    rw [Extends, within.superKeys_eq (onlyKnown _ ih)] at step
    exact step

end Within

/-- An answer that was given is not contradicted later, and it is given again if the search is over
within its steps. -/
def Kept (ends : Prop) (before after : Option Bool) : Prop :=
  ∀ answer, before = some answer → after ≠ some (!answer) ∧ (ends → after = some answer)

namespace Kept

variable {ends others : Prop} {before after : Option Bool}

theorem of_eq (same : before = after) : Kept ends before after := by
  intro answer given
  rw [← same, given]
  cases answer <;> simp

theorem mono (kept : Kept ends before after) (weaker : others → ends) : Kept others before after :=
  fun answer given => ⟨(kept answer given).1, fun holds => (kept answer given).2 (weaker holds)⟩

end Kept

namespace Within

theorem isSubclass_kept (within : path.Within wider) (sub super : String) :
    Kept (wider.WalkEnds sub super) (path.isSubclass sub super) (wider.isSubclass sub super) := by
  intro answer given
  have right := path.isSubclass_answers_of_decided sub super (by simp [given])
  rw [given] at right
  -- the answer is right of the wider class path too, and nothing that it needs is unknown there
  have stays : ∀ other, Answers (wider.IsSubclass sub super) (wider.ReachesOnlyKnown sub) other →
      other = some answer := by
    intro other isRight
    cases answer with
    | true => exact isRight.iff.1.mpr (right.imp_right (Or.imp_right within.reaches))
    | false =>
      obtain ⟨notSubclass, onlyKnown⟩ := right
      refine isRight.iff.2.1.mpr ⟨?_, fun key reaches => ?_⟩
      · exact fun isSubclass => notSubclass (isSubclass.imp_right (Or.imp_right
          (within.reaches_of_reachesOnlyKnown onlyKnown)))
      · exact within.knows (onlyKnown key (within.reaches_of_reachesOnlyKnown onlyKnown reaches))
  refine ⟨fun contrary => ?_, fun ends => ?_⟩
  · have same := stays _ (wider.isSubclass_answers_of_decided sub super (by simp [contrary]))
    rw [contrary] at same
    cases answer <;> cases same
  · exact stays _ (wider.isSubclass_answers_of_walkEnds sub super ends)

theorem isSubtype_kept (within : path.Within wider) (first second : Ty) :
    Kept (∀ keys ∈ first.comparedKeys? second, wider.WalkEnds keys.1 keys.2)
      (path.isSubtype first second) (wider.isSubtype first second) := by
  cases compared : first.comparedKeys? second with
  | none => exact .of_eq (isSubtype_of_comparedKeys?_eq_none path wider compared)
  | some keys =>
    rw [path.isSubtype_of_comparedKeys? compared, wider.isSubtype_of_comparedKeys? compared]
    exact (within.isSubclass_kept keys.1 keys.2).mono fun ends => ends keys rfl

theorem isAssignable_kept (within : path.Within wider) (source target : Ty) :
    Kept (∀ keys ∈ source.boxed.comparedKeys? target, wider.WalkEnds keys.1 keys.2)
      (path.isAssignable source target) (wider.isAssignable source target) := by
  unfold isAssignable
  split
  · exact .of_eq rfl
  · split
    · exact .of_eq rfl
    · exact within.isSubtype_kept _ _
    next key _ _ _ =>
      split
      · exact .of_eq rfl
      · split
        · exact .of_eq rfl
        · -- a class that is no wrapper is not assigned to a primitive type, once it is known
          intro answer given
          obtain ⟨type, found, rfl⟩ := Option.map_eq_some_iff.mp given
          rw [within key type found]
          exact ⟨by simp, fun _ => rfl⟩
    · exact (within.isSubtype_kept source target).mono fun ends keys compared =>
        ends keys (Ty.comparedKeys?_boxed compared)

/-- What is answered about subclasses, subtypes and assignments on a class path is not contradicted
on one that knows more, and it is answered in the same way there if the search for a superclass
that the question may take is over within its steps. -/
theorem answers_kept (within : path.Within wider) :
    (∀ sub super, Kept (wider.WalkEnds sub super) (path.isSubclass sub super)
      (wider.isSubclass sub super)) ∧
    (∀ first second, Kept (∀ keys ∈ first.comparedKeys? second, wider.WalkEnds keys.1 keys.2)
      (path.isSubtype first second) (wider.isSubtype first second)) ∧
    ∀ source target, Kept (∀ keys ∈ source.boxed.comparedKeys? target,
      wider.WalkEnds keys.1 keys.2)
      (path.isAssignable source target) (wider.isAssignable source target) :=
  ⟨within.isSubclass_kept, within.isSubtype_kept, within.isAssignable_kept⟩

end Within

/-- The interface at the end of the ladder, with another one of which nothing is known. -/
def beyondLadder : ClassPath where
  type? key :=
    if key = "C" then some { key, kind := .interface, interfaces := [.ofKey "D"] } else none
  hasPackage _ := false

/-- That arrays of the class are arrays of the interface is known before the interface is, and
still when it is. -/
theorem answers_kept_beyondLadder :
    ladder.Within (ladder.orElse beyondLadder) ∧
    ladder.isAssignable (.array (.ofKey "A")) (.array (.ofKey "C")) = some true ∧
    (ladder.orElse beyondLadder).WalkEnds "A" "C" ∧
    (ladder.orElse beyondLadder).isAssignable (.array (.ofKey "A")) (.array (.ofKey "C")) =
      some true := by
  have within := within_orElse ladder beyondLadder
  have before : ladder.isAssignable (.array (.ofKey "A")) (.array (.ofKey "C")) = some true := by
    decide
  have ends : (ladder.orElse beyondLadder).WalkEnds "A" "C" :=
    walkEnds_of_decided _ _ _ (by decide)
  refine ⟨within, before, ends, (within.answers_kept.2.2 _ _ true before).2 ?_⟩
  intro keys compared
  rw [← Option.some.inj compared]
  exact ends

end ClassPath

end JavaFrontEnd
