/-
What the answers about a hierarchy are worth. The supertypes that are written for a class span a
graph over keys, which may have cycles and may lead to keys of which nothing is known. The search
for a superclass finds exactly the superclasses. It leaves a question open when it met an unknown
key, but passes in silence over supertypes that are no class types.
-/

import Mathlib.Data.Set.Card
import Mathlib.Logic.Relation
import JavaFrontEnd.ClassPath.Hierarchy

namespace JavaFrontEnd

open List

namespace ClassPath

variable (path : ClassPath) (key : String)

/-! ### The graph of supertypes -/

/-- The supertypes that are written for a key; none for a key of which nothing is known. -/
def references (path : ClassPath) (key : String) : List Ty :=
  (path.directSupertypes? key []).getD []

def superKeys (path : ClassPath) (key : String) : List String :=
  (path.references key).filterMap Ty.key?

def Extends (path : ClassPath) (sub super : String) : Prop :=
  super ∈ path.superKeys sub

def Reaches (path : ClassPath) : String → String → Prop :=
  Relation.ReflTransGen path.Extends

/-- The class of the first key is that of the second or extends it, at any distance. The class of
all objects is extended by every class, also by those of which nothing is known. -/
def IsSubclass (path : ClassPath) (sub super : String) : Prop :=
  sub = super ∨ super = "java.lang.Object" ∨ path.Reaches sub super

def ReachesOnlyKnown (path : ClassPath) (key : String) : Prop :=
  ∀ reached, path.Reaches key reached → path.knows reached = true

/-- Every supertype written for a key that is reached from a key is a class type. -/
def ReachesOnlyClasses (path : ClassPath) (key : String) : Prop :=
  ∀ reached, path.Reaches key reached → ∀ super ∈ path.references reached, super.key?.isSome

/-- The edges of a graph over keys, when each key that is reached has a number of supertypes. An
edge is told by the key and by the position of the supertype there, so that a supertype that is
written twice counts twice. -/
def edges (reached : String → Prop) (degree : String → Nat) : Set (String × Nat) :=
  {edge | reached edge.1 ∧ edge.2 < degree edge.1}

/-- The edges of the graph of supertypes that is reached from a key. -/
def supertypeEdges (path : ClassPath) (key : String) : Set (String × Nat) :=
  edges (path.Reaches key) fun reached => (path.references reached).length

theorem directSupertypes?_of_known (known : path.knows key = true) :
    path.directSupertypes? key [] = some (path.references key) := by
  obtain ⟨type, found⟩ := Option.isSome_iff_exists.mp known
  rw [references, directSupertypes?, found]
  rfl

theorem directSupertypes?_of_unknown (unknown : path.knows key = false) :
    path.directSupertypes? key [] = none := by
  have missing : path.type? key = none :=
    Option.isNone_iff_eq_none.mp (by simpa [knows] using unknown)
  rw [directSupertypes?, missing]
  rfl

theorem superKeys_of_unknown (unknown : path.knows key = false) : path.superKeys key = [] := by
  rw [superKeys, references, path.directSupertypes?_of_unknown key unknown]
  rfl

theorem length_superKeys_le : (path.superKeys key).length ≤ (path.references key).length :=
  length_filterMap_le _ _

/-! ### Counting edges -/

theorem encard_edges_eq (degree : String → Nat) : (edges (· = key) degree).encard = degree key := by
  have image : edges (· = key) degree = ((Finset.range (degree key)).map
        ⟨fun position => (key, position), Prod.mk_right_injective key⟩ : Set (String × Nat)) := by
    ext ⟨owner, position⟩
    simp only [edges, Set.mem_ofPred_eq, Finset.coe_map, Function.Embedding.coeFn_mk,
      Finset.coe_range, Set.mem_image, Set.mem_Iio, Prod.mk.injEq]
    constructor
    · rintro ⟨rfl, inside⟩
      exact ⟨position, inside, rfl, rfl⟩
    · rintro ⟨_, inside, rfl, rfl⟩
      exact ⟨rfl, inside⟩
  rw [image, Set.encard_coe_eq_coe_finsetCard, Finset.card_map, Finset.card_range]

theorem encard_unseen_add_le (reached : String → Prop) (degree : String → Nat) (key : String)
    (seen : List String) (member : reached key) (fresh : key ∉ seen) :
    (edges (fun other => reached other ∧ other ∉ key :: seen) degree).encard + degree key ≤
      (edges (fun other => reached other ∧ other ∉ seen) degree).encard := by
  have apart : Disjoint (edges (fun other => reached other ∧ other ∉ key :: seen) degree)
      (edges (· = key) degree) := by
    refine Set.disjoint_left.mpr fun edge unseen own => unseen.1.2 ?_
    rw [own.1]
    exact mem_cons_self
  rw [← encard_edges_eq, ← Set.encard_union_eq apart]
  refine Set.encard_le_encard ?_
  rintro ⟨owner, position⟩ (⟨⟨old, unseen⟩, inside⟩ | ⟨same, inside⟩)
  · exact ⟨⟨old, fun tail => unseen (mem_cons_of_mem _ tail)⟩, inside⟩
  · obtain rfl : owner = key := same
    exact ⟨⟨member, fresh⟩, inside⟩

/-- A walk that spends one step on each entry of its list of things to do, and adds to the list at
most the edges of a key that it sees for the first time, has enough steps left after that key. -/
theorem steps_suffice (reached : String → Prop) (degree : String → Nat) (key : String)
    (seen : List String) (member : reached key) (fresh : key ∉ seen) (added waiting steps : Nat)
    (few : added ≤ degree key)
    (enough : ((waiting + 1 : Nat) : ℕ∞) +
      (edges (fun other => reached other ∧ other ∉ seen) degree).encard ≤ (steps + 1 : Nat)) :
    ((added + waiting : Nat) : ℕ∞) +
      (edges (fun other => reached other ∧ other ∉ key :: seen) degree).encard ≤ steps := by
  have paid := encard_unseen_add_le reached degree key seen member fresh
  generalize (edges (fun other => reached other ∧ other ∉ key :: seen) degree).encard = rest
    at paid ⊢
  generalize (edges (fun other => reached other ∧ other ∉ seen) degree).encard = all at paid enough
  cases all with
  | top => exact absurd enough (by simp)
  | coe all =>
    cases rest with
    | top => exact absurd paid (by simp)
    | coe rest =>
      norm_cast at paid enough ⊢
      omega

theorem steps_suffice_of_drop {steps : Nat}
    (enough : ((waiting + 1 : Nat) : ℕ∞) + rest ≤ (steps + 1 : Nat)) :
    (waiting : ℕ∞) + rest ≤ steps := by
  rw [Nat.cast_succ, Nat.cast_succ, add_right_comm] at enough
  exact (ENat.add_le_add_iff_right ENat.one_ne_top).mp enough

theorem steps_suffice_at_start (few : (edges reached degree).encard < hierarchySteps) :
    ((1 : Nat) : ℕ∞) + (edges (fun key => reached key ∧ key ∉ []) degree).encard ≤
      hierarchySteps := by
  rw [Nat.cast_one, add_comm]
  refine Order.add_one_le_of_lt ?_
  simpa only [not_mem_nil, not_false_eq_true, and_true] using few

/-! ### A question with three answers -/

/-- An answer to the question whether something is found, by a search that may not see everything:
yes when it is found, no when it is not found and all was seen, open otherwise. -/
def Answers (found seenThrough : Prop) : Option Bool → Prop
  | some true => found
  | some false => ¬ found ∧ seenThrough
  | none => ¬ found ∧ ¬ seenThrough

namespace Answers

variable {found seenThrough : Prop} {answer : Option Bool}

theorem iff (right : Answers found seenThrough answer) :
    (answer = some true ↔ found) ∧ (answer = some false ↔ ¬ found ∧ seenThrough) ∧
      (answer = none ↔ ¬ found ∧ ¬ seenThrough) := by
  match answer, right with
  | some true, right => simp_all [Answers]
  | some false, right => simp_all [Answers]
  | none, right => simp_all [Answers]

theorem isSome_iff (right : Answers found seenThrough answer) :
    answer.isSome = true ↔ found ∨ seenThrough := by
  match answer, right with
  | some true, right => exact ⟨fun _ => .inl right, fun _ => rfl⟩
  | some false, right => exact ⟨fun _ => .inr right.2, fun _ => rfl⟩
  | none, right => simp [not_or.mpr right]

theorem stricter_iff (right : Answers found seenThrough answer) (strict : Prop) :
    Answers found (seenThrough ∧ strict) answer ↔ found ∨ ¬ seenThrough ∨ strict := by
  match answer, right with
  | some true, right => exact ⟨.inl, fun _ => right⟩
  | some false, right =>
    constructor
    · exact fun both => .inr (.inr both.2.2)
    · rintro (found | unseen | holds)
      · exact absurd found right.1
      · exact absurd right.2 unseen
      · exact ⟨right.1, right.2, holds⟩
  | none, right =>
    exact ⟨fun _ => .inr (.inl right.2), fun _ => ⟨right.1, fun both => right.2 both.1⟩⟩

end Answers

/-! ### Keys that are seen and keys that are still to be seen -/

/-- A walk that started at a root has passed over no supertype: what it has seen is closed under
supertypes but for the keys that are still to be seen. -/
structure Covers (path : ClassPath) (root : String) (pending seen : List String) : Prop where
  started : root ∈ seen ∨ root ∈ pending
  closed : ∀ key ∈ seen, ∀ super ∈ path.superKeys key, super ∈ seen ∨ super ∈ pending

namespace Covers

variable {path : ClassPath} {root key : String} {pending seen : List String}

theorem mem_of_reaches (covers : Covers path root [] seen) (reaches : path.Reaches root key) :
    key ∈ seen := by
  induction reaches with
  | refl => exact covers.started.resolve_right not_mem_nil
  | tail _ step ih =>
    exact (covers.closed _ ih _ step).resolve_right not_mem_nil

theorem drop (covers : Covers path root (key :: pending) seen) (old : key ∈ seen) :
    Covers path root pending seen := by
  have kept : ∀ other, other ∈ seen ∨ other ∈ key :: pending → other ∈ seen ∨ other ∈ pending := by
    rintro other (member | member)
    · exact .inl member
    · rcases mem_cons.mp member with rfl | tail
      · exact .inl old
      · exact .inr tail
  exact ⟨kept root covers.started,
    fun other member super superKey => kept super (covers.closed other member super superKey)⟩

theorem visit (covers : Covers path root (key :: pending) seen) (next : List String)
    (kept : ∀ other ∈ pending, other ∈ next)
    (supers : ∀ super ∈ path.superKeys key, super ∈ next) :
    Covers path root next (key :: seen) := by
  have moved : ∀ other, other ∈ seen ∨ other ∈ key :: pending →
      other ∈ key :: seen ∨ other ∈ next := by
    rintro other (member | member)
    · exact .inl (mem_cons_of_mem _ member)
    · rcases mem_cons.mp member with rfl | tail
      · exact .inl mem_cons_self
      · exact .inr (kept other tail)
  refine ⟨moved root covers.started, fun other member super superKey => ?_⟩
  rcases mem_cons.mp member with rfl | tail
  · exact .inr (supers super superKey)
  · exact moved super (covers.closed other tail super superKey)

end Covers

section Steps

variable {path : ClassPath} {root target key : String} {steps : Nat} {stack seen : List String}
  {complete : Bool} {arguments queue : List Ty}

/-! ### Steps of the search for a superclass -/

theorem searchSupertypes_cons_of_mem (old : key ∈ seen) :
    path.searchSupertypes target (steps + 1) (key :: stack) seen complete =
      path.searchSupertypes target steps stack seen complete := by
  rw [searchSupertypes, if_pos (contains_iff_mem.mpr old)]

theorem searchSupertypes_cons_of_not_mem (fresh : key ∉ seen) :
    path.searchSupertypes target (steps + 1) (key :: stack) seen complete =
      if target ∈ path.superKeys key then some true
      else path.searchSupertypes target steps ((path.superKeys key).reverse ++ stack) (key :: seen)
        (complete && path.knows key) := by
  rw [searchSupertypes, if_neg (fun contained => fresh (contains_iff_mem.mp contained))]
  cases known : path.knows key with
  | false =>
    rw [path.directSupertypes?_of_unknown key known, path.superKeys_of_unknown key known,
      if_neg not_mem_nil, Bool.and_false]
    rfl
  | true =>
    rw [path.directSupertypes?_of_known key known, Bool.and_true]
    simp only [contains_iff_mem]
    rfl

/-- The search for a target is over within a number of steps: it finds the target, or it has
nothing left to look at. -/
def SearchEnds (path : ClassPath) (target : String) : Nat → List String → List String → Prop
  | _, [], _ => True
  | 0, _ :: _, _ => False
  | steps + 1, key :: stack, seen =>
    if key ∈ seen then path.SearchEnds target steps stack seen
    else target ∈ path.superKeys key ∨
      path.SearchEnds target steps ((path.superKeys key).reverse ++ stack) (key :: seen)

theorem searchEnds_nil : path.SearchEnds target steps [] seen := by
  cases steps <;> trivial

theorem searchSupertypes_of_not_searchEnds
    (unfinished : ¬ path.SearchEnds target steps stack seen) :
    path.searchSupertypes target steps stack seen complete = none := by
  fun_induction SearchEnds path target steps stack seen generalizing complete with
  | case1 => exact absurd trivial unfinished
  | case2 => rfl
  | case3 _ _ _ _ old ih =>
    rw [searchSupertypes_cons_of_mem old]
    exact ih unfinished
  | case4 _ _ _ _ fresh ih =>
    rw [not_or] at unfinished
    rw [searchSupertypes_cons_of_not_mem fresh, if_neg unfinished.1]
    exact ih unfinished.2

theorem searchEnds_of_enough (reached : ∀ key ∈ stack, path.Reaches root key)
    (enough : (stack.length : ℕ∞) + (edges (fun key => path.Reaches root key ∧ key ∉ seen)
      fun key => (path.references key).length).encard ≤ steps) :
    path.SearchEnds target steps stack seen := by
  fun_induction SearchEnds path target steps stack seen with
  | case1 => trivial
  | case2 => exact absurd enough (by simp)
  | case3 _ _ _ _ _ ih =>
    exact ih (forall_mem_of_forall_mem_cons reached) (steps_suffice_of_drop enough)
  | case4 _ key _ seen fresh ih =>
    obtain ⟨reachesKey, below⟩ := forall_mem_cons.mp reached
    refine .inr (ih (fun other isNext => ?_) ?_)
    · rcases mem_append.mp isNext with isSuper | isBelow
      · exact reachesKey.tail (mem_reverse.mp isSuper)
      · exact below other isBelow
    · rw [length_append, length_reverse]
      exact steps_suffice _ _ key seen reachesKey fresh _ _ _ (path.length_superKeys_le key) enough

/-! ### The search for a superclass -/

/-- What holds whenever the search takes a key from its stack: it has passed over nothing, the
target is no supertype of a key that it has seen, and the flag tells whether all of these are
known. -/
structure SearchState (path : ClassPath) (root target : String) (stack seen : List String)
    (complete : Bool) : Prop where
  covers : Covers path root stack seen
  reached : ∀ key, key ∈ seen ∨ key ∈ stack → path.Reaches root key
  absent : ∀ key ∈ seen, target ∉ path.superKeys key
  flag : complete = true ↔ ∀ key ∈ seen, path.knows key = true

namespace SearchState

theorem answers_of_nil (state : SearchState path root target [] seen complete) (steps : Nat) :
    Answers (∃ key, path.Reaches root key ∧ path.Extends key target) (path.ReachesOnlyKnown root)
      (path.searchSupertypes target steps [] seen complete) := by
  have nowhere : ¬ ∃ key, path.Reaches root key ∧ path.Extends key target := by
    rintro ⟨key, reaches, step⟩
    exact state.absent key (state.covers.mem_of_reaches reaches) step
  have onlyKnown : complete = true ↔ path.ReachesOnlyKnown root := by
    rw [state.flag]
    constructor
    · intro known key reaches
      exact known key (state.covers.mem_of_reaches reaches)
    · intro known key member
      exact known key (state.reached key (.inl member))
  rw [searchSupertypes]
  cases complete with
  | true => exact ⟨nowhere, onlyKnown.mp rfl⟩
  | false => exact ⟨nowhere, fun known => Bool.false_ne_true (onlyKnown.mpr known)⟩

theorem drop (state : SearchState path root target (key :: stack) seen complete)
    (old : key ∈ seen) : SearchState path root target stack seen complete where
  covers := state.covers.drop old
  reached other member := state.reached other (member.imp_right (mem_cons_of_mem _))
  absent := state.absent
  flag := state.flag

theorem visit (state : SearchState path root target (key :: stack) seen complete)
    (added : List String) (supers : ∀ super, super ∈ added ↔ super ∈ path.superKeys key)
    (absent : target ∉ path.superKeys key) :
    SearchState path root target (added ++ stack) (key :: seen) (complete && path.knows key) := by
  have reachesKey : path.Reaches root key := state.reached key (.inr mem_cons_self)
  refine ⟨state.covers.visit _ (fun _ => mem_append_right _)
    (fun super superKey => mem_append_left _ ((supers super).mpr superKey)), ?_, ?_, ?_⟩
  · rintro other (member | member)
    · rcases mem_cons.mp member with rfl | tail
      · exact reachesKey
      · exact state.reached other (.inl tail)
    · rcases mem_append.mp member with new | tail
      · exact reachesKey.tail ((supers other).mp new)
      · exact state.reached other (.inr (mem_cons_of_mem _ tail))
  · intro other member
    rcases mem_cons.mp member with rfl | tail
    · exact absent
    · exact state.absent other tail
  · rw [Bool.and_eq_true, state.flag, forall_mem_cons, and_comm]

end SearchState

theorem searchSupertypes_answers (state : SearchState path root target stack seen complete)
    (ends : path.SearchEnds target steps stack seen) :
    Answers (∃ key, path.Reaches root key ∧ path.Extends key target) (path.ReachesOnlyKnown root)
      (path.searchSupertypes target steps stack seen complete) := by
  fun_induction SearchEnds path target steps stack seen generalizing complete with
  | case1 => exact state.answers_of_nil _
  | case2 => exact absurd ends id
  | case3 _ _ _ _ old ih =>
    rw [searchSupertypes_cons_of_mem old]
    exact ih (state.drop old) ends
  | case4 _ key _ _ fresh ih =>
    rw [searchSupertypes_cons_of_not_mem fresh]
    by_cases hit : target ∈ path.superKeys key
    · rw [if_pos hit]
      exact ⟨key, state.reached key (.inr mem_cons_self), hit⟩
    · rw [if_neg hit]
      exact ih (state.visit (path.superKeys key).reverse (by simp) hit) (ends.resolve_left hit)

end Steps

variable (sub super : String)

/-- The search for whether a class extends another is over within the steps it has. There is none
to make when the two are the same or the second is the class of all objects. -/
def WalkEnds (path : ClassPath) (sub super : String) : Prop :=
  sub = super ∨ super = "java.lang.Object" ∨ path.SearchEnds super hierarchySteps [sub] []

theorem walkEnds_of_few_edges (few : (path.supertypeEdges sub).encard < hierarchySteps) :
    path.WalkEnds sub super := by
  refine .inr (.inr (searchEnds_of_enough (fun key isStart => ?_) (steps_suffice_at_start few)))
  rw [mem_singleton.mp isStart]
  exact .refl

theorem walkEnds_of_decided (decided : path.isSubclass sub super ≠ none) :
    path.WalkEnds sub super := by
  rw [isSubclass] at decided
  by_cases immediate : sub = super ∨ super = "java.lang.Object"
  · exact immediate.imp_right .inl
  · rw [if_neg (by simpa using immediate)] at decided
    refine .inr (.inr (by_contra fun unfinished => decided ?_))
    exact searchSupertypes_of_not_searchEnds unfinished

theorem isSubclass_answers_of_walkEnds (ends : path.WalkEnds sub super) :
    Answers (path.IsSubclass sub super) (path.ReachesOnlyKnown sub)
      (path.isSubclass sub super) := by
  rw [isSubclass]
  by_cases immediate : sub = super ∨ super = "java.lang.Object"
  · rw [if_pos (by simpa using immediate)]
    exact immediate.elim .inl fun object => .inr (.inl object)
  · rw [if_neg (by simpa using immediate)]
    rw [not_or] at immediate
    have found : path.IsSubclass sub super ↔
        ∃ key, path.Reaches sub key ∧ path.Extends key super := by
      constructor
      · rintro (same | object | reaches)
        · exact absurd same immediate.1
        · exact absurd object immediate.2
        · rcases Relation.ReflTransGen.cases_tail reaches with same | ⟨key, before, step⟩
          · exact absurd same.symm immediate.1
          · exact ⟨key, before, step⟩
      · rintro ⟨key, reaches, step⟩
        exact .inr (.inr (reaches.tail step))
    rw [found]
    refine searchSupertypes_answers ?_ ((ends.resolve_left immediate.1).resolve_left immediate.2)
    refine ⟨⟨.inr mem_cons_self, by simp⟩, ?_, by simp, by simp⟩
    rintro key (member | member)
    · cases member
    · rw [mem_singleton.mp member]
      exact .refl

theorem isSubclass_answers (few : (path.supertypeEdges sub).encard < hierarchySteps) :
    Answers (path.IsSubclass sub super) (path.ReachesOnlyKnown sub) (path.isSubclass sub super) :=
  path.isSubclass_answers_of_walkEnds sub super (path.walkEnds_of_few_edges sub super few)

theorem isSubclass_answers_of_decided (decided : path.isSubclass sub super ≠ none) :
    Answers (path.IsSubclass sub super) (path.ReachesOnlyKnown sub) (path.isSubclass sub super) :=
  path.isSubclass_answers_of_walkEnds sub super (path.walkEnds_of_decided sub super decided)

theorem isSubclass_of_eq_true (extendsIt : path.isSubclass sub super = some true) :
    path.IsSubclass sub super := by
  have answers := path.isSubclass_answers_of_decided sub super (by simp [extendsIt])
  rwa [extendsIt] at answers

/-! ### The walk over a hierarchy -/

theorem key?_substitute (substitution : Ty.Substitution) {type : Ty} {key : String}
    (isClass : type.key? = some key) : (type.substitute substitution).key? = some key := by
  cases type with
  | «class» => exact isClass
  | _ => cases isClass

theorem key?_erasure {type : Ty} {key : String} (isClass : type.key? = some key) :
    type.erasure.key? = some key := by
  cases type with
  | «class» => exact isClass
  | _ => cases isClass

theorem key?_substitute_nil (type : Ty) : (type.substitute []).key? = type.key? := by
  cases type <;> rfl

theorem written_of_mem_references (type : KnownType) (found : path.type? key = some type)
    (reference : Ty) (member : reference ∈ path.references key) :
    (∃ written ∈ type.superclass.toList ++ type.interfaces, reference = written.substitute []) ∨
      type.superclass = none ∧ key ≠ "java.lang.Object" ∧ reference = Ty.object := by
  rw [references, directSupertypes?, found] at member
  simp only [Option.map_some, Option.getD_some, Ty.Substitution.of, zip_nil_right,
    reverse_nil] at member
  split at member
  next none =>
    rw [append_eq_nil_iff, Option.toList_eq_nil_iff] at none
    by_cases isObject : key = "java.lang.Object"
    · rw [if_pos isObject] at member
      exact absurd member not_mem_nil
    · rw [if_neg isObject] at member
      exact .inr ⟨none.1, isObject, mem_singleton.mp member⟩
  next =>
    obtain ⟨written, named, rfl⟩ := mem_map.mp member
    exact .inl ⟨written, named, rfl⟩

theorem mem_walked_of_mem_superKeys (type : KnownType) (found : path.type? key = some type)
    (arguments : List Ty) (super : String) (superKey : super ∈ path.superKeys key) :
    super ∈ (walkedSupertypes type key arguments).filterMap Ty.key? := by
  obtain ⟨reference, member, isClass⟩ := mem_filterMap.mp superKey
  rw [walkedSupertypes, ← map_append, filterMap_append, mem_append]
  rcases written_of_mem_references path key type found reference member with
    ⟨written, named, rfl⟩ | ⟨noSuperclass, notObject, rfl⟩
  · rw [key?_substitute_nil] at isClass
    refine .inl (mem_filterMap.mpr ⟨_, mem_map_of_mem named, ?_⟩)
    by_cases raw : type.isRaw arguments = true
    · simp only [if_pos raw]
      exact key?_erasure isClass
    · simp only [if_neg raw]
      exact key?_substitute _ isClass
  · refine .inr (mem_filterMap.mpr ⟨Ty.object, ?_, isClass⟩)
    simp [noSuperclass, notObject]

section Walking

variable {path : ClassPath} {steps : Nat} {key root : String} {arguments queue : List Ty}
  {seen : List String} {complete : Bool}

theorem reachesOnlyKnown_of_walkFrom_complete
    (covers : Covers path root (queue.filterMap Ty.key?) seen)
    (known : complete = true → ∀ key ∈ seen, path.knows key = true)
    (done : (path.walkFrom steps queue seen complete).complete = true) :
    path.ReachesOnlyKnown root := by
  fun_induction walkFrom path steps queue seen complete with
  | case1 => exact fun key reaches => known done key (covers.mem_of_reaches reaches)
  | case2 => cases done
  | case3 _ _ _ _ _ _ old ih =>
    exact ih (covers.drop (contains_iff_mem.mp old)) known done
  | case4 _ key _ _ _ _ _ found ih =>
    have none : path.superKeys key = [] :=
      path.superKeys_of_unknown key (by rw [knows, found]; rfl)
    exact ih (covers.visit _ (fun _ => id) (by simp [none])) nofun done
  | case5 _ key arguments _ _ _ _ type found _ ih =>
    rw [filterMap_append] at ih
    refine ih (covers.visit _ (fun _ => mem_append_left _)
      fun super superKey => mem_append_right _ ?_) (fun flag => ?_) done
    · exact mem_walked_of_mem_superKeys path key type found arguments super superKey
    · exact forall_mem_cons.mpr ⟨by rw [knows, found]; rfl, known flag⟩
  | case6 _ type _ _ _ isOther ih =>
    cases type with
    | «class» => exact absurd rfl (isOther _ _)
    | _ => exact ih covers known done

end Walking

/-- A walk goes from a use of a known type to each of its supertypes as it meets them. -/
def WalksTo (path : ClassPath) (type super : Ty) : Prop :=
  ∃ key arguments known, type = .class key arguments ∧ path.type? key = some known ∧
    super ∈ walkedSupertypes known key arguments

def Meets (path : ClassPath) (root : Ty) (key : String) : Prop :=
  ∃ type, Relation.ReflTransGen path.WalksTo root type ∧ type.key? = some key

def walkedCount (path : ClassPath) (key : String) : Nat :=
  ((path.type? key).map fun type => (walkedSupertypes type key []).length).getD 0

def walkEdges (path : ClassPath) (root : Ty) : Set (String × Nat) :=
  edges (path.Meets root) path.walkedCount

theorem length_walkedSupertypes (type : KnownType) (found : path.type? key = some type)
    (arguments : List Ty) :
    (walkedSupertypes type key arguments).length = path.walkedCount key := by
  rw [walkedCount, found]
  simp [walkedSupertypes]

theorem walkFrom_complete_of_known (root : Ty) (steps : Nat) (queue : List Ty)
    (seen : List String) (isComplete : complete = true)
    (met : ∀ type ∈ queue, Relation.ReflTransGen path.WalksTo root type)
    (known : ∀ key, path.Meets root key → path.knows key = true)
    (enough : (queue.length : ℕ∞) + (edges (fun key => path.Meets root key ∧ key ∉ seen)
      path.walkedCount).encard ≤ steps) :
    (path.walkFrom steps queue seen complete).complete = true := by
  fun_induction walkFrom path steps queue seen complete with
  | case1 => exact isComplete
  | case2 => exact absurd enough (by simp)
  | case3 _ _ _ _ _ _ _ ih | case6 _ _ _ _ _ _ ih =>
    exact ih isComplete (forall_mem_of_forall_mem_cons met) (steps_suffice_of_drop enough)
  | case4 _ key _ _ _ _ _ found =>
    have isKnown := known key ⟨_, met _ mem_cons_self, rfl⟩
    rw [knows, found] at isKnown
    cases isKnown
  | case5 _ key arguments _ seen _ fresh type found _ ih =>
    obtain ⟨metType, metRest⟩ := forall_mem_cons.mp met
    refine ih isComplete (fun other member => ?_) ?_
    · rcases mem_append.mp member with tail | new
      · exact metRest other tail
      · exact metType.tail ⟨key, arguments, type, rfl, found, new⟩
    · rw [length_append, Nat.add_comm]
      exact steps_suffice _ _ key seen ⟨_, metType, rfl⟩ (mt contains_iff_mem.mpr fresh) _ _ _
        (length_walkedSupertypes path key type found arguments).le enough

theorem hierarchy_complete_of_unknown (arguments : List Ty)
    (unknown : ¬ path.ReachesOnlyKnown key) :
    (path.hierarchy (.class key arguments)).complete = false := by
  rw [← Bool.not_eq_true]
  intro done
  exact unknown (reachesOnlyKnown_of_walkFrom_complete ⟨.inr mem_cons_self, by simp⟩ (by simp) done)

theorem hierarchy_complete_of_known (root : Ty)
    (few : (path.walkEdges root).encard < hierarchySteps)
    (known : ∀ key, path.Meets root key → path.knows key = true) :
    (path.hierarchy root).complete = true := by
  refine walkFrom_complete_of_known path root hierarchySteps [root] [] rfl ?_ known
    (steps_suffice_at_start few)
  intro type member
  rw [mem_singleton.mp member]

/-! ### What the answers are worth -/

theorem isHierarchyKnown_iff (few : (path.supertypeEdges key).encard < hierarchySteps) :
    path.isHierarchyKnown key = true ↔ path.Reaches key nobody ∨ path.ReachesOnlyKnown key := by
  have found : path.IsSubclass key nobody ↔ path.Reaches key nobody := by
    constructor
    · rintro (same | object | reaches)
      · rw [same]
        exact .refl
      · exact absurd object (by decide)
      · exact reaches
    · exact fun reaches => .inr (.inr reaches)
  rw [← found]
  exact (path.isSubclass_answers key nobody few).isSome_iff

/-- In a hierarchy with fewer edges than a search has steps, a class is found to extend another
exactly when it does, and the question is left open exactly when it does not and a key is reached
of which nothing is known. A supertype that is not a class type leaves nothing open: the answer is
what it ought to be unless the class does not extend the other, all keys that are reached are known
and some supertype that is reached is no class type; then the answer is no, where it should be
open. The flags of a hierarchy fall when a key is reached of which nothing is known, and for
nothing else. -/
theorem isSubclass_verdicts (path : ClassPath) (sub super : String)
    (few : (path.supertypeEdges sub).encard < hierarchySteps) :
    (path.isSubclass sub super = some true ↔ path.IsSubclass sub super) ∧
    (path.isSubclass sub super = some false ↔
      ¬ path.IsSubclass sub super ∧ path.ReachesOnlyKnown sub) ∧
    (path.isSubclass sub super = none ↔
      ¬ path.IsSubclass sub super ∧ ¬ path.ReachesOnlyKnown sub) ∧
    (Answers (path.IsSubclass sub super)
        (path.ReachesOnlyKnown sub ∧ path.ReachesOnlyClasses sub) (path.isSubclass sub super) ↔
      path.IsSubclass sub super ∨ ¬ path.ReachesOnlyKnown sub ∨ path.ReachesOnlyClasses sub) ∧
    (path.isHierarchyKnown sub = true ↔
      path.Reaches sub nobody ∨ path.ReachesOnlyKnown sub) ∧
    ∀ arguments,
      (¬ path.ReachesOnlyKnown sub →
        (path.hierarchy (.class sub arguments)).complete = false ∧
          ∀ name, (path.findMethods (.class sub arguments) name).2 = false) ∧
      ((path.walkEdges (.class sub arguments)).encard < hierarchySteps →
        (∀ key, path.Meets (.class sub arguments) key → path.knows key = true) →
        (path.hierarchy (.class sub arguments)).complete = true ∧
          ∀ name, (path.findMethods (.class sub arguments) name).2 = true) := by
  have answers := path.isSubclass_answers sub super few
  obtain ⟨yes, no, undecided⟩ := answers.iff
  refine ⟨yes, no, undecided, answers.stricter_iff _, path.isHierarchyKnown_iff sub few, ?_⟩
  intro arguments
  constructor
  · intro unknown
    have fallen := path.hierarchy_complete_of_unknown sub arguments unknown
    exact ⟨fallen, fun _ => fallen⟩
  · intro fewWalked known
    have stands := path.hierarchy_complete_of_known (.class sub arguments) fewWalked known
    exact ⟨stands, fun _ => stands⟩

/-- Two classes that extend each other, of which the first names an interface that could not be
resolved. -/
def danglingCycle : ClassPath where
  type? key :=
    if key = "A" then
      some { key, kind := .class, superclass := some (.ofKey "B"), interfaces := [.unknown] }
    else if key = "B" then some { key, kind := .class, superclass := some (.ofKey "A") }
    else none
  hasPackage _ := false

theorem danglingCycle_reaches {key : String} (reaches : danglingCycle.Reaches "A" key) :
    key = "A" ∨ key = "B" := by
  induction reaches with
  | refl => exact .inl rfl
  | tail _ step ih =>
    rcases ih with rfl | rfl
    · exact .inr (mem_singleton.mp step)
    · exact .inl (mem_singleton.mp step)

theorem danglingCycle_edges : (danglingCycle.supertypeEdges "A").encard < hierarchySteps := by
  have inside : danglingCycle.supertypeEdges "A" ⊆
      (({("A", 0), ("A", 1), ("B", 0)} : Finset (String × Nat)) : Set (String × Nat)) := by
    rintro ⟨owner, position⟩ ⟨reaches, bound⟩
    rcases danglingCycle_reaches reaches with rfl | rfl
    · have small : position < 2 := bound
      rcases (by omega : position = 0 ∨ position = 1) with rfl | rfl <;> simp
    · obtain rfl : position = 0 := Nat.lt_one_iff.mp bound
      simp
  refine lt_of_le_of_lt (Set.encard_le_encard inside) ?_
  rw [Set.encard_coe_eq_coe_finsetCard]
  exact Nat.cast_lt.mpr (by decide)

/-- The first class of the cycle is said not to extend a third one, and its hierarchy to be known,
though one of its supertypes could be anything. -/
theorem isSubclass_verdicts_danglingCycle :
    (danglingCycle.supertypeEdges "A").encard < hierarchySteps ∧
    danglingCycle.isSubclass "A" "C" = some false ∧
    ¬ Answers (danglingCycle.IsSubclass "A" "C")
      (danglingCycle.ReachesOnlyKnown "A" ∧ danglingCycle.ReachesOnlyClasses "A")
      (danglingCycle.isSubclass "A" "C") ∧
    danglingCycle.isHierarchyKnown "A" = true := by
  obtain ⟨-, no, -, honest, known, -⟩ :=
    isSubclass_verdicts danglingCycle "A" "C" danglingCycle_edges
  have onlyKnown : danglingCycle.ReachesOnlyKnown "A" := by
    intro key reaches
    rcases danglingCycle_reaches reaches with rfl | rfl <;> rfl
  have notSub : ¬ danglingCycle.IsSubclass "A" "C" := by
    rintro (same | object | reaches)
    · exact absurd same (by decide)
    · exact absurd object (by decide)
    · exact absurd (danglingCycle_reaches reaches) (by decide)
  have notClasses : ¬ danglingCycle.ReachesOnlyClasses "A" := by
    intro onlyClasses
    have unresolved := onlyClasses "A" .refl .unknown (mem_cons_of_mem _ mem_cons_self)
    cases unresolved
  refine ⟨danglingCycle_edges, no.mpr ⟨notSub, onlyKnown⟩, ?_, known.mpr (.inr onlyKnown)⟩
  rw [honest]
  exact not_or.mpr ⟨notSub, not_or.mpr ⟨not_not.mpr onlyKnown, notClasses⟩⟩

end ClassPath

end JavaFrontEnd
