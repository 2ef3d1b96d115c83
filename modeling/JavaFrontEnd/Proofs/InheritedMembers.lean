/-
Members that a type inherits. A walk over the hierarchy of a type meets uses of its supertypes with
arguments, and what is found in one of them has these in place of its type parameters, also in place
of type parameters of a method with the same names. Private fields are found like others. Abstract
methods are implemented by any concrete method in the hierarchy.
-/

import JavaFrontEnd.Binding.Binder
import JavaFrontEnd.Proofs.Hierarchy

namespace JavaFrontEnd

open List

variable (keys : List String)

/-! ### Substitution under binders -/

namespace Ty

def Substitution.without (substitution : Substitution) (names : List String) : Substitution :=
  substitution.filter fun entry => !names.contains entry.1

def Substitution.Keeps (substitution : Substitution) (name : String) : Prop :=
  (substitution.lookup name).getD (.variable name) = .variable name

variable (substitution : Substitution) (names : List String)

theorem Substitution.lookup_without (name : String) :
    (substitution.without names).lookup name =
      if name ∈ names then none else substitution.lookup name := by
  unfold without
  induction substitution with
  | nil => simp
  | cons entry rest ih =>
    by_cases isBound : entry.1 ∈ names <;> grind

mutual

theorem substitute_eq_without_iff : ∀ type : Ty,
    type.substitute substitution = type.substitute (substitution.without names) ↔
      ∀ name ∈ names, type.mentions (· == name) = true → substitution.Keeps name
  | .variable other => by
    rw [substitute, substitute, Substitution.lookup_without]
    simp only [mentions, beq_iff_eq]
    by_cases isBound : other ∈ names
    · rw [if_pos isBound]
      exact ⟨fun kept name _ isName => isName ▸ kept, fun kept => kept other isBound rfl⟩
    · rw [if_neg isBound]
      exact ⟨fun _ name isName same => absurd (same ▸ isName) isBound, fun _ => rfl⟩
  | .class key arguments => by
    rw [substitute, substitute, Ty.class.injEq, substituteAll_eq_without_iff arguments]
    exact and_iff_right rfl
  | .array element => by
    rw [substitute, substitute, Ty.array.injEq, substitute_eq_without_iff element]
    rfl
  | .primitive _ | .void | .null | .wildcard | .unknown => ⟨nofun, fun _ => rfl⟩

theorem substituteAll_eq_without_iff : ∀ types : List Ty,
    substituteAll substitution types = substituteAll (substitution.without names) types ↔
      ∀ name ∈ names, anyMentions (· == name) types = true → substitution.Keeps name
  | [] => ⟨nofun, fun _ => rfl⟩
  | type :: rest => by
    rw [substituteAll, substituteAll, cons.injEq, substitute_eq_without_iff type,
      substituteAll_eq_without_iff rest]
    simp only [anyMentions, Bool.or_eq_true, or_imp, forall_and]

end

end Ty

namespace KnownMethod

def mentions (method : KnownMethod) (name : String) : Prop :=
  ∃ type ∈ method.result :: method.parameters, type.mentions (· == name) = true

/-- The method with the type parameters of its owner replaced. Its own type parameters hide those
of its owner. -/
def instantiate (substitution : Ty.Substitution) (method : KnownMethod) : KnownMethod :=
  method.substitute (substitution.without method.typeParameters)

theorem substitute_eq_instantiate_iff (substitution : Ty.Substitution) (method : KnownMethod) :
    method.substitute substitution = method.instantiate substitution ↔
      ∀ name ∈ method.typeParameters, method.mentions name → substitution.Keeps name := by
  unfold instantiate substitute mentions
  simp only [mk.injEq, true_and, and_true, map_inj_left, Ty.substitute_eq_without_iff,
    mem_cons, exists_eq_or_imp, or_imp, forall_exists_index, and_imp]
  constructor
  · exact fun kept name isName => ⟨kept.2 name isName, fun type isType =>
      kept.1 type isType name isName⟩
  · exact fun kept => ⟨fun type isType name isName => (kept name isName).2 type isType,
      fun name isName => (kept name isName).1⟩

end KnownMethod

/-! ### Hierarchies -/

namespace ClassPath

variable {path : ClassPath} {type : Ty} {name : String} {method : KnownMethod}

theorem exists_use_of_mem_visited
    (areSeen : ∀ use ∈ queue, Relation.ReflTransGen path.WalksTo type use)
    (isVisited : entry ∈ (path.walkFrom steps queue seen complete).visited) :
    ∃ key arguments, Relation.ReflTransGen path.WalksTo type (.class key arguments) ∧
      path.type? key = some entry.1 ∧ entry.2 = entry.1.substitution arguments := by
  fun_induction walkFrom path steps queue seen complete with
  | case1 | case2 => cases isVisited
  | case3 _ _ _ _ _ _ _ ih | case4 _ _ _ _ _ _ _ _ ih
  | case6 _ _ _ _ _ _ ih =>
    exact ih (forall_mem_cons.mp areSeen).2 isVisited
  | case5 _ key arguments _ _ _ _ owner isKnown _ ih =>
    obtain ⟨isSeen, areSeen⟩ := forall_mem_cons.mp areSeen
    rcases mem_cons.mp isVisited with rfl | isAbove
    · exact ⟨key, arguments, isSeen, isKnown, rfl⟩
    · refine ih (fun use isUse => ?_) isAbove
      exact (mem_append.mp isUse).elim (areSeen use) fun isSuper =>
        isSeen.tail ⟨key, arguments, owner, rfl, isKnown, isSuper⟩

theorem addMethods_subset (collected methods : List KnownMethod) :
    addMethods collected methods ⊆ collected ++ methods := by
  unfold addMethods
  induction methods generalizing collected with
  | nil => exact subset_append_left _ _
  | cons first rest ih =>
    refine Subset.trans (ih _) ?_
    rw [append_cons]
    refine append_subset.mpr ⟨?_, subset_append_right _ _⟩
    dsimp only
    split
    · rw [append_assoc]
      exact subset_append_left _ _
    · exact subset_append_left _ _

def seenNamed (visited : List (KnownType × Ty.Substitution)) (name : String) : List KnownMethod :=
  visited.flatMap fun entry => (entry.1.methodsNamed name).map (KnownMethod.substitute entry.2)

theorem findMethods_eq (path : ClassPath) (type : Ty) (name : String) :
    (path.findMethods type name).1 =
      addMethods [] (seenNamed (path.hierarchy type).visited name) := by
  unfold seenNamed addMethods
  rw [foldl_flatMap]
  rfl

theorem exists_declared_of_mem_findMethods (isFound : method ∈ (path.findMethods type name).1) :
    ∃ entry ∈ (path.hierarchy type).visited, ∃ declared ∈ entry.1.methodsNamed name,
      declared.substitute entry.2 = method := by
  rw [findMethods_eq] at isFound
  simpa only [seenNamed, nil_append, mem_flatMap, mem_map] using addMethods_subset _ _ isFound

/-- A method that is found is declared in a type that is seen from the receiver, and the arguments
of that type replace its variables, those of the method included: it is the method that the type
has with these arguments exactly if every variable that the method declares and uses stands for
itself there. -/
theorem findMethods_instantiate_iff (isFound : method ∈ (path.findMethods type name).1) :
    ∃ key arguments owner, ∃ declared ∈ owner.methodsNamed name,
      Relation.ReflTransGen path.WalksTo type (.class key arguments) ∧
      path.type? key = some owner ∧ method = declared.substitute (owner.substitution arguments) ∧
      (method = declared.instantiate (owner.substitution arguments) ↔
        ∀ own ∈ declared.typeParameters, declared.mentions own →
          (owner.substitution arguments).Keeps own) := by
  obtain ⟨entry, isVisited, declared, isDeclared, rfl⟩ :=
    exists_declared_of_mem_findMethods isFound
  obtain ⟨key, arguments, isSeen, isKnown, same⟩ :=
    exists_use_of_mem_visited (forall_mem_singleton.mpr .refl) isVisited
  rw [same]
  exact ⟨key, arguments, entry.1, declared, isDeclared, isSeen, isKnown, rfl,
    declared.substitute_eq_instantiate_iff _⟩

/-- A generic class whose method has a type parameter with the name of that of the class. -/
def boxPath : ClassPath where
  type? key := if key = "Box" then some
      { key, kind := .class, typeParameters := ["T"]
        methods := [⟨"id", [.variable "T"], false, .variable "T", ["T"], false, false, false, false,
          false, "Box"⟩] }
    else none
  hasPackage _ := false

theorem findMethods_instantiate_iff_box :
    ∃ method ∈ (boxPath.findMethods (.class "Box" [.string]) "id").1, method.result = .string ∧
      ∃ key arguments owner, ∃ declared ∈ KnownType.methodsNamed owner "id",
        boxPath.type? key = some owner ∧
        method = declared.substitute (owner.substitution arguments) := by
  have isFound : ⟨"id", [.string], false, .string, ["T"], false, false, false, false, false,
      "Box"⟩ ∈ (boxPath.findMethods (.class "Box" [.string]) "id").1 := by decide
  obtain ⟨key, arguments, owner, declared, isDeclared, -, isKnown, same, -⟩ :=
    findMethods_instantiate_iff isFound
  exact ⟨_, isFound, rfl, key, arguments, owner, declared, isDeclared, isKnown, same⟩

end ClassPath

/-! ### Abstract methods -/

theorem KnownMethod.sameErasure_trans {first : KnownMethod} (same : first.sameErasure second)
    (sameToo : second.sameErasure third) : first.sameErasure third := by
  unfold sameErasure at *
  simp only [Bool.and_eq_true, beq_iff_eq, decide_eq_true_eq] at *
  exact ⟨same.1.trans sameToo.1, same.2.trans sameToo.2⟩

namespace ClassPath

/-- The methods in the hierarchy of a type, as they are seen from it. -/
def seenMethods (path : ClassPath) (key : String) : List KnownMethod :=
  (path.hierarchy (.ofKey key)).visited.flatMap fun entry =>
    (entry.1.methods.filter fun method => !method.isStatic && !method.isPrivate).map fun method =>
      { method with parameters := method.parameters.map (Ty.substitute entry.2) }

def keysCovered (path : ClassPath) (key : String) : List String :=
  path.coveredKeys hierarchySteps ((path.type? key).bind KnownType.superclass)

def isImplemented (concrete : List KnownMethod) (method : KnownMethod) : Bool :=
  concrete.any fun other => other.sameErasure method || implementsLoosely other method

def addMissing (concrete missing : List KnownMethod) (method : KnownMethod) : List KnownMethod :=
  if isImplemented concrete method then missing
  else if missing.any fun other => other.sameErasure method then missing
  else missing ++ [method]

variable {path : ClassPath} {key : String} {concrete missing : List KnownMethod}

theorem exists_mem_addMissing_iff (required method : KnownMethod) :
    (∃ other ∈ addMissing concrete missing required, other.sameErasure method) ↔
      (∃ other ∈ missing, other.sameErasure method) ∨
        isImplemented concrete required = false ∧ required.sameErasure method := by
  unfold addMissing
  cases isImplemented concrete required with
  | true => simp
  | false =>
    rw [if_neg Bool.false_ne_true]
    split
    next isListed =>
      obtain ⟨other, isOther, same⟩ := any_eq_true.mp isListed
      refine ⟨.inl, ?_⟩
      rintro (isThere | ⟨-, sameToo⟩)
      · exact isThere
      · exact ⟨other, isOther, KnownMethod.sameErasure_trans same sameToo⟩
    next => simp [or_and_right, exists_or]

theorem exists_mem_foldl_addMissing_iff (required : List KnownMethod) (method : KnownMethod) :
    (∃ other ∈ required.foldl (addMissing concrete) missing, other.sameErasure method) ↔
      (∃ other ∈ missing, other.sameErasure method) ∨
        ∃ other ∈ required, isImplemented concrete other = false ∧ other.sameErasure method := by
  induction required generalizing missing with
  | nil => simp
  | cons first rest ih =>
    rw [foldl_cons, ih, exists_mem_addMissing_iff, or_assoc, exists_mem_cons_iff]

/-- A method is reported as missing exactly if the hierarchy has an abstract method with its erased
signature, not covered by a concrete superclass, that no concrete method of the hierarchy
implements. Where the concrete method is declared plays no part: it may be one that the abstract
method overrides. -/
theorem exists_unimplemented_iff (complete : (path.hierarchy (.ofKey key)).complete = true)
    (method : KnownMethod) :
    ∃ missing, path.unimplemented? key = some missing ∧
      ((∃ other ∈ missing, other.sameErasure method) ↔
        ∃ required ∈ path.seenMethods key, required.isAbstract = true ∧
          required.owner ∉ path.keysCovered key ∧ required.sameErasure method ∧
          ∀ concrete ∈ path.seenMethods key, concrete.isAbstract = false →
            concrete.sameErasure required = false ∧
              implementsLoosely concrete required = false) := by
  refine ⟨((path.seenMethods key).filter fun method =>
    method.isAbstract && !(path.keysCovered key).contains method.owner).foldl
      (addMissing ((path.seenMethods key).filter fun method => !method.isAbstract)) [], ?_, ?_⟩
  · exact if_pos complete
  · rw [exists_mem_foldl_addMissing_iff]
    simp [isImplemented, and_assoc, and_comm, and_left_comm]

def plainMethod (owner : String) (isAbstract : Bool) : KnownMethod :=
  { name := "m", parameters := [], result := .int, isAbstract, owner }

/-- A class with a method, an abstract class that makes it abstract, and a class below that. -/
def reabstractingPath : ClassPath where
  type? key :=
    if key = "C" then some { key, kind := .class, superclass := some (.ofKey "B") }
    else if key = "B" then some
      { key, kind := .class, isAbstract := true, superclass := some (.ofKey "java.lang.Object")
        methods := [plainMethod key true] }
    else if key = "java.lang.Object" then some
      { key, kind := .class, methods := [plainMethod key false] }
    else none
  hasPackage _ := false

theorem exists_unimplemented_iff_reabstracting :
    ∃ missing, reabstractingPath.unimplemented? "C" = some missing ∧
      ¬ ∃ other ∈ missing, other.sameErasure (plainMethod "B" true) := by
  obtain ⟨missing, isMissing, isListed⟩ :=
    @exists_unimplemented_iff reabstractingPath "C" (by decide) (plainMethod "B" true)
  refine ⟨missing, isMissing, fun isOther => ?_⟩
  exact absurd (isListed.mp isOther) (by decide)

end ClassPath

/-! ### Private fields -/

/-- What is known of a type from inside the types with some keys: its private fields only if it is
one of these. -/
def KnownType.seenFrom (type : KnownType) : KnownType :=
  { type with
    fields := type.fields.filter fun field => !field.isPrivate || keys.contains type.key }

namespace ClassPath

def seenFrom (path : ClassPath) (keys : List String) : ClassPath :=
  { path with type? := fun key => (path.type? key).map (KnownType.seenFrom keys) }

namespace FoundField

/-- The field may be used by its name alone inside the types with some keys. -/
def IsSeenFrom (found : FoundField) : Prop :=
  found.field.isPrivate = true → found.owner.key ∈ keys

def seenFrom (found : FoundField) : FoundField :=
  { found with owner := found.owner.seenFrom keys }

end FoundField

variable (path : ClassPath) (keys : List String) (name : String)

theorem type?_seenFrom (key : String) :
    (path.seenFrom keys).type? key = (path.type? key).map (KnownType.seenFrom keys) :=
  rfl

theorem visited_seenFrom (steps : Nat) (queue : List Ty) (seen : List String) (complete : Bool) :
    ((path.seenFrom keys).walkFrom steps queue seen complete).visited =
      (path.walkFrom steps queue seen complete).visited.map fun entry =>
        (entry.1.seenFrom keys, entry.2) := by
  fun_induction walkFrom path steps queue seen complete with
  | case1 => unfold walkFrom; rfl
  | case2 => rfl
  | case3 _ _ _ _ _ _ isOld ih =>
    rw [walkFrom, if_pos isOld, ih]
  | case4 _ _ _ _ _ _ isNew isUnknown ih =>
    rw [walkFrom, if_neg isNew, type?_seenFrom, isUnknown]
    exact ih
  | case5 _ _ _ _ _ _ isNew _ isKnown _ ih =>
    rw [walkFrom, if_neg isNew, type?_seenFrom, isKnown, map_cons]
    exact congrArg _ ih
  | case6 _ type _ _ _ isNoClass ih =>
    cases type with
    | «class» key arguments => exact absurd rfl (isNoClass key arguments)
    | _ => exact ih

variable {path keys name}

theorem isSeenFrom_of_findField?
    (isFound : (path.seenFrom keys).findField? type name = some found) : found.IsSeenFrom keys := by
  obtain ⟨entry, isEntry, isOwned⟩ := exists_of_findSome?_eq_some isFound
  rw [hierarchy, visited_seenFrom] at isEntry
  obtain ⟨⟨owner, substitution⟩, -, rfl⟩ := mem_map.mp isEntry
  obtain ⟨field, isField, rfl⟩ := Option.map_eq_some_iff.mp isOwned
  have isKept := (mem_filter.mp (mem_of_find?_eq_some isField)).2
  intro isPrivate
  rw [show field.isPrivate = true from isPrivate] at isKept
  exact contains_iff_mem.mp isKept

theorem field?_seenFrom {type : KnownType}
    (isSeen : ∀ field, type.field? name = some field → field.isPrivate = true → type.key ∈ keys) :
    (type.seenFrom keys).field? name = type.field? name := by
  unfold KnownType.field? KnownType.seenFrom at *
  generalize type.fields = fields at isSeen ⊢
  induction fields with
  | nil => rfl
  | cons field rest ih => grind

theorem findField?_seenFrom {type : Ty}
    (areSeen : ∀ found, path.findField? type name = some found → found.IsSeenFrom keys) :
    (path.seenFrom keys).findField? type name =
      (path.findField? type name).map (FoundField.seenFrom keys) := by
  unfold findField? hierarchy at areSeen ⊢
  rw [visited_seenFrom, findSome?_map]
  generalize (path.walkFrom hierarchySteps [type] [] true).visited = visited at areSeen ⊢
  induction visited with
  | nil => rfl
  | cons entry rest ih =>
    obtain ⟨owner, substitution⟩ := entry
    rw [findSome?_cons] at areSeen
    rw [findSome?_cons, findSome?_cons]
    dsimp only [Function.comp_apply] at areSeen ⊢
    have sameField : (owner.seenFrom keys).field? name = owner.field? name := by
      refine field?_seenFrom fun field isField => ?_
      rw [isField] at areSeen
      exact areSeen _ rfl
    rw [sameField]
    cases isField : owner.field? name with
    | none =>
      rw [isField] at areSeen
      exact ih areSeen
    | some field => rfl

end ClassPath

open ClassPath Bindings

def NameHit.seenFrom : NameHit → NameHit
  | .field found place => .field (found.seenFrom keys) place
  | hit => hit

namespace Bindings

variable {bindings : Bindings} {path : ClassPath} {guardScope : Option ScopeId} {name : String}
  {scopes : List ScopeId} {frames : List Frame} {place : Nat} {captured outside : Bool}
  {keys : List String}

theorem isSeenFrom_of_findName {found : FoundField} {around : Nat}
    (isFound : bindings.findName (path.seenFrom keys) guardScope name scopes frames place captured
      outside = some (.field found around)) : found.IsSeenFrom keys := by
  fun_induction findName bindings (path.seenFrom keys) guardScope name scopes frames place captured
      outside with
  | case1 | case2 | case5 => cases isFound
  | case3 _ _ _ _ _ _ _ _ _ _ isField =>
    cases isFound
    exact isSeenFrom_of_findField? isField
  | case4 _ _ _ _ _ _ _ _ _ _ ih => exact ih isFound
  | case6 _ _ _ _ _ _ _ _ _ _ ih => exact ih isFound

theorem findName_seenFrom (areSeen : ∀ found around,
      bindings.findName path guardScope name scopes frames place captured outside =
        some (.field found around) → found.IsSeenFrom keys) :
    bindings.findName (path.seenFrom keys) guardScope name scopes frames place captured outside =
      (bindings.findName path guardScope name scopes frames place captured outside).map
        (NameHit.seenFrom keys) := by
  induction scopes generalizing frames place captured outside with
  | nil => rfl
  | cons scope outer ih =>
    revert areSeen
    unfold findName
    split
    · exact fun _ => rfl
    next frame _ _ =>
      intro areSeen
      have same := @findField?_seenFrom path keys name frame.thisType fun found isField =>
        areSeen found _ (by rw [isField])
      rw [same]
      split at areSeen
      next isField => rw [isField]; rfl
      next isField =>
        rw [isField]
        exact ih areSeen
    · dsimp only
      split
      · exact fun _ => rfl
      · exact ih

end Bindings

namespace Binder

variable (context : UnitContext) (place : Place) (position : Position) (name : String) (id : Nat)
  (span : Span) (state : BinderState)

def hit? (path : ClassPath) : Option NameHit :=
  state.bindings.findName path place.guardScope name (state.bindings.tree.ancestors place.scope)
    place.frames 0 false false

theorem referent?_bindSimpleName
    (isHit : hit? place name state context.path = some (.field found around)) :
    ((bindSimpleName context place position name id span).run state).2.bindings.referent? id =
      some (.field found) := by
  unfold hit? at isHit
  unfold bindSimpleName
  rw [StateT.run_bind, StateT.run_get, pure_bind]
  dsimp only
  rw [isHit]
  show lookup id ((id, Referent.field found) :: _) = _
  rw [lookup_cons, beq_self_eq_true]

/-- A simple name denotes the field that is found in the innermost type around it that has or
inherits one. It is what can be seen from inside the types around the name exactly if it is no
private field of another type: such a field is found too, and hides what lies further out. -/
theorem bindSimpleName_seen_iff :
    (∀ found around, hit? place name state context.path = some (.field found around) →
      ((bindSimpleName context place position name id span).run state).2.bindings.referent? id =
        some (.field found)) ∧
    (hit? place name state (context.path.seenFrom (place.frames.map Frame.key)) =
        (hit? place name state context.path).map
          (NameHit.seenFrom (place.frames.map Frame.key)) ↔
      ∀ found around, hit? place name state context.path = some (.field found around) →
        found.field.isPrivate = true → found.owner.key ∈ place.frames.map Frame.key) := by
  refine ⟨fun found around => referent?_bindSimpleName context place position name id span state,
    fun same found around isHit => ?_, findName_seenFrom⟩
  have isHidden := same
  rw [isHit] at isHidden
  exact @isSeenFrom_of_findName _ _ _ _ _ _ _ _ _ _ (found.seenFrom _) around isHidden

end Binder

/-! ### Signatures -/

namespace ClassPath

variable {path : ClassPath} {name root key : String} {owner : KnownType}
  {collected : List KnownMethod}

theorem exists_visited_of_reaches (covers : Covers path root (queue.filterMap Ty.key?) seen)
    (ends : (path.walkFrom steps queue seen complete).ended = true)
    (reaches : path.Reaches root key) (isKnown : path.type? key = some owner) :
    key ∈ seen ∨ ∃ arguments, (owner, owner.substitution arguments) ∈
      (path.walkFrom steps queue seen complete).visited := by
  fun_induction walkFrom path steps queue seen complete with
  | case1 => exact .inl (covers.mem_of_reaches reaches)
  | case2 => cases ends
  | case3 _ _ _ _ _ _ isOld ih => exact ih (covers.drop (contains_iff_mem.mp isOld)) ends
  | case4 _ other _ _ _ _ _ isUnknown ih =>
    have none : path.superKeys other = [] :=
      path.superKeys_of_unknown other (by rw [knows, isUnknown]; rfl)
    have further := ih (covers.visit _ (fun _ => id) (by simp [none])) ends
    grind
  | case5 _ other arguments _ _ _ _ type isFound _ ih =>
    rw [filterMap_append] at ih
    have further := ih (covers.visit _ (fun _ => mem_append_left _) fun super isSuper =>
      mem_append_right _ (mem_walked_of_mem_superKeys path other type isFound arguments super
        isSuper)) ends
    grind
  | case6 _ type _ _ _ isNoClass ih =>
    cases type with
    | «class» => exact absurd rfl (isNoClass _ _)
    | _ => exact ih covers ends

theorem addMethods_keeps (methods : List KnownMethod)
    (differ : collected.Pairwise fun first second => first.sameErasure second = false) :
    collected ⊆ addMethods collected methods ∧
    (addMethods collected methods).Pairwise
      (fun first second => first.sameErasure second = false) ∧
    ∀ method ∈ methods, ∃ kept ∈ addMethods collected methods, kept.sameErasure method := by
  unfold addMethods
  induction methods generalizing collected with
  | nil => exact ⟨Subset.refl _, differ, forall_mem_nil _⟩
  | cons first rest ih =>
    rw [foldl_cons]
    split
    next isThere =>
      obtain ⟨kept, isKept, same⟩ := any_eq_true.mp isThere
      obtain ⟨isWithin, differ, covered⟩ := ih differ
      exact ⟨isWithin, differ, forall_mem_cons.mpr ⟨⟨kept, isWithin isKept, same⟩, covered⟩⟩
    next isNew =>
      simp only [any_eq_true, not_exists, not_and, Bool.not_eq_true] at isNew
      obtain ⟨isWithin, differ, covered⟩ := @ih (collected ++ [first])
        (pairwise_append.mpr ⟨differ, pairwise_singleton _ _, by simpa using isNew⟩)
      obtain ⟨isWithin, isFirst⟩ := append_subset.mp isWithin
      refine ⟨isWithin, differ, forall_mem_cons.mpr ⟨⟨first, isFirst mem_cons_self, ?_⟩, covered⟩⟩
      simp [KnownMethod.sameErasure]

theorem name_of_mem_addMethods (isKept : method ∈ addMethods [] (seenNamed visited name)) :
    method.name = name := by
  obtain ⟨entry, -, isOwn⟩ := mem_flatMap.mp (addMethods_subset _ _ isKept)
  obtain ⟨declared, isDeclared, rfl⟩ := mem_map.mp isOwn
  exact eq_of_beq (mem_filter.mp isDeclared).2

/-- Where the walk over the hierarchy of a type comes to its end, the methods of a name that are
found have different erased parameters. Each is declared by a class that is seen from the type, with
the arguments of that class. Every method of the name that a known class of the hierarchy declares
has, as it is seen there, the erased parameters of one that is found and that this class or one
visited before it declares. -/
theorem findMethods_signatures (path : ClassPath) (type : Ty) (name : String)
    (ends : (path.hierarchy type).ended = true) :
    (path.findMethods type name).1.Pairwise (fun first second =>
      first.erasedParameters ≠ second.erasedParameters) ∧
    (∀ method ∈ (path.findMethods type name).1, ∃ key arguments owner,
      Relation.ReflTransGen path.WalksTo type (.class key arguments) ∧
        path.type? key = some owner ∧ ∃ declared ∈ owner.methodsNamed name,
          method = declared.substitute (owner.substitution arguments)) ∧
    ∀ root key owner, type.key? = some root → path.Reaches root key →
      path.type? key = some owner → ∀ declared ∈ owner.methodsNamed name,
        ∃ arguments before after, (path.hierarchy type).visited =
            before ++ (owner, owner.substitution arguments) :: after ∧
          ∃ kept ∈ (path.findMethods type name).1,
            kept.erasedParameters =
                (declared.substitute (owner.substitution arguments)).erasedParameters ∧
              ∃ entry ∈ before ++ [(owner, owner.substitution arguments)],
                ∃ other ∈ entry.1.methodsNamed name, kept = other.substitute entry.2 := by
  refine ⟨?_, fun method isFound => ?_, ?_⟩
  · rw [findMethods_eq]
    refine (addMethods_keeps _ .nil).2.1.imp_of_mem fun isFirst isSecond differ same => ?_
    rw [KnownMethod.sameErasure, name_of_mem_addMethods isFirst, name_of_mem_addMethods isSecond,
      same] at differ
    simp at differ
  · obtain ⟨entry, isVisited, declared, isDeclared, rfl⟩ :=
      exists_declared_of_mem_findMethods isFound
    obtain ⟨key, arguments, isSeen, isKnown, same⟩ :=
      exists_use_of_mem_visited (forall_mem_singleton.mpr .refl) isVisited
    exact ⟨key, arguments, entry.1, isSeen, isKnown, declared, isDeclared, by rw [same]⟩
  · intro root key owner isRoot reaches isKnown declared isDeclared
    have covers : Covers path root ([type].filterMap Ty.key?) [] :=
      ⟨.inr (mem_filterMap.mpr ⟨type, mem_cons_self, isRoot⟩), by simp⟩
    obtain ⟨arguments, isVisited : _ ∈ (path.hierarchy type).visited⟩ :=
      (exists_visited_of_reaches covers ends reaches isKnown).resolve_left not_mem_nil
    obtain ⟨before, after, isSplit⟩ := append_of_mem isVisited
    have keeps := @addMethods_keeps []
      (seenNamed (before ++ [(owner, owner.substitution arguments)]) name) .nil
    obtain ⟨kept, isKept, same⟩ := keeps.2.2 _
      (mem_flatMap.mpr ⟨_, mem_append_right _ mem_cons_self, mem_map_of_mem isDeclared⟩)
    refine ⟨arguments, before, after, isSplit, kept, ?_, ?_, ?_⟩
    · rw [findMethods_eq, isSplit, append_cons, seenNamed, flatMap_append, addMethods, foldl_append]
      exact (addMethods_keeps _ keeps.2.1).1 isKept
    · rw [KnownMethod.sameErasure, Bool.and_eq_true] at same
      exact of_decide_eq_true same.2
    · simpa [seenNamed, eq_comm] using addMethods_subset _ _ isKept

/-- Of the methods that a class, its abstract superclass and the class of all objects have, the one
of the superclass is found. -/
theorem findMethods_signatures_reabstracting :
    (reabstractingPath.hierarchy (.ofKey "C")).ended = true ∧
    ∃ kept ∈ (reabstractingPath.findMethods (.ofKey "C") "m").1,
      kept.erasedParameters = [] ∧ kept.owner = "B" := by
  have ends : (reabstractingPath.hierarchy (.ofKey "C")).ended = true := by decide
  obtain ⟨-, -, covered⟩ := findMethods_signatures reabstractingPath (.ofKey "C") "m" ends
  have isAbove : "B" ∈ reabstractingPath.superKeys "C" := by decide
  obtain ⟨_, _, _, _, kept, isKept, same, -⟩ :=
    covered "C" "B" _ rfl (.single isAbove) rfl (plainMethod "B" true) (by decide)
  have areB : ∀ method ∈ (reabstractingPath.findMethods (.ofKey "C") "m").1,
      method.owner = "B" := by decide
  exact ⟨ends, kept, isKept, same, areB kept isKept⟩

end ClassPath

end JavaFrontEnd
