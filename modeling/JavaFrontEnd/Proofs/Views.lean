/-
Classes seen among the supertypes of a type. The arguments of a type replace the parameters of its
class in the supertypes, from one class to the next. Where every supertype has the arguments that
its class asks for, a substitution for the variables of a type therefore passes through to what is
seen of its supertypes.
-/

import JavaFrontEnd.Proofs.Hierarchy

namespace JavaFrontEnd

open List

namespace Ty

variable (substitution : Substitution)

theorem substituteAll_eq_map (types : List Ty) :
    substituteAll substitution types = types.map (substitute substitution) := by
  induction types with
  | nil => rfl
  | cons type rest ih => rw [substituteAll, ih, map_cons]

variable {parameters : List String} {arguments : List Ty}

theorem Substitution.lookup_of_substituteAll (name : String) :
    (of parameters (substituteAll substitution arguments)).lookup name =
      ((of parameters arguments).lookup name).map (substitute substitution) := by
  unfold of
  rw [substituteAll_eq_map, zip_map_right, ← map_reverse]
  induction (parameters.zip arguments).reverse with
  | nil => rfl
  | cons entry rest ih =>
    obtain ⟨parameter, argument⟩ := entry
    rw [map_cons, Prod.map_apply, lookup_cons, lookup_cons, ih, id]
    cases name == parameter <;> rfl

theorem Substitution.mem_drop_of_lookup (isParameter : name ∈ parameters)
    (isNone : (of parameters arguments).lookup name = none) :
    name ∈ parameters.drop arguments.length := by
  obtain ⟨place, isPlace, rfl⟩ := mem_iff_getElem.mp isParameter
  refine mem_drop_iff_getElem.mpr ⟨place - arguments.length, ?_⟩
  by_cases isGiven : place < arguments.length
  · have isEntry : (parameters[place], arguments[place]) ∈ parameters.zip arguments :=
      mem_iff_getElem.mpr ⟨place, by simp [isPlace, isGiven], getElem_zip⟩
    simpa using lookup_eq_none_iff.mp isNone _ (mem_reverse.mpr isEntry)
  · have isIndex : arguments.length + (place - arguments.length) = place := by omega
    exact ⟨by omega, by simp only [isIndex]⟩

mutual

theorem substitute_substitute (sameLength : arguments.length = parameters.length) :
    ∀ type : Ty, type.mentions (fun name => !parameters.contains name) = false →
      (type.substitute (.of parameters arguments)).substitute substitution =
        type.substitute (.of parameters (substituteAll substitution arguments))
  | .variable name, isOwn => by
    have isParameter : name ∈ parameters := by simpa [mentions] using isOwn
    rw [substitute, substitute, Substitution.lookup_of_substituteAll]
    cases isArgument : (Substitution.of parameters arguments).lookup name with
    | some => rfl
    | none =>
      have isFree := Substitution.mem_drop_of_lookup isParameter isArgument
      rw [sameLength, drop_length] at isFree
      cases isFree
  | .class key types, isOwn =>
    congrArg (Ty.class key) (substituteAll_substituteAll sameLength types isOwn)
  | .array element, isOwn => congrArg Ty.array (substitute_substitute sameLength element isOwn)
  | .primitive _, _ | .void, _ | .null, _ | .wildcard, _ | .unknown, _ => rfl

theorem substituteAll_substituteAll (sameLength : arguments.length = parameters.length) :
    ∀ types : List Ty, anyMentions (fun name => !parameters.contains name) types = false →
      substituteAll substitution (substituteAll (.of parameters arguments) types) =
        substituteAll (.of parameters (substituteAll substitution arguments)) types
  | [], _ => rfl
  | type :: rest, isOwn => by
    obtain ⟨isFirst, isRest⟩ := Bool.or_eq_false_iff.mp isOwn
    exact congrArg₂ cons (substitute_substitute sameLength type isFirst)
      (substituteAll_substituteAll sameLength rest isRest)

end

mutual

theorem exists_of_mentions_substitute : ∀ type : Ty,
    (type.substitute substitution).mentions test = true →
      ∃ own, (∀ other, other own = true → type.mentions other = true) ∧
        ((substitution.lookup own).getD (.variable own)).mentions test = true
  | .variable own, isMentioned => ⟨own, fun _ => id, isMentioned⟩
  | .class _ types, isMentioned => exists_of_anyMentions_substituteAll types isMentioned
  | .array element, isMentioned => exists_of_mentions_substitute element isMentioned

theorem exists_of_anyMentions_substituteAll : ∀ types : List Ty,
    anyMentions test (substituteAll substitution types) = true →
      ∃ own, (∀ other, other own = true → anyMentions other types = true) ∧
        ((substitution.lookup own).getD (.variable own)).mentions test = true
  | type :: rest, isMentioned => by
    rcases Bool.or_eq_true_iff.mp isMentioned with inFirst | inRest
    · obtain ⟨own, mentions, isReplaced⟩ := exists_of_mentions_substitute type inFirst
      exact ⟨own, fun other is => Bool.or_eq_true_iff.mpr (.inl (mentions other is)), isReplaced⟩
    · obtain ⟨own, mentions, isReplaced⟩ := exists_of_anyMentions_substituteAll rest inRest
      exact ⟨own, fun other is => Bool.or_eq_true_iff.mpr (.inr (mentions other is)), isReplaced⟩

end

theorem anyMentions_of_mem (isMember : type ∈ types) (isMentioned : type.mentions test = true) :
    anyMentions test types = true := by
  induction isMember with
  | head => exact Bool.or_eq_true_iff.mpr (.inl isMentioned)
  | tail _ _ ih => exact Bool.or_eq_true_iff.mpr (.inr ih)

end Ty

namespace ClassPath

/-- A class type has as many arguments as its class, if known, has parameters. -/
def IsApplied (path : ClassPath) : Ty → Prop
  | .class key arguments =>
    ∀ type, path.type? key = some type → arguments.length = type.typeParameters.length
  | _ => False

/-- All supertypes are class types with the arguments that their classes ask for, and the variables
in the supertypes of a type are its own parameters. The class of all objects is among them, since
it is the supertype of types that name none. -/
structure IsClosed (path : ClassPath) : Prop where
  object : path.IsApplied .object
  supertypes : ∀ key type, path.type? key = some type →
    ∀ super ∈ type.superclass.toList ++ type.interfaces, path.IsApplied super ∧
      super.mentions (fun name => !type.typeParameters.contains name) = false

variable {path : ClassPath} {key target name : String} {arguments : List Ty} {type super view : Ty}

theorem IsApplied.substitute (isApplied : path.IsApplied type) (substitution : Ty.Substitution) :
    path.IsApplied (type.substitute substitution) := by
  cases type with
  | «class» key arguments =>
    intro type isKnown
    rw [Ty.substituteAll_eq_map, length_map]
    exact isApplied type isKnown
  | _ => cases isApplied

theorem IsClosed.directSupertypes? (isClosed : path.IsClosed)
    (isApplied : path.IsApplied (.class key arguments)) (substitution : Ty.Substitution) :
    path.directSupertypes? key (Ty.substituteAll substitution arguments) =
        (path.directSupertypes? key arguments).map (map (Ty.substitute substitution)) ∧
      ∀ supertypes ∈ path.directSupertypes? key arguments, ∀ super ∈ supertypes,
        path.IsApplied super := by
  unfold ClassPath.directSupertypes?
  cases isKnown : path.type? key with
  | none => exact ⟨rfl, nofun⟩
  | some type =>
    have areClosed := isClosed.supertypes key type isKnown
    have sameLength := isApplied type isKnown
    simp only [Option.map_some, Option.mem_some_iff, forall_eq']
    generalize type.superclass.toList ++ type.interfaces = named at areClosed
    cases named with
    | nil =>
      dsimp only
      by_cases isObject : key = "java.lang.Object"
      · rw [if_pos isObject]
        exact ⟨rfl, forall_mem_nil _⟩
      · rw [if_neg isObject]
        exact ⟨rfl, forall_mem_singleton.mpr isClosed.object⟩
    | cons first rest =>
      refine ⟨?_, ?_⟩
      · simp only [map_map]
        refine congrArg some (map_congr_left fun super isSuper => ?_)
        exact (Ty.substitute_substitute _ sameLength super (areClosed super isSuper).2).symm
      · exact forall_mem_map.mpr fun super isSuper => (areClosed super isSuper).1.substitute _

theorem searchView_substitute (isClosed : path.IsClosed) (substitution : Ty.Substitution)
    (steps : Nat) (stack : List Ty) (areApplied : ∀ type ∈ stack, path.IsApplied type) :
    path.searchView target steps (stack.map (Ty.substitute substitution)) =
      (path.searchView target steps stack).map (Ty.substitute substitution) := by
  fun_induction searchView path target steps stack with
  | case1 => unfold searchView; rfl
  | case2 => rfl
  | case3 steps arguments stack =>
    rw [map_cons, Ty.substitute, searchView, if_pos rfl]
    rfl
  | case4 steps key arguments stack isOther isUnknown ih =>
    obtain ⟨isApplied, areApplied⟩ := forall_mem_cons.mp areApplied
    rw [map_cons, Ty.substitute, searchView, if_neg isOther,
      (isClosed.directSupertypes? isApplied substitution).1, isUnknown]
    exact ih areApplied
  | case5 steps key arguments stack isOther supertypes isKnown ih =>
    obtain ⟨isApplied, areApplied⟩ := forall_mem_cons.mp areApplied
    obtain ⟨same, areAppliedToo⟩ := isClosed.directSupertypes? isApplied substitution
    rw [map_cons, Ty.substitute, searchView, if_neg isOther, same, isKnown]
    rw [← ih (forall_mem_append.mpr ⟨fun super isSuper =>
      areAppliedToo supertypes isKnown super (mem_reverse.mp isSuper), areApplied⟩),
      map_append, map_reverse]
    rfl
  | case6 steps type stack isNoClass =>
    have isApplied := areApplied type mem_cons_self
    cases type with
    | «class» key arguments => exact absurd rfl (isNoClass key arguments)
    | _ => cases isApplied

theorem key?_of_searchView (isView : path.searchView target steps stack = some view) :
    view.key? = some target := by
  fun_induction searchView path target steps stack with
  | case1 | case2 => cases isView
  | case3 => cases isView; rfl
  | case4 _ _ _ _ _ _ ih | case5 _ _ _ _ _ _ _ ih | case6 _ _ _ _ ih => exact ih isView

/-- What is seen of a class among the supertypes of a type after a substitution is what is seen of
it before, with the substitution made there, and it is a type of that class. -/
theorem view?_substitute (isClosed : path.IsClosed) (type : Ty) (isApplied : path.IsApplied type)
    (target : String) (substitution : Ty.Substitution) :
    path.view? (type.substitute substitution) target =
        (path.view? type target).map (Ty.substitute substitution) ∧
      ∀ view ∈ path.view? type target, view.key? = some target :=
  ⟨searchView_substitute isClosed substitution hierarchySteps [type]
    (forall_mem_singleton.mpr isApplied), fun _ => key?_of_searchView⟩

/-- A class `Table<T>` that extends `Rows<T[]>`. -/
def tablePath : ClassPath where
  type? key :=
    if key = "Table" then some
      { key, kind := .class, typeParameters := ["T"]
        superclass := some (.class "Rows" [.array (.variable "T")]) }
    else if key = "Rows" then some { key, kind := .class, typeParameters := ["R"] }
    else none
  hasPackage _ := false

theorem isClosed_tablePath : tablePath.IsClosed := by
  refine ⟨fun type isKnown => ?_, fun key type isKnown => ?_⟩
  · simp [tablePath] at isKnown
  · simp only [tablePath] at isKnown
    split at isKnown
    · cases isKnown
      exact forall_mem_singleton.mpr ⟨fun _ isRows => by cases isRows; rfl, rfl⟩
    · split at isKnown <;> cases isKnown
      exact forall_mem_nil _

theorem view?_substitute_table :
    tablePath.view? (.class "Table" [.string]) "Rows" = some (.class "Rows" [.array .string]) := by
  have isApplied : tablePath.IsApplied (.class "Table" [.variable "S"]) :=
    fun _ isTable => by cases isTable; rfl
  exact (view?_substitute isClosed_tablePath _ isApplied "Rows" [("S", .string)]).1

/-! ### Variables -/

/-- The second type is a direct supertype of the first, as a search for a class meets it. -/
def Ascends (path : ClassPath) (type super : Ty) : Prop :=
  ∃ key arguments supertypes, type = .class key arguments ∧
    path.directSupertypes? key arguments = some supertypes ∧ super ∈ supertypes

/-- The supertypes of a type mention no other variables than its parameters. -/
def OwnsVariables (path : ClassPath) : Prop :=
  ∀ key type, path.type? key = some type → ∀ super ∈ type.superclass.toList ++ type.interfaces,
    super.mentions (fun name => !type.typeParameters.contains name) = false

theorem exists_of_searchView (isView : path.searchView target steps stack = some view) :
    ∃ type ∈ stack, Relation.ReflTransGen path.Ascends type view := by
  fun_induction searchView path target steps stack with
  | case1 | case2 => cases isView
  | case3 =>
    cases isView
    exact ⟨_, mem_cons_self, .refl⟩
  | case4 _ _ _ _ _ _ ih | case6 _ _ _ _ ih =>
    obtain ⟨type, isLater, reaches⟩ := ih isView
    exact ⟨type, mem_cons_of_mem _ isLater, reaches⟩
  | case5 steps key arguments stack _ supertypes isKnown ih =>
    obtain ⟨type, isNext, reaches⟩ := ih isView
    rcases mem_append.mp isNext with isSuper | isLater
    · exact ⟨_, mem_cons_self,
        .head ⟨key, arguments, supertypes, rfl, isKnown, mem_reverse.mp isSuper⟩ reaches⟩
    · exact ⟨type, mem_cons_of_mem _ isLater, reaches⟩

theorem Ascends.mentions (isOwn : path.OwnsVariables) (extended : path.Ascends type super)
    (isMentioned : super.mentions (· == name) = true) :
    type.mentions (· == name) = true ∨ ∃ key arguments known, type = .class key arguments ∧
      path.type? key = some known ∧ name ∈ known.typeParameters.drop arguments.length := by
  obtain ⟨key, arguments, supertypes, rfl, isKnown, isSuper⟩ := extended
  obtain ⟨known, isType, rfl⟩ := Option.map_eq_some_iff.mp isKnown
  have areOwn := isOwn key known isType
  generalize known.superclass.toList ++ known.interfaces = named at isSuper areOwn
  cases named with
  | nil =>
    dsimp only at isSuper
    split at isSuper
    · cases isSuper
    · rw [mem_singleton.mp isSuper] at isMentioned
      cases isMentioned
  | cons first rest =>
    obtain ⟨declared, isDeclared, rfl⟩ := mem_map.mp isSuper
    obtain ⟨own, mentions, isReplaced⟩ := Ty.exists_of_mentions_substitute _ declared isMentioned
    have isParameter : own ∈ known.typeParameters := by
      by_contra isOther
      have isForeign := mentions (fun name => !known.typeParameters.contains name) (by simpa)
      rw [areOwn declared isDeclared] at isForeign
      cases isForeign
    cases isArgument : (Ty.Substitution.of known.typeParameters arguments).lookup own with
    | some argument =>
      rw [isArgument] at isReplaced
      obtain ⟨_, _, isSplit, -⟩ := lookup_eq_some_iff.mp isArgument
      have isEntry : (own, argument) ∈ (known.typeParameters.zip arguments).reverse := by
        rw [← Ty.Substitution.of, isSplit]
        exact mem_append_right _ mem_cons_self
      exact .inl (Ty.anyMentions_of_mem (of_mem_zip (mem_reverse.mp isEntry)).2 isReplaced)
    | none =>
      rw [isArgument] at isReplaced
      obtain rfl : own = name := eq_of_beq isReplaced
      exact .inr ⟨key, arguments, known, rfl, isType,
        Ty.Substitution.mem_drop_of_lookup isParameter isArgument⟩

/-- A variable in what is seen of a class among the supertypes of a type is one of the type itself,
or a parameter for which some type on the way, a raw one for instance, has no argument. -/
theorem view?_mentions (isOwn : path.OwnsVariables) (isView : path.view? type target = some view)
    (isMentioned : view.mentions (· == name) = true) :
    type.mentions (· == name) = true ∨ ∃ key arguments known,
      Relation.ReflTransGen path.Ascends type (.class key arguments) ∧
        path.type? key = some known ∧ name ∈ known.typeParameters.drop arguments.length := by
  obtain ⟨_, isType, reaches⟩ := exists_of_searchView isView
  obtain rfl := mem_singleton.mp isType
  clear isView
  induction reaches with
  | refl => exact .inl isMentioned
  | tail reaches ascends ih =>
    rcases ascends.mentions isOwn isMentioned with isBelow | ⟨key, arguments, known, rfl, isFree⟩
    · exact ih isBelow
    · exact .inr ⟨key, arguments, known, reaches, isFree⟩

theorem view?_mentions_raw :
    tablePath.view? (.class "Table" []) "Rows" =
        some (.class "Rows" [.array (.variable "T")]) ∧
      ∃ key arguments known,
        Relation.ReflTransGen tablePath.Ascends (.class "Table" []) (.class key arguments) ∧
          tablePath.type? key = some known ∧
            "T" ∈ known.typeParameters.drop arguments.length := by
  have isOwn : tablePath.OwnsVariables := fun key type isKnown super isSuper =>
    (isClosed_tablePath.supertypes key type isKnown super isSuper).2
  have isView : tablePath.view? (.class "Table" []) "Rows" =
      some (.class "Rows" [.array (.variable "T")]) := by decide +kernel
  refine ⟨isView, ?_⟩
  rcases @view?_mentions _ _ "T" _ _ isOwn isView (by decide) with isForeign | isFree
  · cases isForeign
  · exact isFree

end ClassPath

end JavaFrontEnd
