/-
What a sealed type permits that lists no subtypes. The subtypes are found among all types of the
compilation by their keys: by the part up to the first dollar sign, or by the part up to the last
point, which is the package. Where names are plain, a key shows the package of its unit by either
part. So all types of the package of the sealed type count, in whichever unit they stand
(`permits_ofUnits`).
-/

import JavaFrontEnd.Proofs.BinaryNames
import JavaFrontEnd.Proofs.Resolution.Agreement

namespace JavaFrontEnd

open List

/-! ### The package that a key shows -/

/-- The part of a key up to its last point, which is empty where there is none. -/
def packageOf (key : String) : String :=
  ((Text.cutLast? '.' key).map Prod.fst).getD ""

/-- The package of a unit; the unnamed package has the empty name. -/
def CompilationUnit.packageName (unit : CompilationUnit) : String :=
  unit.packageName?.getD ""

/-- A key shows a package, both as a whole and by the key of the type at the top. -/
structure ShowsPackage (package key : String) : Prop where
  whole : packageOf key = package
  top : packageOf (Text.before '$' key) = package

theorem packageOf_append {key more : String} (isBare : '.' ∉ more.toList) :
    packageOf (key ++ more) = packageOf key := by
  have passes : ∀ character ∈ more.toList.reverse, decide (character ≠ '.') = true := by
    intro character isPart
    refine decide_eq_true fun isPoint => isBare ?_
    rw [← isPoint]
    exact mem_reverse.mp isPart
  unfold packageOf Text.cutLast?
  simp only [String.toList_append, reverse_append]
  rw [takeWhile_append_of_pos passes, length_append, ← drop_drop, drop_left]
  split <;> rfl

theorem packageOf_qualify {unit : CompilationUnit} {name : String}
    (isBare : '.' ∉ name.toList) : packageOf (unit.qualify name) = unit.packageName := by
  have isShort : packageOf "" = "" := rfl
  unfold CompilationUnit.qualify CompilationUnit.packageName
  split
  next package isPackage =>
    show packageOf (package ++ "." ++ name) = _
    rw [packageOf_append isBare, isPackage, Option.getD_some]
    unfold packageOf Text.cutLast?
    simp
  next isNone =>
    rw [← String.empty_append (s := name), packageOf_append isBare, isNone]
    rfl

theorem before_innerKey (owner segment : String) :
    Text.before '$' (innerKey owner segment) = Text.before '$' owner := by
  unfold Text.before
  rw [toList_innerKey, takeWhile_append]
  split
  next isAll =>
    have isWhole := IsPrefix.eq_of_length ( takeWhile_prefix _) isAll
    rw [takeWhile_cons_of_neg (by simp), append_nil, isWhole]
  next => rfl

theorem ShowsPackage.inner {package owner segment : String} (shows : ShowsPackage package owner)
    (isBare : '.' ∉ segment.toList) : ShowsPackage package (innerKey owner segment) where
  whole := by
    have bareToo : '.' ∉ ("$" ++ segment).toList := by simpa using isBare
    show packageOf (owner ++ "$" ++ segment) = package
    rw [String.append_assoc, packageOf_append bareToo]
    exact shows.whole
  top := by
    rw [before_innerKey]
    exact shows.top

theorem ShowsPackage.qualify {unit : CompilationUnit} {declaration : TypeDeclaration}
    (plain : unit.HasPlainNames) (isTop : declaration ∈ unit.types) :
    ShowsPackage unit.packageName (unit.qualify declaration.name) := by
  have isPlain := plain.top isTop
  have isWhole := @packageOf_qualify unit _ (point_notMem_of_isIdentifier isPlain.1)
  refine ⟨isWhole, ?_⟩
  have noDollar : '$' ∉ (unit.qualify declaration.name).toList := by
    rw [CompilationUnit.toList_qualify, mem_append]
    rintro (inPackage | inName)
    · cases isPackage : unit.packageName? with
      | none => simp [isPackage] at inPackage
      | some package => simp [isPackage, plain.package package isPackage] at inPackage
    · exact isPlain.2 inName
  have isAll : Text.before '$' (unit.qualify declaration.name) = unit.qualify declaration.name := by
    unfold Text.before
    rw [takeWhile_eq_self_iff.mpr, String.ofList_toList]
    exact fun character isPart => decide_eq_true fun isDollar => noDollar (isDollar ▸ isPart)
  rw [isAll]
  exact isWhole

/-- Two keys share the key of the type at the top or the package exactly if their packages are the
same. -/
theorem ShowsPackage.near_eq {package packageToo key other : String}
    (shows : ShowsPackage package key) (showsToo : ShowsPackage packageToo other) :
    (Text.before '$' key == Text.before '$' other || DeclaredTypes.samePackage key other) =
      (package == packageToo) := by
  have isSame : DeclaredTypes.samePackage key other = (package == packageToo) := by
    show (packageOf key == packageOf other) = _
    rw [shows.whole, showsToo.whole]
  rw [isSame]
  cases sameTop : Text.before '$' key == Text.before '$' other with
  | false => rfl
  | true =>
    have samePackages : package = packageToo := by
      rw [← shows.top, ← showsToo.top, eq_of_beq sameTop]
    rw [samePackages, beq_self_eq_true]
    rfl

/-! ### The packages of the sites of a walk -/

namespace Site

/-- A walk adds sites of one unit, and their keys show its package. -/
def Found.StaysIn (unit : CompilationUnit) (before after : Found) : Prop :=
  ∃ added : List Site, after.sites = added ++ before.sites ∧
    ∀ site ∈ added, site.unit = unit ∧ ShowsPackage unit.packageName site.key

open Found

namespace Found.StaysIn

variable {unit : CompilationUnit} {before between after : Found}

theorem trans (first : StaysIn unit before between) (second : StaysIn unit between after) :
    StaysIn unit before after := by
  obtain ⟨added, isAdded, shows⟩ := first
  obtain ⟨later, isLater, showsLater⟩ := second
  refine ⟨later ++ added, ?_, forall_mem_append.mpr ⟨showsLater, shows⟩⟩
  rw [isLater, isAdded, append_assoc]

theorem declared {place : Place} {key : String} {body : SiteBody} {outer : Option String}
    {isLocal : Bool} (shows : ShowsPackage place.unit.packageName key)
    (inside : StaysIn place.unit (before.add place key body outer isLocal) after) :
    StaysIn place.unit before (after.leaving before) := by
  have own : StaysIn place.unit before (before.add place key body outer isLocal) :=
    ⟨[_], rfl, forall_mem_singleton.mpr ⟨rfl, shows⟩⟩
  exact own.trans inside

end Found.StaysIn

/-- The names of the classes that a walk comes to are words. -/
def AreWords (visits : List Visit) : Prop :=
  ∀ visit ∈ visits, ∀ name ∈ visit.node.name?, isIdentifier name

theorem point_notMem_number (number : Nat) {name : String} (isBare : '.' ∉ name.toList) :
    '.' ∉ (toString number ++ name).toList := by
  rw [String.toList_append, mem_append, Nat.toString_eq_repr, Nat.toList_repr]
  rintro (isDigit | isPart)
  · exact absurd (Nat.isDigit_of_mem_toDigits (by decide) (by decide) isDigit) (by decide)
  · exact isBare isPart

theorem Course.staysIn {moved : List (Nat × Nat)} {place : Place} {names : List String}
    {visits : List Visit} {nodes : List Node} {files : ClassPlan.Files} {run : Found → Found}
    (course : Course moved place names visits nodes files run)
    (shows : ShowsPackage place.unit.packageName place.owner) (areWords : AreWords visits)
    (found : Found) : StaysIn place.unit found (run found) := by
  induction course generalizing found with
  | passing => exact ⟨[], rfl, forall_mem_nil _⟩
  | trans _ _ first second =>
    obtain ⟨inFirst, inSecond⟩ := forall_mem_append.mp areWords
    exact (first shows inFirst found).trans (second shows inSecond _)
  | reorder _ same _ _ _ inductionHypothesis =>
    exact inductionHypothesis shows (fun visit isVisit => areWords visit (same.mem_iff.mp isVisit))
      found
  | leaving _ inductionHypothesis | withVariables _ inductionHypothesis =>
    exact inductionHypothesis shows areWords found
  | member declaration _ _ _ inductionHypothesis =>
    obtain ⟨isWord, areInside⟩ := forall_mem_cons.mp areWords
    have showsInner := shows.inner (point_notMem_of_isIdentifier (isWord declaration.name rfl))
    exact .declared showsInner (inductionHypothesis _ showsInner areInside _)
  | @localClass _ place _ _ _ _ declaration _ _ _ inductionHypothesis =>
    obtain ⟨isWord, areInside⟩ := forall_mem_cons.mp areWords
    have showsInner := shows.inner (point_notMem_number
      (found.nextLocal place.owner declaration.name)
      (point_notMem_of_isIdentifier (isWord declaration.name rfl)))
    have isKey :
        s!"{place.owner}${found.nextLocal place.owner declaration.name}{declaration.name}" =
        innerKey place.owner (toString (found.nextLocal place.owner declaration.name) ++
          declaration.name) := String.append_assoc ..
    rw [← isKey] at showsInner
    exact .declared showsInner (inductionHypothesis _ showsInner areInside _)
  | @unnamed _ place _ _ _ _ _ _ _ _ _ _ _ inductionHypothesis =>
    obtain ⟨-, areInside⟩ := forall_mem_cons.mp areWords
    have showsInner := shows.inner (@point_notMem_number (found.nextAnonymous place.owner) ""
      (by simp))
    rw [String.append_empty] at showsInner
    exact .declared showsInner (inductionHypothesis _ showsInner areInside _)

theorem staysIn_ofUnit (file : String) (unit : CompilationUnit) (plain : unit.HasPlainNames)
    (found : Found) : StaysIn unit found (ofUnit found file unit) := by
  refine @ofUnit_induction file unit (fun _ => StaysIn unit) (fun _ => ⟨[], rfl, forall_mem_nil _⟩)
    (fun place declaration _ found _ _ isUnit isTop inRest => .trans ?_ inRest) found
  have shows : ShowsPackage unit.packageName (unit.qualify declaration.name) := .qualify plain isTop
  have areWords : AreWords (Visit.ofDeclaration declaration) := fun visit isVisit name isName =>
    (plain.classes visit (mem_flatMap.mpr ⟨_, isTop, isVisit⟩) name isName).1
  rw [ofDeclaration_eq]
  obtain ⟨header, constants, members⟩ := declaration
  rw [← isUnit] at shows ⊢
  exact .declared shows ((course_inside place _ ⟨header, constants, members⟩).staysIn shows
    (forall_mem_cons.mp areWords).2 _)

/-- The key of every class shows the package of the unit that it stands in. -/
theorem showsPackage_ofUnits {units : List (String × CompilationUnit)}
    (plain : ∀ entry ∈ units, entry.2.HasPlainNames) {site : Site} (isSite : site ∈ ofUnits units) :
    ShowsPackage site.unit.packageName site.key := by
  have general : ∀ found : Found,
      (∀ site ∈ found.sites, ShowsPackage site.unit.packageName site.key) →
      ∀ site ∈ (units.foldl (fun found entry => ofUnit found entry.1 entry.2) found).sites,
        ShowsPackage site.unit.packageName site.key := by
    clear isSite
    induction units with
    | nil => exact fun _ shows => shows
    | cons first rest inductionHypothesis =>
      intro found shows
      obtain ⟨plainFirst, plainRest⟩ := forall_mem_cons.mp plain
      refine inductionHypothesis plainRest _ ?_
      obtain ⟨added, isAdded, showsAdded⟩ := staysIn_ofUnit first.1 first.2 plainFirst found
      rw [isAdded]
      refine forall_mem_append.mpr ⟨fun site isSite => ?_, shows⟩
      obtain ⟨isUnit, showsSite⟩ := showsAdded site isSite
      rw [isUnit]
      exact showsSite
  exact general _ (forall_mem_nil _) site (mem_reverse.mp isSite)

variable {site : Site} {declaration : TypeDeclaration}

theorem isSealed_outline (isNamed : site.body = .named declaration) (inInterface : Bool) :
    (site.outline inInterface).isSealed = declaration.hasModifier .sealed := by
  unfold outline
  rw [isNamed]
  dsimp only
  split <;> rfl

theorem isLocal_outline (site : Site) (inInterface : Bool) :
    (site.outline inInterface).isLocal = site.isLocal := by
  unfold outline
  cases site.body with
  | anonymous | constant => rfl
  | named declaration =>
    simp only
    split <;> rfl

theorem permits_addSupertypes (isNamed : site.body = .named declaration)
    (isBare : declaration.header.shape.permits = []) (path : ClassPath) (type : KnownType) :
    (site.addSupertypes path type).permits = [] := by
  unfold addSupertypes
  rw [isNamed]
  dsimp only
  rw [isBare]
  split <;> rfl

theorem isOpen_known (isNamed : site.body = .named declaration)
    (isSealed : declaration.hasModifier .sealed = true)
    (isBare : declaration.header.shape.permits = []) (inInterface : Bool)
    (outlinePath supertypePath : ClassPath) :
    ((site.known inInterface outlinePath supertypePath).isSealed &&
      (site.known inInterface outlinePath supertypePath).permits.isEmpty) = true := by
  show ((site.addSupertypes outlinePath (site.outline inInterface)).isSealed &&
    (site.addSupertypes outlinePath (site.outline inInterface)).permits.isEmpty) = true
  obtain ⟨_, _, _, isFilled⟩ := site.addSupertypes_eq outlinePath (site.outline inInterface)
  rw [permits_addSupertypes isNamed isBare, isFilled]
  exact (Bool.and_true _).trans ((isSealed_outline isNamed inInterface).trans isSealed)

theorem isLocal_known (site : Site) (inInterface : Bool) (outlinePath supertypePath : ClassPath) :
    (site.known inInterface outlinePath supertypePath).isLocal = site.isLocal := by
  show (site.addSupertypes outlinePath (site.outline inInterface)).isLocal = site.isLocal
  obtain ⟨_, _, _, isFilled⟩ := site.addSupertypes_eq outlinePath (site.outline inInterface)
  rw [isFilled]
  exact site.isLocal_outline inInterface

end Site

/-! ### The table holds one type for each site -/

namespace DeclaredTypes

variable {units : List (String × CompilationUnit)} {platform : ClassPath} {site : Site}
  {declaration : TypeDeclaration}

theorem keys_foldl_insert {outline : Site → KnownType}
    (isKey : ∀ site, (outline site).key = site.key) (sites : List Site) (types : List KnownType)
    (distinct : (types.map KnownType.key ++ sites.map Site.key).Nodup) :
    (sites.foldl (fun types site => insert types (outline site)) types).map KnownType.key =
      types.map KnownType.key ++ sites.map Site.key := by
  induction sites generalizing types with
  | nil => exact (append_nil _).symm
  | cons site rest inductionHypothesis =>
    have isNew : (types.any fun other => other.key == (outline site).key) = false := by
      refine any_eq_false.mpr fun other isOther sameKey => ?_
      have sameKeys : other.key = site.key := (eq_of_beq sameKey).trans (isKey site)
      exact (nodup_append.mp distinct).2.2 _ (mem_map_of_mem isOther) _ mem_cons_self sameKeys
    have isAdded : insert types (outline site) = types ++ [outline site] := by
      unfold insert
      rw [isNew]
      rfl
    rw [map_cons, append_cons] at distinct ⊢
    rw [foldl_cons, isAdded, inductionHypothesis]
    · rw [map_append, map_singleton, isKey]
    · rw [map_append, map_singleton, isKey]
      exact distinct

theorem keys_ofUnits (distinct : ((Site.ofUnits units).map Site.key).Nodup) :
    (ofUnits units platform).types.map KnownType.key = (Site.ofUnits units).map Site.key := by
  rw [ofUnits_eq, map_addPermits _ fun _ _ => rfl]
  unfold withMembers withSupertypes
  rw [map_afterRound _ fun site => Site.key_addMembers site _,
    map_afterRound _ fun site => Site.key_addSupertypes site _]
  exact keys_foldl_insert (fun site => Site.key_outline site _) _ [] distinct

theorem entryAt?_of_mem {types : List KnownType} (distinct : (types.map KnownType.key).Nodup)
    {type : KnownType} (isType : type ∈ types) : entryAt? types type.key = some type := by
  cases isEntry : entryAt? types type.key with
  | none => exact absurd (beq_self_eq_true _) (find?_eq_none.mp isEntry type isType)
  | some found =>
    rw [inj_on_of_nodup_map distinct (mem_of_find?_eq_some isEntry) isType
      (key_of_entryAt? isEntry)]

/-! ### The permitted subtypes -/

/-- The superclass and the interfaces that the table has for a type. -/
def supertypes (declared : DeclaredTypes) (key : String) : List Ty :=
  ((declared.classPath.type? key).map fun type =>
    type.superclass.toList ++ type.interfaces).getD []

def isSubtype (declared : DeclaredTypes) (key super : String) : Bool :=
  (declared.supertypes key).any fun type => type.key? == some super

theorem inferredPermits_addPermits (types : List KnownType) (key : String) :
    inferredPermits (addPermits types) key = inferredPermits types key := by
  unfold inferredPermits addPermits
  simp only
  rw [filter_map, map_map]
  congr 2
  · funext type
    simp only [Function.comp]
    split <;> rfl
  · congr 1
    funext type
    simp only [Function.comp]
    split <;> rfl

/-- The types that are filtered out of the table for a sealed type are those of the sites that are
not local, that have it as a direct supertype and that stand in a unit of its package. -/
theorem inferredPermits_ofUnits (plain : ∀ entry ∈ units, entry.2.HasPlainNames)
    (distinct : ((Site.ofUnits units).map Site.key).Nodup) (isSite : site ∈ Site.ofUnits units) :
    inferredPermits (ofUnits units platform).types site.key =
      (((Site.ofUnits units).filter fun other => !other.isLocal &&
        (ofUnits units platform).isSubtype other.key site.key &&
          other.unit.packageName == site.unit.packageName).map Site.key).mergeSort
        fun first second => !(compare first second).isGT := by
  have sameKeys := @keys_ofUnits units platform distinct
  -- Every part of the test can be read off the key alone.
  let test (key : String) : Bool :=
    (Text.before '$' key == Text.before '$' site.key || samePackage key site.key) &&
      !((ofUnits units platform).classPath.type? key).any KnownType.isLocal &&
        (ofUnits units platform).isSubtype key site.key
  have byKey : ∀ type ∈ (ofUnits units platform).types,
      ((Text.before '$' type.key == Text.before '$' site.key || samePackage type.key site.key) &&
        !type.isLocal && (type.superclass.toList ++ type.interfaces).any
          fun super => super.key? == some site.key) = test type.key := by
    intro type isType
    have isEntry : (ofUnits units platform).classPath.type? type.key = some type :=
      entryAt?_of_mem (by rw [sameKeys]; exact distinct) isType
    simp only [test, isSubtype, supertypes, isEntry]
    rfl
  have bySite : ∀ other ∈ Site.ofUnits units, test other.key =
      (!other.isLocal && (ofUnits units platform).isSubtype other.key site.key &&
        other.unit.packageName == site.unit.packageName) := by
    intro other isOther
    obtain ⟨permits, isEntry⟩ := type?_ofUnits units platform (Site.filter_key_of_count isOther
      (count_eq_one_of_mem distinct (mem_map_of_mem isOther)))
    have isLocal : ((ofUnits units platform).classPath.type? other.key).any KnownType.isLocal =
        other.isLocal := by
      rw [isEntry]
      exact other.isLocal_known _ _ (supertypePath units platform)
    simp only [test, isLocal, (Site.showsPackage_ofUnits plain isOther).near_eq
      (Site.showsPackage_ofUnits plain isSite)]
    rw [Bool.and_assoc, Bool.and_comm]
  unfold inferredPermits
  simp only
  rw [filter_congr byKey, filter_congr fun other isOther => (bySite other isOther).symm]
  have swap : ∀ {α : Type} (key : α → String) (list : List α),
      (list.filter fun entry => test (key entry)).map key = (list.map key).filter test := by
    intro _ key list
    rw [filter_map]
    rfl
  rw [swap, swap, sameKeys]

/-- What a sealed type without a list of subtypes permits are, in order, the keys of all types that
are not local, have it as a direct supertype and stand in a unit of its package: those of its own
unit, and as well those of the other units of the package. -/
theorem permits_ofUnits (plain : ∀ entry ∈ units, entry.2.HasPlainNames)
    (distinct : ((Site.ofUnits units).map Site.key).Nodup) (isSite : site ∈ Site.ofUnits units)
    (isNamed : site.body = .named declaration) (isSealed : declaration.hasModifier .sealed = true)
    (isBare : declaration.header.shape.permits = []) :
    ∃ type, (ofUnits units platform).classPath.type? site.key = some type ∧
      (type.permits.Pairwise fun first second => (!(compare first second).isGT) = true) ∧
      type.permits.Perm (((Site.ofUnits units).filter fun other => !other.isLocal &&
        (ofUnits units platform).isSubtype other.key site.key &&
          other.unit.packageName == site.unit.packageName).map Site.key) := by
  have isSole := Site.filter_key_of_count isSite
    (count_eq_one_of_mem distinct (mem_map_of_mem isSite))
  have isFinal := entryAt?_addPermits (entryAt?_withMembers units platform isSole)
  rw [if_pos (Site.isOpen_known isNamed isSealed isBare ..),
    ← inferredPermits_addPermits] at isFinal
  refine ⟨_, isFinal, ?_⟩
  show (inferredPermits (ofUnits units platform).types site.key).Pairwise _ ∧
    (inferredPermits (ofUnits units platform).types site.key).Perm _
  rw [inferredPermits_ofUnits plain distinct isSite]
  exact ⟨pairwise_mergeSort_notGreater compare _, mergeSort_perm _ _⟩

/-- A sealed interface `S` with a class `X` that implements it and, in another file, a class `Y`
that does so as well. -/
def splitHierarchy : List (String × CompilationUnit) :=
  let span : Span := .point .start
  let header (modifiers : List Modifier) (name : String) (shape : TypeShape) : TypeDeclaration :=
    ⟨⟨modifiers, [], name, span, shape, span⟩, [], []⟩
  let subtype (name : String) : TypeDeclaration :=
    header [.final] name (.class [] none [⟨"S", [], false, [], 0, span⟩] [])
  [("S.java", ⟨none, [], [header [.sealed] "S" (.interface [] [] []), subtype "X"], span, #[]⟩),
    ("Y.java", ⟨none, [], [subtype "Y"], span, #[]⟩)]

theorem plainNames_splitHierarchy : ∀ entry ∈ splitHierarchy, entry.2.HasPlainNames := by
  intro entry isEntry
  refine ⟨fun package isPackage => ?_, fun visit isVisit => ?_⟩
  · rcases mem_pair.mp isEntry with rfl | rfl <;> cases isPackage
  · have names : ∀ entry ∈ splitHierarchy, ∀ name? ∈ (Visit.ofUnit entry.2).map
        (fun visit => visit.node.name?), ∀ name ∈ name?, IsPlainName name := by
      decide
    exact names entry isEntry _ (mem_map_of_mem isVisit)

theorem permits_ofUnits_splitHierarchy :
    ∃ type, (ofUnits splitHierarchy ⟨fun _ => none, fun _ => false⟩).classPath.type? "S" =
      some type ∧ type.permits.Perm ["X", "Y"] := by
  let site := (Site.ofUnits splitHierarchy).get ⟨0, by decide⟩
  obtain ⟨type, isType, -, arePermitted⟩ :=
    @permits_ofUnits splitHierarchy ⟨fun _ => none, fun _ => false⟩ site _
      plainNames_splitHierarchy (by decide) (get_mem _ _) rfl rfl rfl
  exact ⟨type, isType, arePermitted⟩

end DeclaredTypes

end JavaFrontEnd
