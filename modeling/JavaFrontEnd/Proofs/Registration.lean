/-
The walk that gives classes their keys, against the list of classes that stand in a unit: it makes
exactly one site for each class that the list marks as keyed, in the file of the unit, and none for
another. The order in which it does so is its own.
-/

import JavaFrontEnd.Proofs.ClassWalks

namespace JavaFrontEnd

open List

variable (units : List (String × CompilationUnit))

namespace Site

/-! ### What a walk adds -/

/-- A walk in a file goes from `before` to `after` and makes one site for each of some classes. -/
def Found.Adds (file : String) (before after : Found) (visits : List Visit) : Prop :=
  ∃ added : List Site,
    after.sites = added ++ before.sites ∧ (∀ site ∈ added, site.file = file) ∧
      (added.map fun site => site.body.node).Perm (Visit.keyed visits)

open Found Visit

namespace Found.Adds

variable {file : String} {before between after : Found} {visits more : List Visit}

theorem passing (file : String) (found : Found) (visits : List Visit) :
    Adds file found found (visits.map Visit.unkeyed) :=
  ⟨[], rfl, by simp, by simp⟩

theorem trans (first : Adds file before between visits) (second : Adds file between after more) :
    Adds file before after (visits ++ more) := by
  obtain ⟨added, sites, inFile, same⟩ := first
  obtain ⟨later, laterSites, laterInFile, laterSame⟩ := second
  refine ⟨later ++ added, ?_, ?_, ?_⟩
  · rw [laterSites, sites, append_assoc]
  · intro site member
    exact (mem_append.mp member).elim (laterInFile site) (inFile site)
  · rw [map_append, Visit.keyed_append]
    exact (laterSame.append same).trans perm_append_comm

theorem reorder (adds : Adds file before after visits) (same : visits.Perm more) :
    Adds file before after more := by
  obtain ⟨added, sites, inFile, listed⟩ := adds
  exact ⟨added, sites, inFile, listed.trans (same.filterMap _)⟩

theorem declared {place : Place} {key : String} {body : SiteBody} {outer : Option String}
    {isLocal : Bool}
    (inside : Adds (place.inside key parameters).file (before.add place key body outer isLocal)
      after visits) :
    Adds place.file before (after.leaving before) (⟨body.node, true⟩ :: visits) := by
  have own : Adds place.file before (before.add place key body outer isLocal)
      [⟨body.node, true⟩] := ⟨[_], rfl, by simp, .refl _⟩
  exact own.trans inside

end Found.Adds

variable (found : Found) (site : Site)

theorem Course.adds {names : List String} (course : Course moved place names visits nodes files run)
    (found : Found) : Adds place.file found (run found) visits := by
  induction course generalizing found with
  | passing place visits => exact .passing place.file found visits
  | trans _ _ first second => exact (first found).trans (second _)
  | reorder _ same _ _ _ ih => exact (ih found).reorder same
  | leaving _ ih | withVariables _ ih => exact ih found
  | member _ _ _ _ ih | localClass _ _ _ _ ih | unnamed _ _ _ _ _ _ ih =>
    exact .declared (ih _ _)

theorem adds_ofDeclaration (place : Place) (key : String) (outer : Option String)
    (isLocal : Bool) (declaration : TypeDeclaration) (found : Found) :
    Adds place.file found (ofDeclaration place key outer isLocal declaration found)
      (Visit.ofDeclaration declaration) := by
  rw [ofDeclaration_eq]
  cases declaration
  exact .declared ((course_inside place key _).adds _)

theorem adds_ofUnit (file : String) (unit : CompilationUnit) :
    Adds file found (ofUnit found file unit) (Visit.ofUnit unit) := by
  refine @ofUnit_induction file unit (fun declarations found after => Adds file found after
    (declarations.flatMap Visit.ofDeclaration)) (.passing file · [])
      (fun place declaration _ found _ isFile _ _ => ?_) found
  have inFirst := adds_ofDeclaration place (unit.qualify declaration.name) none false declaration
    found
  rw [isFile] at inFirst
  exact inFirst.trans

def Has (sites : List Site) (file : String) (node : ClassNode) : Prop :=
  ∃ site ∈ sites, site.file = file ∧ site.body.node = node

theorem Found.Adds.has_iff {file : String} {after : Found} (adds : Adds file before after visits)
    (other : String) (node : ClassNode) :
    Has after.sites other node ↔
      Has before.sites other node ∨ other = file ∧ ⟨node, true⟩ ∈ visits := by
  obtain ⟨added, sites, inFile, same⟩ := adds
  unfold Has
  simp only [sites, mem_append, ← mem_keyed_iff, ← same.mem_iff, mem_map]
  constructor
  · rintro ⟨site, member | member, rfl, isNode⟩
    · exact .inr ⟨inFile site member, site, member, isNode⟩
    · exact .inl ⟨site, member, rfl, isNode⟩
  · rintro (⟨site, member, isFile, isNode⟩ | ⟨rfl, site, member, isNode⟩)
    · exact ⟨site, .inr member, isFile, isNode⟩
    · exact ⟨site, .inl member, inFile site member, isNode⟩

theorem has_ofUnits_iff (file : String) (node : ClassNode) :
    Has (ofUnits units) file node ↔
      ∃ unit, (file, unit) ∈ units ∧ ⟨node, true⟩ ∈ Visit.ofUnit unit := by
  have general : ∀ found : Found,
      Has (units.foldl (fun found entry => ofUnit found entry.1 entry.2) found).sites file node ↔
        Has found.sites file node ∨
          ∃ unit, (file, unit) ∈ units ∧ ⟨node, true⟩ ∈ Visit.ofUnit unit := by
    induction units with
    | nil => simp
    | cons first rest ih =>
      intro found
      rw [foldl_cons, ih, (adds_ofUnit found _ _).has_iff]
      obtain ⟨firstFile, firstUnit⟩ := first
      simp only [mem_cons, Prod.mk.injEq]
      constructor
      · rintro ((before | ⟨isFile, member⟩) | ⟨unit, isUnit, member⟩)
        · exact .inl before
        · exact .inr ⟨firstUnit, .inl ⟨isFile, rfl⟩, member⟩
        · exact .inr ⟨unit, .inr isUnit, member⟩
      · rintro (before | ⟨unit, ⟨isFile, rfl⟩ | isUnit, member⟩)
        · exact .inl (.inl before)
        · exact .inl (.inr ⟨isFile, member⟩)
        · exact .inr ⟨unit, isUnit, member⟩
  have nothing : ¬ Has [] file node := by simp [Has]
  have all := general { sites := [], locals := [] }
  rw [or_iff_right nothing] at all
  rw [← all]
  simp [Has, ofUnits]

/-! ### The table keeps keys -/

theorem key_outline (inInterface : Bool) : (site.outline inInterface).key = site.key := by
  unfold outline
  split
  · rfl
  · rfl
  · simp only
    split <;> rfl

theorem key_addSupertypes (path : ClassPath) (type : KnownType) :
    (site.addSupertypes path type).key = type.key := by
  unfold addSupertypes
  split
  · rfl
  · simp only
    split <;> rfl
  · simp only
    split <;> rfl

theorem key_addMembers (path : ClassPath) (type : KnownType) :
    (site.addMembers path type).key = type.key := rfl

end Site

namespace DeclaredTypes

variable {types : List KnownType} {update : Site → KnownType → KnownType} (packages : List String)
  (platform : ClassPath) (sites : List Site)

/-! ### The rounds of the table -/

def isInInterface (site : Site) : Bool :=
  site.outer.any fun outer =>
    (sites.find? fun other => other.key == outer).any fun other =>
      other.body.kind == .interface || other.body.kind == .annotationType

def outlines : List KnownType :=
  sites.foldl (fun types site => insert types (site.outline (isInInterface sites site))) []

def afterRound (update : Site → KnownType → KnownType) (sites : List Site)
    (types : List KnownType) : List KnownType :=
  sites.foldl (fun types site => change types site (update site)) types

def packagesIn : List String :=
  units.flatMap fun entry =>
    (entry.2.packageName?.map fun package => packagesOf s!"{package}.X").getD []

def stagePath (types : List KnownType) :
    ClassPath :=
  (classPath { types, packages, sites := [] }).orElse platform

def withSupertypes :
    List KnownType :=
  afterRound (fun site => site.addSupertypes (stagePath packages platform (outlines sites))) sites
    (outlines sites)

def withMembers :
    List KnownType :=
  afterRound (fun site =>
    site.addMembers (stagePath packages platform (withSupertypes packages platform sites))) sites
    (withSupertypes packages platform sites)

theorem ofUnits_eq :
    ofUnits units platform =
      { types := addPermits (withMembers (packagesIn units) platform (Site.ofUnits units))
        packages := packagesIn units
        sites := Site.ofUnits units } :=
  rfl

theorem map_afterRound {α : Type} (value : KnownType → α)
    (keeps : ∀ site type, value (update site type) = value type) (sites : List Site)
    (types : List KnownType) : (afterRound update sites types).map value = types.map value := by
  unfold afterRound
  induction sites generalizing types with
  | nil => rfl
  | cons site rest ih =>
    rw [foldl_cons, ih]
    unfold change
    rw [map_map]
    refine map_congr_left fun type _ => ?_
    rw [Function.comp]
    split
    · exact keeps site type
    · rfl

theorem map_addPermits {α : Type} (value : KnownType → α)
    (keeps : ∀ type permits, value { type with permits } = value type) :
    (addPermits types).map value = types.map value := by
  unfold addPermits
  rw [map_map]
  refine map_congr_left fun type _ => ?_
  rw [Function.comp]
  split
  · exact keeps type _
  · rfl

/-! ### The entries of the table -/

def entryAt? (types : List KnownType) (key : String) : Option KnownType :=
  types.find? fun type => type.key == key

theorem key_of_entryAt? (isFound : entryAt? types key = some found) : found.key = key := by
  have isKey := find?_some isFound
  exact eq_of_beq isKey

theorem entryAt?_map {update : KnownType → KnownType} (keeps : ∀ type, (update type).key = type.key)
    (key : String) : entryAt? (types.map update) key = (entryAt? types key).map update := by
  unfold entryAt?
  rw [find?_map]
  congr 1
  congr 1
  funext type
  exact congrArg (· == key) (keeps type)

theorem entryAt?_insert (types : List KnownType) (type : KnownType) (key : String) :
    entryAt? (insert types type) key =
      if type.key == key then some type else entryAt? types key := by
  unfold insert
  split
  next isThere =>
    rw [entryAt?_map]
    · split
      next isKey =>
        -- Some entry has the key, and the new one takes its place.
        obtain ⟨other, isOther, sameKey⟩ := any_eq_true.mp isThere
        have isSome : (entryAt? types key).isSome = true := by
          refine find?_isSome.mpr ⟨other, isOther, ?_⟩
          rw [eq_of_beq sameKey]
          exact isKey
        obtain ⟨found, isFound⟩ := Option.isSome_iff_exists.mp isSome
        have foundKey := key_of_entryAt? isFound
        rw [isFound, Option.map_some, foundKey, eq_of_beq isKey, if_pos (beq_self_eq_true _)]
      next notKey =>
        cases isFound : entryAt? types key with
        | none => rfl
        | some found =>
          have foundKey := key_of_entryAt? isFound
          rw [Option.map_some, foundKey, if_neg]
          exact fun sameKey => notKey (beq_iff_eq.mpr (eq_of_beq sameKey).symm)
    · intro other
      split
      next sameKey => exact (eq_of_beq sameKey).symm
      next => rfl
  next isNew =>
    unfold entryAt?
    rw [find?_append]
    split
    next isKey =>
      have noEntry : types.find? (fun other => other.key == key) = none := by
        refine find?_eq_none.mpr fun other isOther sameKey => isNew ?_
        refine any_eq_true.mpr ⟨other, isOther, ?_⟩
        rw [eq_of_beq isKey]
        exact sameKey
      rw [noEntry, Option.none_or, find?_singleton, if_pos isKey]
    next notKey => rw [find?_singleton, if_neg notKey, Option.or_none]

theorem entryAt?_foldl_insert (isKey : ∀ site, (outline site).key = site.key) (sites : List Site)
    (types : List KnownType) (key : String) :
    entryAt? (sites.foldl (fun types site => insert types (outline site)) types) key =
      (((sites.filter fun site => site.key == key).getLast?).map outline).or
        (entryAt? types key) := by
  induction sites generalizing types with
  | nil => rfl
  | cons site rest ih =>
    rw [foldl_cons, ih, entryAt?_insert, isKey, filter_cons]
    split
    · rw [getLast?_cons]
      cases (rest.filter fun site => site.key == key).getLast? <;> rfl
    · rfl

theorem afterRound_eq_map (keeps : ∀ site type, (update site type).key = type.key)
    (sites : List Site) (types : List KnownType) :
    afterRound update sites types = types.map fun type =>
      (sites.filter fun site => site.key == type.key).foldl (fun type site => update site type)
        type := by
  unfold afterRound
  induction sites generalizing types with
  | nil => exact (map_id' types).symm
  | cons site rest ih =>
    rw [foldl_cons, ih]
    unfold change
    rw [map_map]
    refine map_congr_left fun type _ => ?_
    rw [Function.comp, filter_cons, Bool.beq_comm]
    split
    · rw [keeps]
      rfl
    · rfl

theorem entryAt?_afterRound (keeps : ∀ site type, (update site type).key = type.key)
    (sites : List Site) (types : List KnownType) (key : String) :
    entryAt? (afterRound update sites types) key = (entryAt? types key).map fun type =>
      (sites.filter fun site => site.key == key).foldl (fun type site => update site type)
        type := by
  rw [afterRound_eq_map keeps, entryAt?_map]
  · cases isFound : entryAt? types key with
    | none => rfl
    | some found => rw [Option.map_some, Option.map_some, key_of_entryAt? isFound]
  · intro type
    refine foldlRecOn (motive := fun updated : KnownType => updated.key = type.key) _ _ rfl ?_
    exact fun _ sameKey site _ => (keeps site _).trans sameKey

theorem isSome_entryAt?_afterRound (keeps : ∀ site type, (update site type).key = type.key)
    (sites : List Site) (types : List KnownType) (key : String) :
    (entryAt? (afterRound update sites types) key).isSome = (entryAt? types key).isSome := by
  rw [entryAt?_afterRound keeps, Option.isSome_map]

theorem entryAt?_addPermits (isEntry : entryAt? types key = some type) :
    entryAt? (addPermits types) key =
      some (if type.isSealed && type.permits.isEmpty then
        { type with permits := inferredPermits types key } else type) := by
  unfold addPermits
  rw [entryAt?_map, isEntry, Option.map_some, key_of_entryAt? isEntry]
  intro other
  split <;> rfl

theorem isSome_type?_ofUnits (key : String) :
    ((ofUnits units platform).classPath.type? key).isSome ↔
      key ∈ (Site.ofUnits units).map Site.key := by
  show (entryAt? (addPermits (withMembers _ platform _)) key).isSome ↔ _
  unfold addPermits withMembers withSupertypes outlines
  rw [entryAt?_map, Option.isSome_map,
    isSome_entryAt?_afterRound fun site => Site.key_addMembers site _,
    isSome_entryAt?_afterRound fun site => Site.key_addSupertypes site _,
    entryAt?_foldl_insert fun site => Site.key_outline site _]
  · simp [entryAt?]
  · intro type
    split <;> rfl

theorem keyAt?_ofUnits (file : String) (offset : Nat) :
    (((ofUnits units platform).keyAt? file offset).isSome ↔
      ∃ unit node, (file, unit) ∈ units ∧ ⟨node, true⟩ ∈ Visit.ofUnit unit ∧ node.offset = offset) ∧
    ∀ key, (ofUnits units platform).keyAt? file offset = some key →
      ((ofUnits units platform).classPath.type? key).isSome := by
  constructor
  · simp only [keyAt?, Option.isSome_map, find?_isSome, mem_reverse, Bool.and_eq_true, beq_iff_eq]
    constructor
    · rintro ⟨site, member, isFile, isOffset⟩
      obtain ⟨unit, isUnit, visited⟩ :=
        (Site.has_ofUnits_iff units file site.body.node).mp ⟨site, member, isFile, rfl⟩
      exact ⟨unit, site.body.node, isUnit, visited, by rw [SiteBody.offset_node, isOffset]⟩
    · rintro ⟨unit, node, isUnit, visited, isOffset⟩
      obtain ⟨site, member, isFile, isNode⟩ :=
        (Site.has_ofUnits_iff units file node).mpr ⟨unit, isUnit, visited⟩
      exact ⟨site, member, isFile, by rw [← SiteBody.offset_node, isNode, isOffset]⟩
  · intro key found
    obtain ⟨site, isSite, rfl⟩ := Option.map_eq_some_iff.mp found
    have member : site ∈ Site.ofUnits units :=
      mem_reverse.mp (mem_of_find?_eq_some isSite)
    exact (isSome_type?_ofUnits units platform _).mpr (mem_map_of_mem member)

end DeclaredTypes

end JavaFrontEnd
