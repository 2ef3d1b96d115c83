/-
The sites of a unit, found after those of other units. A walk numbers the local and anonymous
classes of an owner by counting the sites found before, those of other units included. It finds the
same sites as it does alone, unless a class of the unit has the key of a class around some other
site. So where all keys differ the order of the units does not matter (`perm_ofUnits`).
-/

import Mathlib.Data.List.Nodup
import JavaFrontEnd.Proofs.Registration

namespace JavaFrontEnd

open List

namespace Site

/-! ### Walks before and after other sites -/

/-- The state of a walk when other sites had been found before it began. -/
def Found.after (found : Found) (others : List Site) : Found :=
  { found with sites := found.sites ++ others }

def Outside (others : List Site) (key : String) : Prop :=
  ∀ site ∈ others, site.outer ≠ some key

def Nested (owner : Option String) (sites : List Site) : Prop :=
  ∀ site ∈ sites, site.outer = owner ∨ ∃ key ∈ sites.map Site.key, site.outer = some key

/-- Some other site is inside a class whose key stands in both lists. -/
def Clash (others first second : List Site) : Prop :=
  ∃ site ∈ others, ∃ key,
    site.outer = some key ∧ key ∈ first.map Site.key ∧ key ∈ second.map Site.key

/-- A walk inside an owner only adds sites, and after other sites it does the same as alone,
unless it gives a class the key of a class around one of them. -/
def Separate (others : List Site) (owner : Option String) (run : Found → Found) : Prop :=
  ∀ found : Found, ∃ alone among : List Site,
    (run found).sites = alone ++ found.sites ∧ Nested owner alone ∧
      (run (found.after others)).sites = among ++ (found.after others).sites ∧
      (run (found.after others) = (run found).after others ∨ Clash others alone among)

theorem outside_nil (key : String) : Outside [] key :=
  forall_mem_nil _

theorem Nested.append (inFirst : Nested owner first) (inSecond : Nested owner second) :
    Nested owner (first ++ second) := by
  intro site isSite
  rw [map_append]
  rcases mem_append.mp isSite with isFirst | isSecond
  · refine (inFirst site isFirst).imp_right ?_
    rintro ⟨key, isKey, isOuter⟩
    exact ⟨key, mem_append_left _ isKey, isOuter⟩
  · refine (inSecond site isSecond).imp_right ?_
    rintro ⟨key, isKey, isOuter⟩
    exact ⟨key, mem_append_right _ isKey, isOuter⟩

theorem key_mem_append (own : Site) (sites : List Site) : own.key ∈ (sites ++ [own]).map Site.key :=
  mem_map_of_mem (mem_append_right sites mem_cons_self)

theorem Nested.around {own : Site} (nested : Nested (some own.key) sites) :
    Nested own.outer (sites ++ [own]) := by
  intro site isSite
  rcases mem_append.mp isSite with isInner | isOwn
  · refine .inr ((nested site isInner).elim (fun isInside => ?_) ?_)
    · exact ⟨own.key, own.key_mem_append sites, isInside⟩
    · rintro ⟨key, isKey, isInside⟩
      rw [map_append]
      exact ⟨key, mem_append_left _ isKey, isInside⟩
  · rw [mem_singleton.mp isOwn]
    exact .inl rfl

theorem Clash.mono (clash : Clash others first second) (inMore : first ⊆ more)
    (inRest : second ⊆ rest) : Clash others more rest := by
  obtain ⟨site, isSite, key, isOuter, inFirst, inSecond⟩ := clash
  exact ⟨site, isSite, key, isOuter, map_subset Site.key inMore inFirst,
    map_subset Site.key inRest inSecond⟩

theorem Found.sites_add (found : Found) (place : Place) (key : String) (body : SiteBody)
    (outer : Option String) (isLocal : Bool) :
    ∃ own : Site, own.key = key ∧ own.outer = outer ∧
      (found.add place key body outer isLocal).sites = own :: found.sites :=
  ⟨_, rfl, rfl, rfl⟩

theorem nextAnonymous_after (outside : Outside others owner) (found : Found) :
    (found.after others).nextAnonymous owner = found.nextAnonymous owner := by
  have none : others.countP (fun site =>
      site.outer == some owner && site.body.name?.isNone) = 0 := by
    refine countP_eq_zero.mpr fun site isSite => ?_
    rw [beq_eq_false_iff_ne.mpr (outside site isSite)]
    exact Bool.false_ne_true
  unfold Found.nextAnonymous Found.after
  rw [countP_append, none, Nat.add_zero]

theorem nextLocal_after (outside : Outside others owner) (name : String) (found : Found) :
    (found.after others).nextLocal owner name = found.nextLocal owner name := by
  have none : others.countP (fun site =>
      site.isLocal && site.outer == some owner && site.body.name? == some name) = 0 := by
    refine countP_eq_zero.mpr fun site isSite => ?_
    rw [beq_eq_false_iff_ne.mpr (outside site isSite), Bool.and_false]
    exact Bool.false_ne_true
  unfold Found.nextLocal Found.after
  rw [countP_append, none, Nat.add_zero]

namespace Separate

variable {others : List Site} {owner : Option String} {run later : Found → Found}

theorem nothing (others : List Site) (owner : Option String) :
    Separate others owner fun found => found :=
  fun _ => ⟨[], [], rfl, forall_mem_nil _, rfl, .inl rfl⟩

theorem next (first : Separate others owner run) (second : Separate others owner later) :
    Separate others owner fun found => later (run found) := by
  intro found
  obtain ⟨alone, among, isAlone, nested, isAmong, same | clash⟩ := first found
  · obtain ⟨own, ownAmong, isOwn, ownNested, isOwnAmong, agrees⟩ := second (run found)
    rw [← same] at isOwnAmong agrees
    refine ⟨own ++ alone, ownAmong ++ among, ?_, ownNested.append nested, ?_, ?_⟩
    · rw [isOwn, isAlone, append_assoc]
    · rw [isOwnAmong, isAmong, append_assoc]
    · exact agrees.imp_right fun clash => clash.mono
        (subset_append_left _ _) (subset_append_left _ _)
  · -- The second walk may now begin elsewhere, but it still only adds sites.
    obtain ⟨own, _, isOwn, ownNested, _⟩ := second (run found)
    obtain ⟨ownAmong, _, isOwnAmong, _⟩ := second (run (found.after others))
    refine ⟨own ++ alone, ownAmong ++ among, ?_, ownNested.append nested, ?_, .inr ?_⟩
    · rw [isOwn, isAlone, append_assoc]
    · rw [isOwnAmong, isAmong, append_assoc]
    · exact clash.mono (subset_append_right _ _) (subset_append_right _ _)

theorem leaving (inside : Separate others owner run) :
    Separate others owner fun found => (run found).leaving found := by
  intro found
  obtain ⟨alone, among, isAlone, nested, isAmong, agrees⟩ := inside found
  refine ⟨alone, among, isAlone, nested, isAmong, agrees.imp_left fun same => ?_⟩
  show (run (found.after others)).leaving found = _
  rw [same]
  rfl

theorem withLocal (inside : Separate others owner run) (entry : String × String) :
    Separate others owner fun found => run { found with locals := found.locals ++ [entry] } :=
  fun found => inside { found with locals := found.locals ++ [entry] }

theorem keyed {run : String → Found → Found} (keyOf : Found → String)
    (isSame : ∀ found, keyOf (found.after others) = keyOf found)
    (each : ∀ key, Separate others owner (run key)) :
    Separate others owner fun found => run (keyOf found) found := by
  intro found
  obtain ⟨alone, among, isAlone, nested, isAmong, agrees⟩ := each (keyOf found) found
  refine ⟨alone, among, isAlone, nested, ?_, agrees.imp_left fun same => ?_⟩
  · show (run (keyOf (found.after others)) (found.after others)).sites = _
    rw [isSame, isAmong]
  · show run (keyOf (found.after others)) (found.after others) = _
    rw [isSame, same]

/-- A class and what stands in it. Where another site is inside a class of the same key, the walk
through the class may number differently; then the key of the class itself clashes. -/
theorem declared {key : String} {body : SiteBody} {outer : Option String} {isLocal : Bool}
    (inside : ∀ others, Outside others key → Separate others (some key) run) :
    Separate others outer fun found =>
      (run (found.add place key body outer isLocal)).leaving found := by
  refine leaving fun found => ?_
  obtain ⟨own, rfl, rfl, isAdded⟩ := found.sites_add place key body outer isLocal
  have isAddedAfter : ((found.add place own.key body own.outer isLocal).after others).sites =
      own :: (found.after others).sites := by
    unfold Found.after
    rw [isAdded, cons_append]
  by_cases outside : Outside others own.key
  · obtain ⟨alone, among, isAlone, nested, isAmong, agrees⟩ :=
      inside others outside (found.add place own.key body own.outer isLocal)
    rw [isAdded, append_cons] at isAlone
    rw [isAddedAfter, append_cons] at isAmong
    refine ⟨alone ++ [own], among ++ [own], isAlone, nested.around, isAmong,
      agrees.imp_right fun clash => ?_⟩
    exact clash.mono (subset_append_left _ _) (subset_append_left _ _)
  · obtain ⟨site, isSite, isInside⟩ : ∃ site ∈ others, site.outer = some own.key := by
      unfold Outside at outside
      push Not at outside
      exact outside
    obtain ⟨alone, _, isAlone, nested, _⟩ :=
      inside [] (outside_nil _) (found.add place own.key body own.outer isLocal)
    obtain ⟨among, _, isAmong, _⟩ :=
      inside [] (outside_nil _) ((found.add place own.key body own.outer isLocal).after others)
    rw [isAdded, append_cons] at isAlone
    rw [isAddedAfter, append_cons] at isAmong
    exact ⟨alone ++ [own], among ++ [own], isAlone, nested.around, isAmong,
      .inr ⟨site, isSite, own.key, isInside, own.key_mem_append alone, own.key_mem_append among⟩⟩

end Separate

/-! ### The walk over a unit -/

open Separate

-- The induction is for all other sites at once: a class that clashes with one of them is walked
-- over as if there were none.
theorem Course.separate {names : List String}
    (course : Course moved place names visits nodes files run)
    (outside : Outside others place.owner) : Separate others (some place.owner) run := by
  induction course generalizing others with
  | passing => exact .nothing others _
  | trans _ _ first second => exact (first outside).next (second outside)
  | reorder _ _ _ _ _ ih | withVariables _ ih => exact ih outside
  | leaving _ ih => exact (ih outside).leaving
  | member _ _ _ _ ih => exact declared fun _ => ih _
  | @localClass _ place _ _ _ inside declaration _ _ _ ih =>
    have each : ∀ key, Separate others (some place.owner) fun found =>
        declare place (.named declaration) (some place.owner) true inside key
          { found with locals := found.locals ++ [(declaration.name, key)] } :=
      fun key => (declared fun _ => ih key).withLocal _
    refine keyed (fun found =>
      let number := found.nextLocal place.owner declaration.name
      s!"{place.owner}${number}{declaration.name}") (fun found => ?_) each
    rw [nextLocal_after outside]
  | @unnamed _ place _ _ _ inside _ body _ _ _ _ _ ih =>
    have each : ∀ key, Separate others (some place.owner)
        (declare place body (some place.owner) true inside key) :=
      fun key => declared fun _ => ih key
    refine keyed (fun found =>
      let number := found.nextAnonymous place.owner
      s!"{place.owner}${number}") (fun found => ?_) each
    rw [nextAnonymous_after outside]

theorem separate_ofDeclaration (place : Place) (key : String) (outer : Option String)
    (isLocal : Bool) (declaration : TypeDeclaration) :
    Separate others outer (ofDeclaration place key outer isLocal declaration) := by
  rw [ofDeclaration_eq]
  exact declared fun _ => (course_inside place key declaration).separate

theorem separate_ofUnit (others : List Site) (file : String) (unit : CompilationUnit) :
    Separate others none fun found => ofUnit found file unit := by
  unfold ofUnit
  simp only
  generalize ({ file, unit, owner := "", enclosing := [], typeVariables := [] } : Place) = place
  induction unit.types with
  | nil => exact .nothing others none
  | cons declaration rest ih =>
    exact (separate_ofDeclaration place (unit.qualify declaration.name) none false
      declaration).next ih

theorem locals_ofDeclaration (place : Place) (key : String) (outer : Option String)
    (isLocal : Bool) (found : Found) (declaration : TypeDeclaration) :
    (ofDeclaration place key outer isLocal declaration found).locals = found.locals := by
  cases declaration
  rfl

theorem locals_ofUnit (found : Found) (file : String) (unit : CompilationUnit) :
    (ofUnit found file unit).locals = found.locals :=
  @ofUnit_induction _ _ (fun _ found after => after.locals = found.locals) (fun _ => rfl)
    (fun _ _ _ _ _ _ _ _ same => same.trans (locals_ofDeclaration ..)) found

/-! ### The order of units -/

def ownSites (entry : String × CompilationUnit) : List Site :=
  (ofUnit { sites := [], locals := [] } entry.1 entry.2).sites

theorem nested_ownSites (entry : String × CompilationUnit) : Nested none (ownSites entry) := by
  obtain ⟨alone, _, isAlone, nested, _⟩ :=
    separate_ofUnit [] entry.1 entry.2 { sites := [], locals := [] }
  rw [append_nil] at isAlone
  rwa [ownSites, isAlone]

theorem ofUnit_eq (entry : String × CompilationUnit) (nested : Nested none others)
    (differ : ((ofUnit { sites := others, locals := [] } entry.1 entry.2).sites.map Site.key).Nodup
      ∨ ((ownSites entry ++ others).map Site.key).Nodup) :
    ofUnit { sites := others, locals := [] } entry.1 entry.2 =
      { sites := ownSites entry ++ others, locals := [] } := by
  obtain ⟨alone, among, isAlone, _, isAmong, same | clash⟩ :=
    separate_ofUnit others entry.1 entry.2 { sites := [], locals := [] }
  · refine same.trans ?_
    show Found.mk (ownSites entry ++ others) (ofUnit _ _ _).locals = _
    rw [locals_ofUnit]
  · -- The key of a class around another site is itself the key of one of the other sites.
    obtain ⟨site, isSite, key, isOuter, inAlone, inAmong⟩ := clash
    have inOthers : key ∈ others.map Site.key := by
      rcases nested site isSite with isTop | ⟨around, isAround, isInside⟩
      · cases isTop.symm.trans isOuter
      · cases isInside.symm.trans isOuter
        exact isAround
    rw [append_nil] at isAlone
    refine absurd inOthers (differ.elim (fun differ => ?_) fun differ => ?_)
    · rw [show (ofUnit { sites := others, locals := [] } entry.1 entry.2).sites = among ++ others
        from isAmong, map_append] at differ
      exact disjoint_of_nodup_append differ inAmong
    · rw [ownSites, isAlone, map_append] at differ
      exact disjoint_of_nodup_append differ inAlone

theorem suffix_foldl_ofUnit (units : List (String × CompilationUnit)) (found : Found) :
    found.sites <:+
      (units.foldl (fun found entry => ofUnit found entry.1 entry.2) found).sites := by
  induction units generalizing found with
  | nil => exact suffix_rfl
  | cons entry rest ih =>
    obtain ⟨added, _, isAdded, _⟩ := separate_ofUnit [] entry.1 entry.2 found
    have isSuffix : found.sites <:+ (ofUnit found entry.1 entry.2).sites := ⟨added, isAdded.symm⟩
    exact isSuffix.trans (ih _)

theorem perm_foldl_ofUnit {units : List (String × CompilationUnit)} {others : List Site}
    (nested : Nested none others)
    (differ : ((units.foldl (fun found entry => ofUnit found entry.1 entry.2)
        { sites := others, locals := [] }).sites.map Site.key).Nodup ∨
      ((units.flatMap ownSites ++ others).map Site.key).Nodup) :
    (units.foldl (fun found entry => ofUnit found entry.1 entry.2)
      { sites := others, locals := [] }).sites.Perm (units.flatMap ownSites ++ others) := by
  induction units generalizing others with
  | nil => exact .refl _
  | cons entry rest ih =>
    have isPart : (ownSites entry ++ others).Sublist
        ((entry :: rest).flatMap ownSites ++ others) := by
      exact (sublist_append_left _ _).append_right others
    have isStep := ofUnit_eq entry nested (differ.imp
      (fun differ => differ.sublist ((suffix_foldl_ofUnit rest _).sublist.map Site.key))
      fun differ => differ.sublist (isPart.map Site.key))
    have isPerm : (rest.flatMap ownSites ++ (ownSites entry ++ others)).Perm
        ((entry :: rest).flatMap ownSites ++ others) := by
      rw [flatMap_cons, ← append_assoc]
      exact perm_append_comm.append_right others
    rw [foldl_cons, isStep] at differ ⊢
    refine (ih ((nested_ownSites entry).append nested) ?_).trans isPerm
    exact differ.imp_right (isPerm.map Site.key).nodup_iff.mpr

theorem ofUnits_perm_ownSites (differ : ((ofUnits units).map Site.key).Nodup ∨
      ((units.flatMap ownSites).map Site.key).Nodup) :
    (ofUnits units).Perm (units.flatMap ownSites) := by
  have isReversed : (ofUnits units).Perm
      (units.foldl (fun found entry => ofUnit found entry.1 entry.2)
        { sites := [], locals := [] }).sites :=
    reverse_perm _
  have isPerm := @perm_foldl_ofUnit units [] (forall_mem_nil _)
  rw [append_nil] at isPerm
  refine isReversed.trans (isPerm (differ.imp_left ?_))
  exact (isReversed.map Site.key).nodup_iff.mp

theorem perm_ofUnits {others : List (String × CompilationUnit)} (isPerm : others.Perm units)
    (differ : ((ofUnits units).map Site.key).Nodup) : (ofUnits others).Perm (ofUnits units) := by
  have inUnits := ofUnits_perm_ownSites (.inl differ)
  have isSame : (others.flatMap ownSites).Perm (units.flatMap ownSites) :=
    isPerm.flatMap_right ownSites
  have differAlone : ((others.flatMap ownSites).map Site.key).Nodup :=
    ((isSame.trans inUnits.symm).map Site.key).nodup_iff.mpr differ
  exact ((ofUnits_perm_ownSites (.inr differAlone)).trans isSame).trans inUnits.symm

end Site

end JavaFrontEnd
