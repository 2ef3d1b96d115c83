/-
The order of the sources of a compilation. All units are checked against one table of types, which
is filled site by site and searched from one end, and all problems are sorted into one listing.
Where no two classes get the same key, the table answers the same in every order of the sources;
where file names differ as well, the listing is the same text (`compile_perm`).
-/

import JavaFrontEnd.Proofs.PlannedClasses
import JavaFrontEnd.Proofs.SeparateSites
import Mathlib.Data.List.Find
import Mathlib.Data.List.Pairwise
import Mathlib.Data.String.Basic

namespace JavaFrontEnd

open List

/-! The order of reports. Sorting is stable, and a sorted list is determined by its tied items, so
reports that are sorted one by one and then merged come out as if all problems had been found in one
log (`merge_finish`). -/

/-! ### Sorting by a comparison -/

section Sorting

variable {α : Type} {items others : List α} (compare : α → α → Ordering)

/-- The items that compare as equal to an item, in their order. -/
def tiedWith (item : α) (items : List α) : List α :=
  items.filter fun other => compare item other == .eq

variable {compare} in
theorem mem_tiedWith :
    other ∈ tiedWith compare item items ↔ other ∈ items ∧ compare item other = .eq := by
  rw [tiedWith, mem_filter, beq_iff_eq]

variable {compare} in
theorem tiedWith_cons_of_eq (tied : compare item other = .eq) :
    tiedWith compare item (other :: items) = other :: tiedWith compare item items := by
  rw [tiedWith, filter_cons, tied]
  rfl

theorem tiedWith_append (item : α) (items others : List α) :
    tiedWith compare item (items ++ others) =
      tiedWith compare item items ++ tiedWith compare item others :=
  filter_append ..

variable [Std.TransCmp compare]

theorem notGreater_trans (first second third : α) (isFirst : (!(compare first second).isGT) = true)
    (isSecond : (!(compare second third).isGT) = true) : (!(compare first third).isGT) = true := by
  rw [Ordering.not_isGT_eq_isLE] at *
  exact Std.TransCmp.isLE_trans isFirst isSecond

theorem notGreater_total (first second : α) :
    (!(compare first second).isGT || !(compare second first).isGT) = true := by
  rw [@Std.OrientedCmp.eq_swap α compare _ first second]
  cases compare second first <;> rfl

theorem pairwise_mergeSort_notGreater (items : List α) :
    (items.mergeSort fun first second => !(compare first second).isGT).Pairwise fun first second =>
      (!(compare first second).isGT) = true :=
  pairwise_mergeSort (notGreater_trans compare) (notGreater_total compare) items

theorem tiedWith_mergeSort (item : α) (items : List α) :
    tiedWith compare item (items.mergeSort fun first second => !(compare first second).isGT) =
      tiedWith compare item items := by
  have inOrder : (tiedWith compare item items).Pairwise fun first second =>
      (!(compare first second).isGT) = true := by
    refine pairwise_of_forall_mem_list fun first isFirst second isSecond => ?_
    rw [Std.TransCmp.eq_trans (Std.OrientedCmp.eq_symm (mem_tiedWith.mp isFirst).2)
      (mem_tiedWith.mp isSecond).2]
    rfl
  have isPart := (sublist_mergeSort (notGreater_trans compare) (notGreater_total compare) inOrder
    filter_sublist).filter fun other => compare item other == .eq
  rw [tiedWith, filter_filter] at isPart
  simp only [Bool.and_self] at isPart
  exact (isPart.eq_of_length ((mergeSort_perm ..).filter _).length_eq.symm).symm

variable {compare}

theorem isLE_of_mem (sorted : (item :: items).Pairwise fun first second =>
      (!(compare first second).isGT) = true)
    (isOther : other ∈ item :: items) : (compare item other).isLE = true := by
  rcases mem_cons.mp isOther with rfl | isLater
  · exact Std.ReflCmp.isLE_rfl
  · rw [← Ordering.not_isGT_eq_isLE]
    exact (pairwise_cons.mp sorted).1 other isLater

theorem mem_of_tiedWith_eq (same : tiedWith compare item items = tiedWith compare item others)
    (isItem : item ∈ items) : item ∈ others := by
  have isTied : item ∈ tiedWith compare item items :=
    mem_tiedWith.mpr ⟨isItem, Std.ReflCmp.compare_self⟩
  rw [same] at isTied
  exact (mem_tiedWith.mp isTied).1

theorem eq_of_tiedWith_eq
    (sorted : items.Pairwise fun first second => (!(compare first second).isGT) = true)
    (othersSorted : others.Pairwise fun first second => (!(compare first second).isGT) = true)
    (same : ∀ item, tiedWith compare item items = tiedWith compare item others) :
    items = others := by
  induction items generalizing others with
  | nil =>
    refine (eq_nil_iff_forall_not_mem.mpr fun other isOther => ?_).symm
    cases mem_of_tiedWith_eq (same other).symm isOther
  | cons item items ih =>
    have inOthers : item ∈ others := mem_of_tiedWith_eq (same item) mem_cons_self
    cases others with
    | nil => cases inOthers
    | cons other others =>
      have inItems : other ∈ item :: items := mem_of_tiedWith_eq (same other).symm mem_cons_self
      -- Both lists begin with a least item, and so with the first of those tied with it.
      have tied : compare item other = .eq :=
        Std.OrientedCmp.isLE_antisymm (isLE_of_mem sorted inItems)
          (isLE_of_mem othersSorted inOthers)
      have heads := congrArg head? (same item)
      rw [tiedWith_cons_of_eq Std.ReflCmp.compare_self, tiedWith_cons_of_eq tied] at heads
      obtain rfl : item = other := Option.some.inj heads
      refine congrArg (item :: ·) (ih sorted.tail othersSorted.tail fun place => ?_)
      refine (append_right_inj (tiedWith compare place [item])).mp ?_
      rw [← tiedWith_append, ← tiedWith_append]
      exact same place

end Sorting

/-! ### Reports -/

namespace Diagnostic

variable (configuration : Configuration) (problem : Diagnostic)

instance : Std.TransCmp Diagnostic.compare :=
  inferInstanceAs (Std.TransCmp (compareLex (compareOn file) (compareLex
    (compareOn fun diagnostic => diagnostic.span.start.line)
    (compareOn fun diagnostic => diagnostic.span.start.column))))

def place : String × Nat × Nat :=
  (problem.file, problem.span.start.line, problem.span.start.column)

theorem compare_eq_iff : compare first second = .eq ↔ first.place = second.place := by
  unfold compare place
  rw [Ordering.then_eq_eq, Ordering.then_eq_eq, Std.LawfulEqCmp.compare_eq_iff_eq,
    Std.LawfulEqCmp.compare_eq_iff_eq, Std.LawfulEqCmp.compare_eq_iff_eq, Prod.mk.injEq,
    Prod.mk.injEq]

theorem tiedWith_eq (problems : List Diagnostic) :
    tiedWith compare problem problems =
      problems.filter fun other => problem.place == other.place := by
  refine filter_congr fun other _ => Bool.eq_iff_iff.mpr ?_
  rw [beq_iff_eq, compare_eq_iff, beq_iff_eq]

theorem notGreater_iff : (!(compare first second).isGT) = true ↔
    first.file < second.file ∨ first.file = second.file ∧
      (first.span.start.line < second.span.start.line ∨
        first.span.start.line = second.span.start.line ∧
          first.span.start.column ≤ second.span.start.column) := by
  unfold compare
  rw [Ordering.not_isGT_eq_isLE, Ordering.isLE_then_iff_or, Ordering.isLE_then_iff_or,
    compare_lt_iff_lt, compare_lt_iff_lt, Std.LawfulEqCmp.compare_eq_iff_eq,
    Std.LawfulEqCmp.compare_eq_iff_eq, Std.isLE_compare]

/-- A problem is ignored if the level of its category is, which an override takes the place of. -/
def isIgnored : Bool :=
  ((configuration.override? problem.category).elim problem.category.defaultSeverity
    (·.severity?)).isNone

def overridden : Diagnostic :=
  { problem with
    severity := ((configuration.override? problem.category).bind (·.severity?)).getD
      problem.severity }

theorem configured?_eq :
    problem.configured? configuration =
      if problem.isIgnored configuration then none
      else some (problem.overridden configuration) := by
  unfold configured? isIgnored overridden
  cases configuration.override? problem.category with
  | none => rfl
  | some level => cases isLevel : level.severity? <;> simp [isLevel]

end Diagnostic

namespace Report

variable (configuration : Configuration)

/-- The problems of a log that are not ignored, with the severities of their overrides. -/
def shown (found : List Diagnostic) : List Diagnostic :=
  (found.filter fun problem => !problem.isIgnored configuration).map
    (·.overridden configuration)

theorem shown_append (found later : List Diagnostic) :
    shown configuration (found ++ later) =
      shown configuration found ++ shown configuration later := by
  rw [shown, filter_append, map_append]
  rfl

theorem filterMap_configured? (found : List Diagnostic) :
    found.filterMap (·.configured? configuration) = shown configuration found := by
  rw [shown, ← filterMap_eq_map, ← filterMap_eq_filter, filterMap_filterMap]
  refine filterMap_congr fun problem _ => ?_
  rw [Diagnostic.configured?_eq, Option.guard]
  cases problem.isIgnored configuration <;> rfl

theorem finish_eq (named : ∀ problem ∈ found, problem.file ≠ "") (file : String) :
    finish configuration file found = ofUnsorted (shown configuration found) := by
  have unchanged : found.map (·.inFile file) = found := by
    refine (map_congr_left fun problem isFound => ?_).trans (map_id found)
    exact if_neg fun isEmpty => named problem isFound (String.isEmpty_iff.mp isEmpty)
  rw [finish, unchanged, filterMap_configured?]

theorem tiedWith_finished {logs : List (String × List Diagnostic)}
    (named : ∀ log ∈ logs, ∀ problem ∈ log.2, problem.file ≠ "") (problem : Diagnostic) :
    tiedWith Diagnostic.compare problem
      ((logs.map fun log => finish configuration log.1 log.2).flatMap entries) =
      tiedWith Diagnostic.compare problem (shown configuration (logs.flatMap Prod.snd)) := by
  induction logs with
  | nil => rfl
  | cons log logs ih =>
    rw [forall_mem_cons] at named
    rw [map_cons, flatMap_cons, flatMap_cons, shown_append, tiedWith_append, tiedWith_append,
      ih named.2, finish_eq configuration named.1]
    exact congrArg (· ++ _) (tiedWith_mergeSort ..)

/-- Merging the reports on logs whose problems carry their file gives the report on the logs put
together. It lists what is not ignored by file, line and column, and what stands at one place in the
order in which it was found. -/
theorem merge_finish (logs : List (String × List Diagnostic)) (file : String)
    (named : ∀ log ∈ logs, ∀ problem ∈ log.2, problem.file ≠ "") :
    ∃ entries : List Diagnostic,
      merge (logs.map fun log => finish configuration log.1 log.2) = ⟨entries⟩ ∧
      finish configuration file (logs.flatMap Prod.snd) = ⟨entries⟩ ∧
      entries.Perm (shown configuration (logs.flatMap Prod.snd)) ∧
      (entries.Pairwise fun first second =>
        first.file < second.file ∨ first.file = second.file ∧
          (first.span.start.line < second.span.start.line ∨
            first.span.start.line = second.span.start.line ∧
              first.span.start.column ≤ second.span.start.column)) ∧
      ∀ problem : Diagnostic, (entries.filter fun other => problem.place == other.place) =
        (shown configuration (logs.flatMap Prod.snd)).filter fun other =>
          problem.place == other.place := by
  have allNamed : ∀ problem ∈ logs.flatMap Prod.snd, problem.file ≠ "" := by
    intro problem isFound
    obtain ⟨log, isLog, isLogged⟩ := mem_flatMap.mp isFound
    exact named log isLog problem isLogged
  have sorted := pairwise_mergeSort_notGreater Diagnostic.compare
  refine ⟨_, congrArg Report.mk (eq_of_tiedWith_eq (sorted _) (sorted _) fun problem => ?_),
    finish_eq configuration allNamed file, mergeSort_perm .., ?_, fun problem => ?_⟩
  · rw [tiedWith_mergeSort, tiedWith_mergeSort, tiedWith_finished configuration named]
  · exact (sorted _).imp Diagnostic.notGreater_iff.mp
  · rw [← Diagnostic.tiedWith_eq, ← Diagnostic.tiedWith_eq, tiedWith_mergeSort]

def tied (message : String) : Diagnostic :=
  ⟨.error, .syntaxError, message, ⟨⟨1, 1, 0⟩, ⟨1, 1, 0⟩⟩, "A.java"⟩

theorem merge_finish_tied :
    (∀ log ∈ [("B.java", [tied "b"]), ("A.java", [tied "a"])],
      ∀ problem ∈ log.2, problem.file ≠ "") ∧
    merge [finish {} "B.java" [tied "b"], finish {} "A.java" [tied "a"]] =
      finish {} "" [tied "b", tied "a"] := by
  have named : ∀ log ∈ [("B.java", [tied "b"]), ("A.java", [tied "a"])],
      ∀ problem ∈ log.2, problem.file ≠ "" := by decide
  obtain ⟨entries, merged, finished, _⟩ := merge_finish {} _ "" named
  exact ⟨named, merged.trans finished.symm⟩

end Report

/-! ### Searching and sorting reordered lists -/

section Reordered

variable {α : Type} {items others : List α} {name : α → String}

theorem find?_name_eq (isPerm : others.Perm items) (differ : (items.map name).Nodup)
    (wanted : String) :
    (others.find? fun item => name item == wanted) =
      items.find? fun item => name item == wanted := by
  refine (find?_eq_find?_of_perm isPerm.symm ?_).symm
  rintro first ⟨isFirst, firstWanted⟩ second ⟨isSecond, secondWanted⟩
  exact inj_on_of_nodup_map differ isFirst isSecond
    ((eq_of_beq firstWanted).trans (eq_of_beq secondWanted).symm)

theorem filter_name_eq (isPerm : others.Perm items) (differ : (items.map name).Nodup)
    (wanted : String) :
    (others.filter fun item => name item == wanted) =
      items.filter fun item => name item == wanted := by
  have areNamed := isPerm.filter fun item => name item == wanted
  rcases filter_name_cases differ wanted with none | ⟨item, one⟩
  · rw [none] at areNamed ⊢
    exact areNamed.eq_nil
  · rw [one] at areNamed ⊢
    exact areNamed.eq_singleton

variable (compare : α → α → Ordering) [Std.TransCmp compare]

theorem mergeSort_eq_of_perm [Std.LawfulEqCmp compare] (isPerm : others.Perm items) :
    (others.mergeSort fun first second => !(compare first second).isGT) =
      items.mergeSort fun first second => !(compare first second).isGT := by
  refine Perm.eq_of_pairwise (fun first second _ _ isFirst isSecond => ?_)
    (pairwise_mergeSort_notGreater compare others) (pairwise_mergeSort_notGreater compare items)
    ((mergeSort_perm ..).trans (isPerm.trans (mergeSort_perm ..).symm))
  rw [Ordering.not_isGT_eq_isLE] at isFirst isSecond
  exact Std.LawfulEqCmp.eq_of_compare (Std.OrientedCmp.isLE_antisymm isFirst isSecond)

end Reordered

/-! ### The table of types -/

namespace DeclaredTypes

section Table

variable {packages otherPackages : List String} {platform : ClassPath} {sites others : List Site}
  {types otherTypes : List KnownType}

theorem foldl_insert (isKey : ∀ site, (outline site).key = site.key)
    (differ : (types.map KnownType.key ++ sites.map Site.key).Nodup) :
    sites.foldl (fun types site => insert types (outline site)) types =
      types ++ sites.map outline := by
  induction sites generalizing types with
  | nil => exact (append_nil types).symm
  | cons site rest ih =>
    have isNew : ¬ (types.any fun other => other.key == (outline site).key) = true := by
      intro isOld
      obtain ⟨other, isOther, sameKey⟩ := any_eq_true.mp isOld
      rw [isKey] at sameKey
      refine disjoint_of_nodup_append differ (mem_map_of_mem isOther) ?_
      rw [eq_of_beq sameKey]
      exact mem_cons_self
    have isStep : insert types (outline site) = types ++ [outline site] := if_neg isNew
    rw [foldl_cons, isStep, ih, append_assoc]
    · rfl
    · rw [map_append, map_singleton, isKey, append_assoc]
      exact differ

theorem inferredPermits_eq (areTypes : otherTypes.Perm types) (key : String) :
    inferredPermits otherTypes key = inferredPermits types key :=
  mergeSort_eq_of_perm compare ((areTypes.filter _).map KnownType.key)

theorem addPermits_perm (areTypes : otherTypes.Perm types) :
    (addPermits otherTypes).Perm (addPermits types) := by
  unfold addPermits
  simp only [inferredPermits_eq areTypes]
  exact areTypes.map _

theorem classPath_eq {declared other : DeclaredTypes} (areTypes : other.types.Perm declared.types)
    (arePackages : other.packages.Perm declared.packages)
    (differ : (declared.types.map KnownType.key).Nodup) : other.classPath = declared.classPath := by
  unfold classPath
  congr 1
  · funext key
    exact find?_name_eq areTypes differ key
  · funext package
    exact arePackages.contains_eq

theorem stagePath_eq (arePackages : otherPackages.Perm packages) (areTypes : otherTypes.Perm types)
    (differ : (types.map KnownType.key).Nodup) :
    stagePath otherPackages platform otherTypes = stagePath packages platform types := by
  unfold stagePath
  rw [@classPath_eq ⟨types, packages, []⟩ ⟨otherTypes, otherPackages, []⟩ areTypes arePackages
    differ]

variable (differ : (sites.map Site.key).Nodup)
include differ

theorem outlines_eq_map :
    outlines sites = sites.map fun site => site.outline (isInInterface sites site) := by
  unfold outlines
  rw [foldl_insert fun site => Site.key_outline site _, nil_append]
  exact differ

theorem keys_outlines : (outlines sites).map KnownType.key = sites.map Site.key := by
  rw [outlines_eq_map differ, map_map]
  exact map_congr_left fun site _ => Site.key_outline site _

theorem keys_withSupertypes :
    (withSupertypes packages platform sites).map KnownType.key = sites.map Site.key := by
  unfold withSupertypes
  rw [map_afterRound _ fun site => Site.key_addSupertypes site _, keys_outlines differ]

theorem keys_withMembers :
    (withMembers packages platform sites).map KnownType.key = sites.map Site.key := by
  unfold withMembers
  rw [map_afterRound _ fun site => Site.key_addMembers site _, keys_withSupertypes differ]

variable (isPerm : others.Perm sites)
include isPerm

theorem isInInterface_eq (site : Site) : isInInterface others site = isInInterface sites site := by
  unfold isInInterface
  congr 1
  funext outer
  rw [find?_name_eq isPerm differ outer]

theorem outlines_perm : (outlines others).Perm (outlines sites) := by
  rw [outlines_eq_map differ, outlines_eq_map ((isPerm.map Site.key).nodup_iff.mpr differ)]
  simp only [isInInterface_eq differ isPerm]
  exact isPerm.map _

theorem afterRound_perm {update : Site → KnownType → KnownType}
    (keeps : ∀ site type, (update site type).key = type.key) (areTypes : otherTypes.Perm types) :
    (afterRound update others otherTypes).Perm (afterRound update sites types) := by
  rw [afterRound_eq_map keeps, afterRound_eq_map keeps]
  simp only [filter_name_eq isPerm differ]
  exact areTypes.map _

variable (arePackages : otherPackages.Perm packages)
include arePackages

theorem withSupertypes_perm : (withSupertypes otherPackages platform others).Perm
    (withSupertypes packages platform sites) := by
  have areOutlines := outlines_perm differ isPerm
  unfold withSupertypes
  rw [stagePath_eq arePackages areOutlines (by rwa [keys_outlines differ])]
  exact afterRound_perm differ isPerm (fun site => Site.key_addSupertypes site _) areOutlines

theorem withMembers_perm :
    (withMembers otherPackages platform others).Perm (withMembers packages platform sites) := by
  have areTypes := @withSupertypes_perm _ _ platform _ _ differ isPerm arePackages
  unfold withMembers
  rw [stagePath_eq arePackages areTypes (by rwa [keys_withSupertypes differ])]
  exact afterRound_perm differ isPerm (fun site => Site.key_addMembers site _) areTypes

end Table

theorem index_ofUnits {others : List (String × CompilationUnit)} (isPerm : others.Perm units)
    (platform : ClassPath) (keysDiffer : ((Site.ofUnits units).map Site.key).Nodup)
    (placesDiffer : ∀ first ∈ Site.ofUnits units, ∀ second ∈ Site.ofUnits units, first.file =
      second.file → first.body.offset = second.body.offset → first = second) :
    (ofUnits others platform).index = (ofUnits units platform).index := by
  have areSites := Site.perm_ofUnits isPerm keysDiffer
  have arePackages : (packagesIn others).Perm (packagesIn units) := isPerm.flatMap_right _
  have samePath : (ofUnits others platform).classPath = (ofUnits units platform).classPath := by
    refine classPath_eq
      (addPermits_perm (withMembers_perm keysDiffer areSites arePackages)) arePackages ?_
    rw [ofUnits_eq, map_addPermits _ fun _ _ => rfl, keys_withMembers keysDiffer]
    exact keysDiffer
  have sameKeys : (ofUnits others platform).keyAt? = (ofUnits units platform).keyAt? := by
    funext file offset
    have areReversed : (Site.ofUnits units).reverse.Perm (Site.ofUnits others).reverse :=
      (reverse_perm _).trans (areSites.symm.trans (reverse_perm _).symm)
    refine congrArg (Option.map Site.key) (find?_eq_find?_of_perm areReversed ?_).symm
    rintro first ⟨isFirst, firstPlace⟩ second ⟨isSecond, secondPlace⟩
    rw [Bool.and_eq_true, beq_iff_eq, beq_iff_eq] at firstPlace secondPlace
    exact placesDiffer first (mem_reverse.mp isFirst) second (mem_reverse.mp isSecond)
      (firstPlace.1.trans secondPlace.1.symm) (firstPlace.2.trans secondPlace.2.symm)
  unfold index
  rw [samePath, sameKeys]

end DeclaredTypes

variable {config : Configuration} {sources : List SourceFile}

theorem index_declaredIn {others : List SourceFile} (isPerm : others.Perm sources)
    (pathsDiffer : (sources.map SourceFile.path).Nodup)
    (keysDiffer : ((declaredIn config sources).sites.map Site.key).Nodup) :
    (declaredIn config others).index = (declaredIn config sources).index := by
  refine DeclaredTypes.index_ofUnits (isPerm.map _) Platform.classPath keysDiffer ?_
  intro first isFirst second isSecond sameFile sameOffset
  obtain ⟨unit, isUnit, _⟩ := (Site.has_ofUnits_iff _ first.file first.body.node).mp
    ⟨first, isFirst, rfl, rfl⟩
  obtain ⟨source, isSource, isEntry⟩ := mem_map.mp isUnit
  have isPath : source.path = first.file := congrArg Prod.fst isEntry
  have inFile : ∀ site ∈ (declaredIn config sources).sites, site.file = first.file →
      site ∈ Site.inFile (declaredIn config sources).sites source.path := by
    intro site isSite isFile
    refine mem_filter.mpr ⟨isSite, ?_⟩
    rw [isFile, isPath, beq_self_eq_true]
  exact inj_on_of_nodup_map (nodup_offsets_inFile pathsDiffer isSource)
    (inFile first isFirst rfl) (inFile second isSecond sameFile.symm) sameOffset

theorem compile_eq_map {others : List SourceFile} (isPerm : others.Perm sources)
    (pathsDiffer : (sources.map SourceFile.path).Nodup)
    (keysDiffer : ((declaredIn config sources).sites.map Site.key).Nodup) :
    compile config others = others.map (CompiledUnit.among config (declaredIn config sources)) := by
  rw [compile_eq]
  unfold CompiledUnit.among
  rw [index_declaredIn isPerm pathsDiffer keysDiffer]

/-! ### The listing -/

variable (config : Configuration) (declared : DeclaredTypes) {sources : List SourceFile}

theorem tiedWith_reports (sources : List SourceFile) (problem : Diagnostic) :
    tiedWith Diagnostic.compare problem (sources.flatMap fun source =>
      (CompiledUnit.among config declared source).report.entries) =
      tiedWith Diagnostic.compare problem
        ((sources.filter fun source => source.fileName == problem.file).flatMap fun source =>
          (CompiledUnit.among config declared source).report.entries) := by
  induction sources with
  | nil => rfl
  | cons source rest ih =>
    rw [flatMap_cons, tiedWith_append, ih, filter_cons]
    by_cases isFile : (source.fileName == problem.file) = true
    · rw [if_pos isFile, flatMap_cons, tiedWith_append]
    · rw [if_neg isFile, tiedWith, filter_eq_nil_iff.mpr, nil_append]
      intro other isListed isTied
      have samePlace := Diagnostic.compare_eq_iff.mp (beq_iff_eq.mp isTied)
      rw [← CompiledUnit.file_of_mem_report isListed] at isFile
      exact isFile (beq_iff_eq.mpr (congrArg Prod.fst samePlace).symm)

theorem entries_mergedReport (sources : List SourceFile) :
    (mergedReport (sources.map (CompiledUnit.among config declared))).entries =
      (sources.flatMap fun source =>
        (CompiledUnit.among config declared source).report.entries).mergeSort
          fun first second => !(first.compare second).isGT := by
  unfold mergedReport Report.merge Report.ofUnsorted
  rw [map_map, flatMap_map]
  rfl

theorem mergedReport_eq {others : List SourceFile} (isPerm : others.Perm sources)
    (namesDiffer : (sources.map SourceFile.fileName).Nodup) :
    mergedReport (others.map (CompiledUnit.among config declared)) =
      mergedReport (sources.map (CompiledUnit.among config declared)) := by
  have sameTied : ∀ problem, tiedWith Diagnostic.compare problem
      (mergedReport (others.map (CompiledUnit.among config declared))).entries =
      tiedWith Diagnostic.compare problem
        (mergedReport (sources.map (CompiledUnit.among config declared))).entries := by
    intro problem
    rw [entries_mergedReport, entries_mergedReport, tiedWith_mergeSort, tiedWith_mergeSort,
      tiedWith_reports, filter_name_eq isPerm namesDiffer, ← tiedWith_reports]
  exact congrArg Report.mk (eq_of_tiedWith_eq (pairwise_mergeSort_notGreater Diagnostic.compare _)
    (pairwise_mergeSort_notGreater Diagnostic.compare _) sameTied)

theorem Listing.entriesFrom_congr {texts others : SourceTexts}
    (same : ∀ file, others.get? file = texts.get? file) (number : Nat)
    (problems : List Diagnostic) :
    entriesFrom others number problems = entriesFrom texts number problems := by
  induction problems generalizing number with
  | nil => rfl
  | cons problem rest ih =>
    rw [entriesFrom, entriesFrom, same, ih]

theorem SourceTexts.get?_eq {others : List SourceFile} (isPerm : others.Perm sources)
    (namesDiffer : (sources.map SourceFile.fileName).Nodup) (file : String) :
    (SourceTexts.mk (others.map fun source => (source.fileName, source.text))).get? file =
      (SourceTexts.mk (sources.map fun source => (source.fileName, source.text))).get? file := by
  have areEntries := isPerm.map fun source => (source.fileName, source.text)
  refine congrArg (Option.map Prod.snd) (find?_name_eq
    ((reverse_perm _).trans (areEntries.trans (reverse_perm _).symm)) ?_ file)
  rw [map_reverse, nodup_reverse, map_map]
  exact namesDiffer

/-- Sources are compiled to the same results in every order, if their paths differ and no two of
their classes get the same key. If their file names differ as well, the problems are listed in the
same text. -/
theorem compile_perm (configuration : Configuration) (sources others : List SourceFile)
    (isPerm : others.Perm sources) (pathsDiffer : (sources.map SourceFile.path).Nodup)
    (keysDiffer : ((declaredIn configuration sources).sites.map Site.key).Nodup) :
    (∃ result : SourceFile → CompiledUnit,
      compile configuration sources = sources.map result ∧
      compile configuration others = others.map result) ∧
    ((sources.map SourceFile.fileName).Nodup →
      renderAll others (compile configuration others) =
        renderAll sources (compile configuration sources)) := by
  have inOrder := compile_eq configuration sources
  have reordered := compile_eq_map isPerm pathsDiffer keysDiffer
  refine ⟨⟨_, inOrder, reordered⟩, fun namesDiffer => ?_⟩
  rw [inOrder, reordered]
  unfold renderAll Report.render
  rw [mergedReport_eq configuration _ isPerm namesDiffer,
    Listing.entriesFrom_congr (SourceTexts.get?_eq isPerm namesDiffer)]

def subclass : SourceFile := ⟨"B.java", "class B extends A\x7b\x7d"⟩

theorem compile_perm_subclass :
    (∃ result : SourceFile → CompiledUnit,
      compile {} [soleClass, subclass] = [result soleClass, result subclass] ∧
      compile {} [subclass, soleClass] = [result subclass, result soleClass]) ∧
    renderAll [subclass, soleClass] (compile {} [subclass, soleClass]) =
      renderAll [soleClass, subclass] (compile {} [soleClass, subclass]) := by
  have keys : (declaredIn {} [soleClass, subclass]).sites.map Site.key = ["A", "B"] := by
    decide +kernel
  have inEveryOrder := compile_perm {} [soleClass, subclass] [subclass, soleClass]
    (List.Perm.swap ..) (by decide) (by rw [keys]; decide)
  exact ⟨inEveryOrder.1, inEveryOrder.2 (by decide)⟩

end JavaFrontEnd
