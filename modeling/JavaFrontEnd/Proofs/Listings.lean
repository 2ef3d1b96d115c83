/-
The listing of several sources. The problems of all units are put into one order, and the text that
a problem quotes is looked up again by the name of its file. So the listing quotes the last source
with that name: the right one where file names differ, but not where two directories hold files of
one name (`renderAll_quotes`).
-/

import JavaFrontEnd.Compilation
import JavaFrontEnd.Proofs.Parsing.Result
import Mathlib.Data.List.Nodup

namespace JavaFrontEnd

open List

variable (config : Configuration) (sources : List SourceFile)

/-! ### The file of a problem -/

namespace Diagnostic

variable {diagnostic : Diagnostic}

theorem file_inFile (isUnnamed : diagnostic.file = "") (file : String) :
    (diagnostic.inFile file).file = file := by
  unfold inFile
  rw [isUnnamed]
  rfl

theorem file_of_mem_configured? {config : Configuration}
    (isShown : diagnostic.configured? config = some shown) : shown.file = diagnostic.file := by
  unfold configured? at isShown
  split at isShown
  · obtain ⟨severity, _, rfl⟩ := Option.map_eq_some_iff.mp isShown
    rfl
  · split at isShown
    · cases isShown
    · rw [Option.some.inj isShown]

end Diagnostic

theorem Report.file_of_mem_finish {config : Configuration} {shown : Diagnostic}
    (unnamed : ∀ diagnostic ∈ found, diagnostic.file = "")
    (isShown : shown ∈ (finish config file found).entries) : shown.file = file := by
  unfold finish ofUnsorted at isShown
  rw [mem_mergeSort, mem_filterMap] at isShown
  obtain ⟨named, isNamed, configured⟩ := isShown
  obtain ⟨diagnostic, isFound, rfl⟩ := mem_map.mp isNamed
  rw [Diagnostic.file_of_mem_configured? configured]
  exact Diagnostic.file_inFile (unnamed diagnostic isFound) file

theorem Token.file_of_mem_problems {source : String} {diagnostic : Diagnostic}
    (isProblem : diagnostic ∈ problems level source) : diagnostic.file = "" := by
  obtain ⟨token, _, reports⟩ := mem_filterMap.mp isProblem
  unfold problem? at reports
  dsimp only at reports
  repeat' split at reports
  all_goals cases reports
  all_goals rfl

namespace CompilationUnit

variable {diagnostic : Diagnostic}

theorem file_of_mem_parse {config : Configuration} {source : String}
    (isFound : diagnostic ∈ (parse config source).2) : diagnostic.file = "" := by
  have parsed := Grammar.parsed_source config source
  rw [parse_eq] at isFound
  rcases mem_append.mp isFound with isToken | isSyntax
  · exact Token.file_of_mem_problems isToken
  · rw [parsed.found, mem_reverse] at isSyntax
    exact parsed.ready.unnamed diagnostic isSyntax

theorem file_of_mem_check {unit : CompilationUnit} (isFound : diagnostic ∈ (unit.check context).2) :
    diagnostic.file = "" := by
  rcases mem_append.mp isFound with isName | isType
  · obtain ⟨problem, _, rfl⟩ := mem_map.mp isName
    rfl
  · obtain ⟨⟨problem, span⟩, _, rfl⟩ := mem_map.mp isType
    cases problem <;> rfl

end CompilationUnit

variable {source : SourceFile}

/-! ### The units of a compilation -/

def declaredIn : DeclaredTypes :=
  .ofUnits (sources.map fun source =>
    (source.path, (CompilationUnit.parse config source.text).1)) Platform.classPath

def CompiledUnit.among (declared : DeclaredTypes) (source : SourceFile) : CompiledUnit :=
  .of config declared.index source (CompilationUnit.parse config source.text).1
    (CompilationUnit.parse config source.text).2

theorem compile_eq :
    compile config sources =
      sources.map (CompiledUnit.among config (declaredIn config sources)) := by
  unfold compile declaredIn
  dsimp only
  rw [map_map, map_map]
  rfl

theorem zip_compile :
    sources.zip (compile config sources) = sources.map fun source =>
      (source, CompiledUnit.among config (declaredIn config sources) source) := by
  rw [compile_eq]
  generalize declaredIn config sources = declared
  induction sources with
  | nil => rfl
  | cons source rest ih =>
    rw [map_cons, zip_cons_cons, map_cons, ih]

theorem CompiledUnit.file_of_mem_report {config : Configuration} {diagnostic : Diagnostic}
    (isListed : diagnostic ∈ (among config declared source).report.entries) :
    diagnostic.file = source.fileName := by
  refine Report.file_of_mem_finish (fun found isFound => ?_) isListed
  rcases mem_append.mp isFound with isSyntax | isOther
  · exact CompilationUnit.file_of_mem_parse isSyntax
  · exact CompilationUnit.file_of_mem_check isOther

/-! ### The text that is quoted -/

def SourceFile.namesake (source : SourceFile) (sources : List SourceFile) : SourceFile :=
  (sources.reverse.find? fun other => other.fileName == source.fileName).getD source

theorem SourceFile.namesake_eq {sources : List SourceFile}
    (differ : (sources.map SourceFile.fileName).Nodup) (isSource : source ∈ sources) :
    source.namesake sources = source := by
  unfold namesake
  cases isFound : sources.reverse.find? fun other => other.fileName == source.fileName with
  | none => rfl
  | some other =>
    have isOther := mem_reverse.mp (mem_of_find?_eq_some isFound)
    have sameName := find?_some isFound
    exact inj_on_of_nodup_map differ isOther isSource (eq_of_beq sameName)

theorem SourceTexts.get?_fileName {sources : List SourceFile} (isSource : source ∈ sources) :
    (SourceTexts.mk (sources.map fun other => (other.fileName, other.text))).get?
      source.fileName = some (source.namesake sources).text := by
  have isThere : (sources.reverse.find? fun other =>
      other.fileName == source.fileName).isSome = true := by
    rw [find?_isSome]
    exact ⟨source, mem_reverse.mpr isSource, beq_self_eq_true _⟩
  obtain ⟨other, isFound⟩ := Option.isSome_iff_exists.mp isThere
  unfold get? SourceFile.namesake
  rw [isFound, ← map_reverse, find?_map]
  show Option.map Prod.snd (Option.map _ (sources.reverse.find? fun other =>
    other.fileName == source.fileName)) = _
  rw [isFound]
  rfl

/-! ### The listing -/

def problemsBySource (units : List CompiledUnit) :
    List (SourceFile × Diagnostic) :=
  (sources.zip units).flatMap fun compiled =>
    compiled.2.report.entries.map fun diagnostic => (compiled.1, diagnostic)

theorem problemsBySource_compile :
    problemsBySource sources (compile config sources) = sources.flatMap fun source =>
      (CompiledUnit.among config (declaredIn config sources)
        source).report.entries.map fun diagnostic => (source, diagnostic) := by
  unfold problemsBySource
  rw [zip_compile, flatMap_map]

/-- The entries of a listing, one for each problem and the source it was found in. A problem quotes
the last source with the file name of its own. -/
def quoting (listed : List (SourceFile × Diagnostic)) : List String :=
  listed.mapIdx fun index problem =>
    Listing.entry (index + 1) problem.2 (some (problem.1.namesake sources).text)

theorem Listing.entriesFrom_map_snd (texts : SourceTexts) (number : Nat)
    (listed : List (SourceFile × Diagnostic)) :
    entriesFrom texts number (listed.map Prod.snd) = listed.mapIdx fun index problem =>
      entry (index + number) problem.2 (texts.get? problem.2.file) := by
  induction listed generalizing number with
  | nil => rfl
  | cons first rest ih =>
    rw [map_cons, entriesFrom, ih, mapIdx_cons]
    simp only [Nat.zero_add, Nat.add_assoc, Nat.add_comm 1]

def listedProblems :
    List (SourceFile × Diagnostic) :=
  (problemsBySource sources (compile config sources)).mergeSort fun first second =>
    !(first.2.compare second.2).isGT

theorem map_snd_listedProblems :
    (listedProblems config sources).map Prod.snd =
      (mergedReport (compile config sources)).entries := by
  have isFound : (problemsBySource sources (compile config sources)).map Prod.snd =
      ((compile config sources).map CompiledUnit.report).flatMap Report.entries := by
    rw [problemsBySource_compile, compile_eq, map_flatMap, map_map, flatMap_map]
    simp [Function.comp_def]
  unfold listedProblems mergedReport Report.merge Report.ofUnsorted
  rw [← isFound]
  exact map_mergeSort fun _ _ _ _ => rfl

theorem mem_listedProblems {config : Configuration} {sources : List SourceFile}
    (isListed : problem ∈ listedProblems config sources) :
    problem.1 ∈ sources ∧ problem.2.file = problem.1.fileName := by
  unfold listedProblems at isListed
  rw [mem_mergeSort, problemsBySource_compile, mem_flatMap] at isListed
  obtain ⟨source, isSource, isOfSource⟩ := isListed
  obtain ⟨diagnostic, isReported, rfl⟩ := mem_map.mp isOfSource
  exact ⟨isSource, CompiledUnit.file_of_mem_report isReported⟩

/-- The listing of a compilation has one numbered entry for each problem of each source, in the
order of the merged report. An entry quotes the last source whose file has the name of the source
that the problem was found in: where file names differ, that source itself. -/
theorem renderAll_quotes (configuration : Configuration) (sources : List SourceFile) :
    ∃ listed : List (SourceFile × Diagnostic),
      listed.Perm (problemsBySource sources (compile configuration sources)) ∧
      listed.map Prod.snd = (mergedReport (compile configuration sources)).entries ∧
      (∀ problem ∈ listed, problem.2.file = problem.1.fileName) ∧
      renderAll sources (compile configuration sources) =
        (if listed.isEmpty then "" else s!"{Listing.separator}\n" ++
          String.join (quoting sources listed)) ∧
      ((sources.map SourceFile.fileName).Nodup →
        ∀ problem ∈ listed, problem.1.namesake sources = problem.1) := by
  refine ⟨listedProblems configuration sources, mergeSort_perm _ _,
    map_snd_listedProblems configuration sources,
    fun problem isListed => (mem_listedProblems isListed).2, ?_,
    fun differ problem isListed => SourceFile.namesake_eq differ (mem_listedProblems isListed).1⟩
  have entries : Listing.entriesFrom
      ⟨sources.map fun source => (source.fileName, source.text)⟩ 1
      ((listedProblems configuration sources).map Prod.snd) =
      quoting sources (listedProblems configuration sources) := by
    unfold quoting
    rw [Listing.entriesFrom_map_snd]
    refine mapIdx_eq_mapIdx_iff.mpr fun index isIndex => ?_
    obtain ⟨isSource, sameName⟩ := mem_listedProblems (getElem_mem isIndex)
    rw [sameName, SourceTexts.get?_fileName isSource]
  unfold renderAll Report.render
  rw [← map_snd_listedProblems, entries, isEmpty_map]

end JavaFrontEnd
