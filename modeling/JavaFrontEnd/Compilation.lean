/-
The compilation of sources: every source is parsed, the types of all of them are declared together,
and then each unit is bound, attributed and planned by itself.
-/

import JavaFrontEnd.Attribution
import JavaFrontEnd.ClassFile.Plan
import JavaFrontEnd.Grammar.Unit

namespace JavaFrontEnd

structure SourceFile where
  path : String
  text : String

variable (configuration : Configuration) (sources : List SourceFile)

/-- The name under which problems are reported: the last part of the path. -/
def SourceFile.fileName (source : SourceFile) : String :=
  String.ofList
    (source.path.toList.reverse.takeWhile fun char => char ≠ '/' && char ≠ '\\').reverse

structure CompiledUnit where
  file : String
  unit : CompilationUnit
  attribution : Attribution
  report : Report
  plans : List ClassPlan

namespace CompiledUnit

/-- The result for a parsed source among the declared types of a compilation. Syntax errors come
before other problems. -/
def of (declared : SourceIndex) (source : SourceFile)
    (unit : CompilationUnit) (syntaxErrors : List Diagnostic) : CompiledUnit :=
  let context : UnitContext :=
    { configuration, declared, file := source.path
      names := .ofUnit unit (declared.classPath.orElse Platform.classPath) }
  let (attribution, problems) := unit.check context
  { file := source.fileName, unit, attribution
    report := .finish configuration source.fileName (syntaxErrors ++ problems)
    plans := ClassPlan.ofUnit context attribution.bindings unit }

def render (compiled : CompiledUnit) (source : SourceFile) : String :=
  compiled.report.render ⟨[(compiled.file, source.text)]⟩

end CompiledUnit

def compile : List CompiledUnit :=
  let parsed := sources.map fun source =>
    (source, CompilationUnit.parse configuration source.text)
  let declared := SourceIndex.ofUnits (parsed.map fun (source, unit, _) => (source.path, unit))
    Platform.classPath
  parsed.map fun (source, unit, problems) =>
    .of configuration declared source unit problems

/-- The compilation of sources. Nothing is made of any of them if a literal of one has no value. -/
def compile? : Option (List CompiledUnit) := do
  let _ ← sources.mapM fun source => CompilationUnit.parse? configuration source.text
  return compile configuration sources

def compileAlone :
    List CompiledUnit :=
  sources.flatMap fun source => compile configuration [source]

def mergedReport (units : List CompiledUnit) : Report :=
  .merge (units.map CompiledUnit.report)

def renderAll (units : List CompiledUnit) : String :=
  (mergedReport units).render
    ⟨sources.map fun source => (source.fileName, source.text)⟩

end JavaFrontEnd
