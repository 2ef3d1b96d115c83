/-
What the commands print. A command writes its result to the output and the problems of the source,
or of the command itself, to the errors; a check writes its problems to the output, since they are
its result.
-/

import JavaFrontEnd.Compilation

namespace JavaFrontEnd

/-! The arguments of the command line: a verb, options that may stand anywhere after it, and paths.
-/

inductive Verb where
  | check
  | parse
  | lex
  | plan
  deriving DecidableEq, Repr

def Verb.ofName? : String → Option Verb
  | "check" => some .check
  | "parse" => some .parse
  | "lex" => some .lex
  | "plan" => some .plan
  | _ => none

inductive ValueOption where
  | source
  | error
  | warning
  | ignore
  deriving DecidableEq, Repr

namespace ValueOption

def ofName? : String → Option ValueOption
  | "--source" => some .source
  | "--error" => some .error
  | "--warning" => some .warning
  | "--ignore" => some .ignore
  | _ => none

def display : ValueOption → String
  | source => "--source <SOURCE>"
  | error => "--error <CATEGORY>"
  | warning => "--warning <CATEGORY>"
  | ignore => "--ignore <CATEGORY>"

end ValueOption

inductive Switch where
  | preview
  | detailed
  | locations
  | verbose
  deriving DecidableEq, Repr

namespace Switch

def named (verb : Verb) : List (Switch × String × Option Char) :=
  [(.preview, "--preview", none), (.verbose, "--verbose", some 'v')] ++
    match verb with
    | .parse => [(.detailed, "--detailed", some 'd')]
    | .lex => [(.locations, "--locations", some 'l')]
    | .check | .plan => []

def ofName? (verb : Verb) (name : String) : Option Switch :=
  ((named verb).find? fun (_, other, _) => other == name).map Prod.fst

def ofLetter? (verb : Verb) (letter : Char) : Option Switch :=
  ((named verb).find? fun (_, _, other) => other == some letter).map Prod.fst

def display : Switch → String
  | preview => "--preview"
  | detailed => "--detailed"
  | locations => "--locations"
  | verbose => "--verbose"

end Switch

inductive UsageError where
  | missingCommand
  | unknownCommand (name : String)
  | unexpected (argument : String)
  | missingValue (option : ValueOption)
  | invalidValue (option : ValueOption) (value : String) (reason : ConfigurationError)
  | repeated (option : String)
  | missingPath
  deriving DecidableEq, Repr

def UsageError.message : UsageError → String
  | missingCommand => "a command is required: check, parse, lex or plan"
  | unknownCommand name => s!"unrecognized subcommand '{name}'"
  | unexpected argument => s!"unexpected argument '{argument}' found"
  | missingValue option =>
    s!"a value is required for '{option.display}' but none was supplied"
  | invalidValue option value reason =>
    s!"invalid value '{value}' for '{option.display}': {reason.message}"
  | repeated option => s!"the argument '{option}' cannot be used multiple times"
  | missingPath => "the following required arguments were not provided:\n  <PATH>"

structure Options where
  level : Option Level := none
  switches : List Switch := []
  errors : List Category := []
  warnings : List Category := []
  ignored : List Category := []
  paths : List String := []

namespace Options

theorem usualLevel_known : 3 ≤ 17 ∧ 17 ≤ 21 := by decide

def usualLevel : Level :=
  ⟨17, usualLevel_known⟩

/-- The configuration that options ask for. What is to be ignored is ignored, and a warning prevails
over an error. -/
def configuration (options : Options) : Configuration :=
  let base : Configuration :=
    { level := options.level.getD usualLevel, preview := options.switches.contains .preview }
  let add (override : SeverityOverride) (base : Configuration) (categories : List Category) :=
    categories.foldl (fun configuration category =>
      configuration.withOverride category override) base
  let withErrors := add (.report .error) base options.errors
  let withWarnings := add (.report .warning) withErrors options.warnings
  add .ignore withWarnings options.ignored

def withValue (options : Options) (option : ValueOption) (value : String) :
    Except UsageError Options :=
  let category : Except UsageError Category :=
    (Category.read value).mapError (UsageError.invalidValue option value)
  match option with
  | .source =>
    if options.level.isSome then .error (.repeated option.display)
    else do
      let level ← (Level.read value).mapError (UsageError.invalidValue option value)
      return { options with level := some level }
  | .error => return { options with errors := options.errors ++ [← category] }
  | .warning => return { options with warnings := options.warnings ++ [← category] }
  | .ignore => return { options with ignored := options.ignored ++ [← category] }

def withSwitch (options : Options) (switch : Switch) : Except UsageError Options :=
  if switch != .verbose && options.switches.contains switch then
    .error (.repeated switch.display)
  else .ok { options with switches := switch :: options.switches }

def withLetters (verb : Verb) (argument : String) (options : Options) :
    List Char → Except UsageError Options
  | [] => .ok options
  | letter :: rest =>
    match Switch.ofLetter? verb letter with
    | some switch => do
      let options ← options.withSwitch switch
      options.withLetters verb argument rest
    | none => .error (.unexpected argument)

def looksLikeOption (argument : String) : Bool :=
  match argument.toList with
  | '-' :: _ :: _ => true
  | _ => false

def joined (argument : String) : String × Option String :=
  let name := argument.toList.takeWhile (· ≠ '=')
  match argument.toList.drop name.length with
  | _ :: value => (String.ofList name, some (String.ofList value))
  | [] => (argument, none)

/-- Reads the arguments after the verb. After two dashes everything is a path. -/
def scan (verb : Verb) : List String → Options → Except UsageError Options
  | [], options => .ok options
  | argument :: rest, options =>
    let (name, value?) := joined argument
    match ValueOption.ofName? name, value?, rest with
    | some option, some value, rest => do
      let options ← options.withValue option value
      scan verb rest options
    | some option, none, value :: rest =>
      if looksLikeOption value then .error (.missingValue option)
      else do
        let options ← options.withValue option value
        scan verb rest options
    | some option, none, [] => .error (.missingValue option)
    | none, _, rest =>
      match Switch.ofName? verb argument, argument.toList with
      | some switch, _ => do
        let options ← options.withSwitch switch
        scan verb rest options
      | none, ['-', '-'] => .ok { options with paths := options.paths ++ rest }
      | none, '-' :: '-' :: _ => .error (.unexpected argument)
      | none, '-' :: letter :: more => do
        let options ← options.withLetters verb argument (letter :: more)
        scan verb rest options
      | none, _ => scan verb rest { options with paths := options.paths ++ [argument] }

end Options

structure Command where
  verb : Verb
  options : Options
  path : String
  more : List String

namespace Command

def of (verb : Verb) (options : Options) : Except UsageError Command :=
  match options.paths with
  | [] => .error .missingPath
  | path :: more =>
    match verb, more with
    | .check, more => .ok { verb, options, path, more }
    | _, [] => .ok { verb, options, path, more := [] }
    | _, extra :: _ => .error (.unexpected extra)

def read : List String → Except UsageError Command
  | [] => .error .missingCommand
  | argument :: rest =>
    match Verb.ofName? argument with
    | some verb => do
      let options ← Options.scan verb rest {}
      of verb options
    | none =>
      if ["-v", "-vv", "-vvv", "--verbose"].contains argument then read rest
      else if Options.looksLikeOption argument then .error (.unexpected argument)
      else .error (.unknownCommand argument)

end Command

/-! The files that a command reads. A file is a sequence of bytes, which has to be text to be a
source. Of a directory all files with the extension of the language are sources, those in
directories inside it included, in the order of their names. -/

inductive ReadFailure where
  | notFound
  | isDirectory
  | notDirectory
  | notText
  | other (reason : String)
  deriving DecidableEq, Repr

def ReadFailure.message : ReadFailure → String
  | notFound => "No such file or directory (os error 2)"
  | isDirectory => "Is a directory (os error 21)"
  | notDirectory => "Not a directory (os error 20)"
  | notText => "stream did not contain valid UTF-8"
  | other reason => reason

inductive FileEntry where
  | file (content : ByteArray)
  | directory (entries : List (String × FileEntry))

abbrev FileLookup := String → Except ReadFailure FileEntry

namespace FileEntry

def entries : FileEntry → List (String × FileEntry)
  | .directory entries => entries
  | .file _ => []

def insert (content : ByteArray) : List String → FileEntry → FileEntry
  | [], _ => .file content
  | name :: rest, entry =>
    let others := entry.entries.filter fun (other, _) => other != name
    let inner := (entry.entries.lookup name).getD (.directory [])
    .directory (others ++ [(name, inner.insert content rest)])

/-- Follows the parts of a path. `passed` are the entries on the way, innermost first. -/
def follow : List String → List FileEntry → Except ReadFailure FileEntry
  | _, [] => .error .notFound
  | [], entry :: _ => .ok entry
  | _ :: _, .file _ :: _ => .error .notDirectory
  | part :: rest, .directory entries :: outer =>
    if part = "" || part = "." then follow rest (.directory entries :: outer)
    else if part = ".." then follow rest outer
    else match entries.lookup part with
      | some entry => follow rest (entry :: .directory entries :: outer)
      | none => .error .notFound

/-- What is found under a path in a directory. Nothing is known outside the directory. -/
def lookup (root : FileEntry) : FileLookup := fun path =>
  match path.toList with
  | [] | '/' :: _ => .error .notFound
  | characters => follow ((Text.pieces '/' characters).map String.ofList) [root]

def pathIn (directory name : String) : String :=
  if directory.toList.getLast? = some '/' then directory ++ name else s!"{directory}/{name}"

def isSourceName (name : String) : Bool :=
  match Text.cutLast? '.' name with
  | some (stem, extension) => extension == "java" && !stem.isEmpty
  | none => false

mutual

def sources (path name : String) : FileEntry → List (String × ByteArray)
  | .file content => if isSourceName name then [(path, content)] else []
  | .directory entries =>
    ((sourcesOfAll path entries).mergeSort fun first second =>
      !(compare first.1 second.1).isGT).flatMap Prod.snd

def sourcesOfAll (directory : String) :
    List (String × FileEntry) → List (String × List (String × ByteArray))
  | [] => []
  | (name, entry) :: rest =>
    (name, sources (pathIn directory name) name entry) :: sourcesOfAll directory rest

end

end FileEntry

structure FileError where
  path : String
  failure : ReadFailure

/-- The wording of an error; the failure is its own cause and is told twice. -/
def FileError.message (error : FileError) : String :=
  let reason := error.failure.message
  s!"IO error on {error.path}: {reason}: {reason}"

def SourceFile.decode (path : String) (content : ByteArray) : Except FileError SourceFile :=
  match String.fromUTF8? content with
  | some text => .ok { path, text }
  | none => .error { path, failure := .notText }

def SourceFile.read (find : FileLookup) (path : String) : Except FileError SourceFile :=
  match find path with
  | .ok (.file content) => SourceFile.decode path content
  | .ok (.directory _) => .error { path, failure := .isDirectory }
  | .error failure => .error { path, failure }

/-- Reads all sources under paths. A path that is not a directory is read whatever its name. -/
def SourceFile.readAll (find : FileLookup) : List String → Except FileError (List SourceFile)
  | [] => .ok []
  | path :: rest => do
    let found ← match find path with
      | .ok (.directory entries) =>
        (FileEntry.sources path "" (.directory entries)).mapM fun (path, content) =>
          SourceFile.decode path content
      | _ => do
        let source ← SourceFile.read find path
        pure [source]
    let more ← readAll find rest
    return found ++ more

variable (configuration : Configuration)

structure Outcome where
  /-- Zero on success, one if the source has errors, two if the command could not be done. -/
  code : UInt32
  output : String := ""
  errors : String := ""

namespace Outcome

def ofSource (hasErrors : Bool) (output errors : String) : Outcome :=
  { code := if hasErrors then 1 else 0, output, errors }

def unreadable (reason : String) : Outcome :=
  { code := 2, errors := s!"error: {reason}\n" }

def misused (error : UsageError) : Outcome :=
  { code := 2, errors := s!"error: {error.message}\n\nFor more information, try '--help'.\n" }

def withProblems (source : SourceFile) (problems : List Diagnostic) (output : String) : Outcome :=
  let report := Report.finish configuration source.fileName problems
  ofSource report.hasErrors output (report.render ⟨[(source.fileName, source.text)]⟩)

end Outcome

/-! ### The declarations of a unit -/

mutual

def TypeDeclaration.nestedOutline (depth : Nat) : TypeDeclaration → List String
  | ⟨header, _, members⟩ =>
    let indent := String.ofList (List.replicate (2 * depth) ' ')
    let kind := header.shape.kind.display
    s!"{indent}{kind} {header.name} ({members.length} members)" ::
      Member.nestedOutlines (depth + 1) members

def Member.nestedOutlines (depth : Nat) : List Member → List String
  | [] => []
  | .type declaration :: rest =>
    declaration.nestedOutline depth ++ Member.nestedOutlines depth rest
  | .field .. :: rest | .method .. :: rest | .constructor .. :: rest | .initializer .. :: rest =>
    Member.nestedOutlines depth rest

end

def CompilationUnit.nestedOutline (unit : CompilationUnit) : List String :=
  (unit.packageName?.map fun name => s!"package {name}").toList ++
    unit.types.flatMap (TypeDeclaration.nestedOutline 0)

def Token.line (showsLocation : Bool) (token : Token) : String :=
  if showsLocation then
    s!"{token.label} at {token.span.start.line}:{token.span.start.column}"
  else s!"{token.label}: '{token.lexeme}'"

/-! ### The commands -/

namespace Command

def written (lines : List String) : String :=
  String.join (lines.map fun line => line ++ "\n")

def checked (sources : List SourceFile) : Option Outcome := do
  let units ← compile? configuration sources
  let report := mergedReport units
  let summary := if report.entries.isEmpty then "" else s!"{report.summary}\n"
  return .ofSource report.hasErrors (renderAll sources units ++ summary) ""

/-- What a tree looks like in detail is told by `detail`. -/
def parsed (detail : CompilationUnit → String) (configuration : Configuration) (isDetailed : Bool)
    (source : SourceFile) : Option Outcome := do
  let (unit, problems) ← CompilationUnit.parse? configuration source.text
  let lines := if isDetailed then [detail unit] else unit.nestedOutline
  return .withProblems configuration source problems (written lines)

def lexed (showsLocations : Bool) (source : SourceFile) :
    Outcome :=
  let tokens := Token.significant configuration.level source.text
  .withProblems configuration source (Token.problems configuration.level source.text)
    (written (tokens.map (Token.line showsLocations)))

def planned (source : SourceFile) : Option Outcome := do
  let units ← compile? configuration [source]
  return .ofSource (mergedReport units).hasErrors
    (ClassPlan.describe (units.flatMap CompiledUnit.plans))
    (String.join (units.map fun unit => unit.render source))

def onSource (detail : CompilationUnit → String) (command : Command)
    (configuration : Configuration) (source : SourceFile) : Option Outcome :=
  match command.verb with
  | .check => checked configuration [source]
  | .parse => parsed detail configuration (command.options.switches.contains .detailed) source
  | .lex => some <| lexed configuration (command.options.switches.contains .locations) source
  | .plan => planned configuration source

/-- What a command leads to. It is stopped without an outcome by a literal that has no value. -/
def run (find : FileLookup) (detail : CompilationUnit → String) (command : Command) :
    Option Outcome :=
  let configuration := command.options.configuration
  match command.verb with
  | .check =>
    match SourceFile.readAll find (command.path :: command.more) with
    | .ok sources => checked configuration sources
    | .error error => some (.unreadable error.message)
  | .parse | .lex | .plan =>
    match SourceFile.read find command.path with
    | .ok source => command.onSource detail configuration source
    | .error error => some (.unreadable s!"reading {command.path}: {error.message}")

def runArguments (find : FileLookup) (detail : CompilationUnit → String)
    (arguments : List String) : Option Outcome :=
  match read arguments with
  | .ok command => command.run find detail
  | .error error => some (.misused error)

end Command

end JavaFrontEnd
