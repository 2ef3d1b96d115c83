/-
Diagnostics and the reports made of them. A log collects the problems of one source in the order
in which they are found. Finishing a log applies the configured severities, drops what is ignored
and sorts by position; sorting is stable, so problems at one position keep the order in which
they were found.
-/

import JavaFrontEnd.Source

namespace JavaFrontEnd

/-! What a compilation is told beside its sources: the language level, the severities that replace
the usual ones, and the number of syntax errors after which the rest are dropped. -/

/-! The releases of the Java language that the front end knows, and the language features that
arrived with them. A level is a release number together with the proof that it is known, so that
comparing levels is comparing numbers. -/

structure Level where
  release : Nat
  known : 3 ≤ release ∧ release ≤ 21
  deriving DecidableEq

namespace Level

def ofRelease? (release : Nat) : Option Level :=
  if known : 3 ≤ release ∧ release ≤ 21 then some ⟨release, known⟩ else none

def latest : Level :=
  ⟨21, by decide⟩

def all : List Level :=
  (List.range 19).filterMap fun index => ofRelease? (index + 3)

/-- Releases up to 8 are written with the historical `1.` in front. -/
def display (level : Level) : String :=
  if level.release ≤ 8 then s!"1.{level.release}" else s!"{level.release}"

/-- The value of an unsigned decimal number, which may carry a plus sign. -/
def unsigned? (characters : List Char) : Option Nat :=
  let digits := match characters with
    | '+' :: rest => rest
    | other => other
  if digits.isEmpty || !digits.all Text.isDigit then none else some (Text.decimalValue digits)

/-- Reads a level: the release number, with or without the historical `1.` in front, between
blanks. -/
def parse? (text : String) : Option Level :=
  let digits := match (Text.trim text).toList with
    | '1' :: '.' :: rest => rest
    | other => other
  (unsigned? digits).bind ofRelease?

end Level

inductive Feature where
  | assertKeyword
  | varargs
  | generics
  | typeParameters
  | enums
  | forEach
  | staticImports
  | annotations
  | overrideOnInterfaceMethods
  | lambdas
  | underscoreKeyword
  | varLocalInference
  | switchExpressions
  | arrowCases
  | multiConstantCaseLabels
  | textBlocks
  | instanceofPatterns
  | records
  | staticMembersInInnerTypes
  | localEnumsAndInterfaces
  | sealedTypes
  | switchPatterns
  | recordPatterns
  deriving DecidableEq, Repr

namespace Feature

def all : List Feature :=
  [assertKeyword, varargs, generics, typeParameters, enums, forEach, staticImports, annotations,
    overrideOnInterfaceMethods, lambdas, underscoreKeyword, varLocalInference, switchExpressions,
    arrowCases, multiConstantCaseLabels, textBlocks, instanceofPatterns, records,
    staticMembersInInnerTypes, localEnumsAndInterfaces, sealedTypes, switchPatterns,
    recordPatterns]

def since : Feature → Level
  | assertKeyword => ⟨4, by decide⟩
  | varargs | generics | typeParameters | enums | forEach | staticImports | annotations =>
    ⟨5, by decide⟩
  | overrideOnInterfaceMethods => ⟨6, by decide⟩
  | lambdas => ⟨8, by decide⟩
  | underscoreKeyword => ⟨9, by decide⟩
  | varLocalInference => ⟨10, by decide⟩
  | switchExpressions | arrowCases | multiConstantCaseLabels => ⟨14, by decide⟩
  | textBlocks => ⟨15, by decide⟩
  | instanceofPatterns | records | staticMembersInInnerTypes | localEnumsAndInterfaces =>
    ⟨16, by decide⟩
  | sealedTypes => ⟨17, by decide⟩
  | switchPatterns | recordPatterns => ⟨21, by decide⟩

def displayName : Feature → String
  | assertKeyword => "assert"
  | varargs => "varargs"
  | generics => "parameterized types"
  | typeParameters => "type parameters"
  | enums => "enum declarations"
  | forEach => "'for each' statements"
  | staticImports => "static imports"
  | annotations => "annotations"
  | overrideOnInterfaceMethods => "@Override on interface methods"
  | lambdas => "Lambda expressions"
  | underscoreKeyword => "'_' keyword"
  | varLocalInference => "'var' local variable type inference"
  | switchExpressions => "Switch Expressions"
  | arrowCases => "Arrow in case statement"
  | multiConstantCaseLabels => "Multi-constant case labels"
  | textBlocks => "Text Blocks"
  | instanceofPatterns => "Pattern Matching in instanceof Expressions"
  | records => "Records"
  | staticMembersInInnerTypes => "Static members in inner types"
  | localEnumsAndInterfaces => "Local enums and interfaces"
  | sealedTypes => "Sealed Types"
  | switchPatterns => "Pattern Matching in Switch"
  | recordPatterns => "Record Patterns"

/-- The message for a feature that is used below its level. The features of release 1.5 and the
first switch features have wordings of their own. -/
def unavailableMessage (feature : Feature) : String :=
  match feature with
  | varargs | generics | typeParameters | enums | forEach | staticImports | annotations =>
    s!"Syntax error, {feature.displayName} are only available if source level is 1.5 or greater"
  | lambdas => "Lambda expressions are allowed only at source level 1.8 or above"
  | switchExpressions => "Switch Expressions are supported from Java 14 onwards only"
  | arrowCases | multiConstantCaseLabels =>
    s!"{feature.displayName} supported from Java 14 onwards only"
  | _ =>
    s!"The Java feature '{feature.displayName}' is only available with source level " ++
      s!"{feature.since.display} and above"

end Feature

def Level.allows (level : Level) (feature : Feature) : Bool :=
  feature.since.release ≤ level.release

/-! Kinds of problems. Every diagnostic carries a category, whose name is stable and can be used to
raise, lower or silence all problems of that kind, and a severity. -/

inductive Severity where
  | error
  | warning
  | info
  deriving DecidableEq, Repr

def Severity.display : Severity → String
  | error => "ERROR"
  | warning => "WARNING"
  | info => "INFO"

inductive Category where
  | syntaxError
  | unterminatedLiteral
  | featureNotAvailable
  | reservedKeywordAsIdentifier
  | duplicateMember
  | duplicateMemberOrAlreadyDefinedImplicitly
  | duplicateLocalVariable
  | illegalModifier
  | illegalModifierForEnumConstant
  | unresolvedName
  | undefinedMethod
  | illegalStaticReferenceInInitializer
  | staticContextViolation
  | forwardReference
  | finalFieldAssignment
  | finalLocalAssignment
  | dominatedCaseLabel
  | duplicateCaseLabel
  | duplicateDefaultCase
  | illegalDefaultPlacement
  | multiplePatternsInLabel
  | mixedPatternAndConstantLabels
  | totalPatternWithDefault
  | missingDefaultCase
  | switchExpressionMustHaveDefault
  | enhancedSwitchMustBeExhaustive
  | illegalFallThroughToPattern
  | nullWithNonTypePatternNotAllowed
  | guardRequiresEffectivelyFinalVariable
  | falseConstantGuard
  | switchArmCompletesNormally
  | capturedVariableNotEffectivelyFinal
  | cannotOverrideFinalMethod
  | missingOverride
  | mustImplementAbstractMethod
  | abstractMethodInEnumWithoutBodies
  | cannotInstantiate
  | illegalEnumSuperCall
  | illegalStaticMemberInInnerType
  | ambiguousMethod
  | inapplicableMethod
  | typeMismatch
  | rawTypeUsage
  | uncheckedRawInvocation
  | deprecatedUsage
  deriving DecidableEq, Repr

namespace Category

def all : List Category :=
  (List.range (deprecatedUsage.ctorIdx + 1)).map ofNat

def name : Category → String
  | syntaxError => "SyntaxError"
  | unterminatedLiteral => "UnterminatedLiteral"
  | featureNotAvailable => "FeatureNotAvailable"
  | reservedKeywordAsIdentifier => "ReservedKeywordAsIdentifier"
  | duplicateMember => "DuplicateMember"
  | duplicateMemberOrAlreadyDefinedImplicitly => "DuplicateMemberOrAlreadyDefinedImplicitly"
  | duplicateLocalVariable => "DuplicateLocalVariable"
  | illegalModifier => "IllegalModifier"
  | illegalModifierForEnumConstant => "IllegalModifierForEnumConstant"
  | unresolvedName => "UnresolvedName"
  | undefinedMethod => "UndefinedMethod"
  | illegalStaticReferenceInInitializer => "IllegalStaticReferenceInInitializer"
  | staticContextViolation => "StaticContextViolation"
  | forwardReference => "ForwardReference"
  | finalFieldAssignment => "FinalFieldAssignment"
  | finalLocalAssignment => "FinalLocalAssignment"
  | dominatedCaseLabel => "DominatedCaseLabel"
  | duplicateCaseLabel => "DuplicateCaseLabel"
  | duplicateDefaultCase => "DuplicateDefaultCase"
  | illegalDefaultPlacement => "IllegalDefaultPlacement"
  | multiplePatternsInLabel => "MultiplePatternsInLabel"
  | mixedPatternAndConstantLabels => "MixedPatternAndConstantLabels"
  | totalPatternWithDefault => "TotalPatternWithDefault"
  | missingDefaultCase => "MissingDefaultCase"
  | switchExpressionMustHaveDefault => "SwitchExpressionMustHaveDefault"
  | enhancedSwitchMustBeExhaustive => "EnhancedSwitchMustBeExhaustive"
  | illegalFallThroughToPattern => "IllegalFallThroughToPattern"
  | nullWithNonTypePatternNotAllowed => "NullWithNonTypePatternNotAllowed"
  | guardRequiresEffectivelyFinalVariable => "GuardRequiresEffectivelyFinalVariable"
  | falseConstantGuard => "FalseConstantGuard"
  | switchArmCompletesNormally => "SwitchArmCompletesNormally"
  | capturedVariableNotEffectivelyFinal => "CapturedVariableNotEffectivelyFinal"
  | cannotOverrideFinalMethod => "CannotOverrideFinalMethod"
  | missingOverride => "MissingOverrideAnnotation"
  | mustImplementAbstractMethod => "MustImplementAbstractMethod"
  | abstractMethodInEnumWithoutBodies => "AbstractMethodInEnumWithoutBodies"
  | cannotInstantiate => "CannotInstantiate"
  | illegalEnumSuperCall => "IllegalEnumSuperCall"
  | illegalStaticMemberInInnerType => "IllegalStaticMemberInInnerType"
  | ambiguousMethod => "AmbiguousMethod"
  | inapplicableMethod => "InapplicableMethod"
  | typeMismatch => "TypeMismatch"
  | rawTypeUsage => "RawTypeUsage"
  | uncheckedRawInvocation => "UncheckedRawInvocation"
  | deprecatedUsage => "DeprecatedUsage"

/-- The severity of a category that is not configured; `none` for a category that is silent
unless someone asks for it. -/
def defaultSeverity : Category → Option Severity
  | reservedKeywordAsIdentifier | missingDefaultCase | rawTypeUsage | uncheckedRawInvocation
  | deprecatedUsage => some .warning
  | missingOverride => none
  | _ => some .error

def parse? (text : String) : Option Category :=
  let wanted := Text.lowerAscii (Text.trim text)
  all.find? fun category => Text.lowerAscii category.name == wanted

end Category

inductive SeverityOverride where
  | report (severity : Severity)
  | ignore
  deriving DecidableEq, Repr

def SeverityOverride.severity? : SeverityOverride → Option Severity
  | report severity => some severity
  | ignore => none

inductive ConfigurationError where
  | invalidLevel (text : String)
  | unknownCategory (text : String)
  deriving DecidableEq, Repr

/-- The wording of a configuration error; the offending text is repeated as it was given. -/
def ConfigurationError.message : ConfigurationError → String
  | invalidLevel text => s!"Invalid Java source level: {text}"
  | unknownCategory text => s!"Unknown diagnostic category: {text}"

structure Configuration where
  level : Level := Level.latest
  preview : Bool := false
  /-- Severities by category; of two entries for a category the first counts. -/
  overrides : List (Category × SeverityOverride) := []
  maxSyntaxErrors : Nat := 100

namespace Configuration

variable (configuration : Configuration)

def withOverride (category : Category) (override : SeverityOverride) : Configuration :=
  { configuration with overrides := (category, override) :: configuration.overrides }

def withMaxSyntaxErrors (count : Nat) : Configuration :=
  { configuration with maxSyntaxErrors := max count 1 }

def override? (category : Category) : Option SeverityOverride :=
  (configuration.overrides.find? fun entry => entry.1 == category).map Prod.snd

def severity? (category : Category) : Option Severity :=
  match configuration.override? category with
  | some override => override.severity?
  | none => category.defaultSeverity

def allows (feature : Feature) : Bool :=
  configuration.level.allows feature

end Configuration

def Level.read (text : String) : Except ConfigurationError Level :=
  match Level.parse? text with
  | some level => .ok level
  | none => .error (.invalidLevel text)

def Category.read (text : String) : Except ConfigurationError Category :=
  match Category.parse? text with
  | some category => .ok category
  | none => .error (.unknownCategory text)

structure Diagnostic where
  severity : Severity
  category : Category
  message : String
  span : Span
  /-- The name of the source in reports; empty until a log sets it. -/
  file : String := ""
  deriving DecidableEq, Repr

namespace Diagnostic

/-- A problem with the usual severity of its category. A category that is silent by default
yields a warning, which only an override can bring to light. -/
def new (category : Category) (message : String) (span : Span) : Diagnostic :=
  { severity := category.defaultSeverity.getD .warning, category, message, span }

def error (category : Category) (message : String) (span : Span) : Diagnostic :=
  { severity := .error, category, message, span }

def warning (category : Category) (message : String) (span : Span) : Diagnostic :=
  { severity := .warning, category, message, span }

def display (diagnostic : Diagnostic) : String :=
  s!"{diagnostic.severity.display} {diagnostic.file}:{diagnostic.span.start.display} " ++
    s!"[{diagnostic.category.name}] {diagnostic.message}"

def compare (first second : Diagnostic) : Ordering :=
  (Ord.compare first.file second.file).then <|
    (Ord.compare first.span.start.line second.span.start.line).then
      (Ord.compare first.span.start.column second.span.start.column)

def inFile (diagnostic : Diagnostic) (file : String) : Diagnostic :=
  if diagnostic.file.isEmpty then { diagnostic with file } else diagnostic

/-- The problem with the severity that the configuration gives it, or nothing when it is to be
dropped. Only an override changes the severity that a problem was found with. -/
def configured? (configuration : Configuration) (diagnostic : Diagnostic) : Option Diagnostic :=
  match configuration.override? diagnostic.category with
  | some override =>
    override.severity?.map fun severity => { diagnostic with severity }
  | none => if diagnostic.category.defaultSeverity.isNone then none else some diagnostic

end Diagnostic

structure Report where
  entries : List Diagnostic
  deriving DecidableEq, Repr

namespace Report

def ofUnsorted (entries : List Diagnostic) : Report :=
  ⟨entries.mergeSort fun first second => !(first.compare second).isGT⟩

def finish (configuration : Configuration) (file : String) (found : List Diagnostic) : Report :=
  ofUnsorted ((found.map (·.inFile file)).filterMap (·.configured? configuration))

def merge (reports : List Report) : Report :=
  ofUnsorted (reports.flatMap entries)

def count (report : Report) (severity : Severity) : Nat :=
  report.entries.countP fun diagnostic => diagnostic.severity == severity

def hasErrors (report : Report) : Bool :=
  report.entries.any fun diagnostic => diagnostic.severity == .error

def counted (number : Nat) (noun : String) : String :=
  s!"{number} {noun}" ++ if number = 1 then "" else "s"

/-- The line that counts the problems by severity; severities that do not occur are left out. -/
def summary (report : Report) : String :=
  let part (severity : Severity) (noun : String) : List String :=
    let number := report.count severity
    if number = 0 then [] else [counted number noun]
  let parts := part .error "error" ++ part .warning "warning" ++ part .info "info"
  let total := counted report.entries.length "problem"
  let listed := ", ".intercalate parts
  s!"{total} ({listed})"

end Report

/-! The written form of a report. Every problem is numbered and shown with the source line it starts
on, trimmed, and a row of carets below the part of the line that it is about. -/

/-- Source texts by file name; of two texts for a name the last one counts. -/
structure SourceTexts where
  entries : List (String × String) := []

namespace SourceTexts

def get? (texts : SourceTexts) (file : String) : Option String :=
  (texts.entries.reverse.find? fun entry => entry.1 == file).map Prod.snd

end SourceTexts

namespace Listing

def separator : String :=
  "----------"

def isLineEnd (character : Char) : Bool :=
  character = '\r' || character = '\n'

def isIndent (character : Char) : Bool :=
  character = ' ' || character = '\t'

/-- The trimmed line and the row of carets under the columns of a span. Tabs are kept in the row,
so that the carets stand under tab-indented code. -/
def marked (line : List Char) (span : Span) : List Char × List Char :=
  let characters := (line.reverse.dropWhile isLineEnd).reverse
  let leading := (characters.takeWhile isIndent).length
  let shown := Text.trimRight (characters.drop leading)
  let trailingEnd := leading + shown.length
  let startColumn := span.start.column - 1
  let stopColumn :=
    if span.stop.line = span.start.line ∧ span.start.column < span.stop.column then
      span.stop.column - 1
    else if span.start.line < span.stop.line then trailingEnd
    else startColumn + 1
  let start := max startColumn leading - leading
  let stop := max (min stopColumn (max trailingEnd (startColumn + 1)) - leading) (start + 1)
  let under := (shown.take start).map fun character => if character = '\t' then '\t' else ' '
  let padding := List.replicate (start - under.length) ' '
  (shown, under ++ padding ++ List.replicate (stop - start) '^')

/-- One numbered problem with the separator after it. A problem on a line that the text does not
have is shown without a line. -/
def entry (number : Nat) (diagnostic : Diagnostic) (source : Option String) : String :=
  let line := diagnostic.span.start.line
  let header := s!"{number}. {diagnostic.severity.display} in {diagnostic.file} (at line {line})\n"
  let excerpt := match source.bind fun text => (Text.lines text.toList)[line - 1]? with
    | some characters =>
      let (shown, carets) := marked characters diagnostic.span
      s!"\t{String.ofList shown}\n\t{String.ofList carets}\n"
    | none => ""
  s!"{header}{excerpt}{diagnostic.message}\n{separator}\n"

def entriesFrom (texts : SourceTexts) : Nat → List Diagnostic → List String
  | _, [] => []
  | number, diagnostic :: rest =>
    entry number diagnostic (texts.get? diagnostic.file) :: entriesFrom texts (number + 1) rest

end Listing

def Report.render (report : Report) (texts : SourceTexts) : String :=
  if report.entries.isEmpty then ""
  else s!"{Listing.separator}\n" ++ String.join (Listing.entriesFrom texts 1 report.entries)

end JavaFrontEnd
