/-
The rules for the cases of a switch. Each rule is a function from a switch to the problems it finds;
they are reported rule by rule.
-/

import JavaFrontEnd.Constant
import JavaFrontEnd.Diagnostic
import JavaFrontEnd.Types.Conversion

namespace JavaFrontEnd

/-! What the rules for switches need to know of a switch: what each element of each label selects,
how labels are guarded, and where control can fall from one case into the next. -/

inductive CaseSelector where
  | default
  | null
  /-- A constant of a type, with its value if it is known, and the owner and the name of an enum
  constant. -/
  | constant (type : Ty) (value : Option Constant) (enumConstant : Option (String × String))
  | typePattern (type : Ty)
  | recordPattern (type : Ty)

namespace CaseSelector

def patternType? : CaseSelector → Option Ty
  | .typePattern type | .recordPattern type => some type
  | .default | .null | .constant .. => none

def isDefault : CaseSelector → Bool
  | .default => true
  | _ => false

def isNull : CaseSelector → Bool
  | .null => true
  | _ => false

def isPattern (selector : CaseSelector) : Bool :=
  selector.patternType?.isSome

end CaseSelector

structure CaseGuard where
  span : Span
  constant : Option Bool

structure LabelSummary where
  selectors : List (CaseSelector × Span)
  guard : Option CaseGuard

structure CaseSummary where
  labels : List LabelSummary
  isRule : Bool
  isBlock : Bool
  completes : Bool
  span : Span

structure SwitchSummary where
  isExpression : Bool
  selector : Ty
  keywordSpan : Span
  cases : List CaseSummary

/-- One element of one label, with what its label and its case say about it. -/
structure CaseEntry where
  selector : CaseSelector
  span : Span
  /-- The number of the label among all labels of the switch. -/
  label : Nat
  guard : Option CaseGuard
  isRule : Bool
  /-- Control can come from above: from another label of the case or out of the case before. -/
  isReachedFromAbove : Bool

namespace CaseEntry

/-- Whatever the element selects is taken: there is no guard, or it always holds. -/
def isUnguarded (entry : CaseEntry) : Bool :=
  match entry.guard with
  | none => true
  | some guard => guard.constant == some true

def unguardedType? (entry : CaseEntry) : Option Ty :=
  match entry.selector with
  | .typePattern type => if entry.isUnguarded then some type else none
  | _ => none

def isTotal (path : ClassPath) (selector : Ty) (entry : CaseEntry) : Bool :=
  entry.unguardedType?.any fun type =>
    path.isSubtype selector.boxed.erasure type.erasure == some true

end CaseEntry

/-- The entries of the labels of one case, the first of which has a number. `isFirst` tells that no
label of the case comes before. -/
def CaseSummary.entriesOf (case : CaseSummary) (fallsInto : Bool) :
    List LabelSummary → Nat → Bool → List CaseEntry
  | [], _, _ => []
  | label :: rest, number, isFirst =>
    let entries : List CaseEntry := label.selectors.map fun (selector, span) =>
      { selector, span, label := number, guard := label.guard, isRule := case.isRule
        isReachedFromAbove := !isFirst || fallsInto }
    entries ++ case.entriesOf fallsInto rest (number + 1) false

namespace SwitchSummary

/-- The entries of cases, in the order of the text. `fallsInto` tells that control can fall out of
the case before. -/
def entriesOf : List CaseSummary → Nat → Bool → List CaseEntry
  | [], _, _ => []
  | case :: rest, number, fallsInto =>
    case.entriesOf fallsInto case.labels number true ++
      entriesOf rest (number + case.labels.length) case.completes

def entries (summary : SwitchSummary) : List CaseEntry :=
  entriesOf summary.cases 0 false

end SwitchSummary

/-- What labels select: erased types of patterns, and constants of enums by owner and name. -/
structure CoveredValues where
  patterns : List Ty
  constants : List (String × String)

namespace CoveredValues

def selects (covered : CoveredValues) (path : ClassPath) (key : String) : Bool :=
  covered.patterns.any fun pattern => path.isSubtype (.ofKey key) pattern == some true

/-- All of a list of classes are covered. The number bounds how many classes are looked at. -/
def coversAll (covered : CoveredValues) (path : ClassPath) : Nat → List String → Bool
  | _, [] => true
  | 0, _ :: _ => false
  | steps + 1, key :: rest =>
    if covered.selects path key then covered.coversAll path steps rest
    else match path.type? key with
      | none => false
      | some type =>
        if type.isEnum && !type.enumConstants.isEmpty then
          type.enumConstants.all (fun name => covered.constants.contains (key, name)) &&
            covered.coversAll path steps rest
        else if type.isSealed && !type.permits.isEmpty && (type.isAbstract || type.isInterface) then
          covered.coversAll path steps (type.permits ++ rest)
        else false

def covers (covered : CoveredValues) (path : ClassPath) (key : String) : Bool :=
  covered.coversAll path hierarchySteps [key]

end CoveredValues

namespace SwitchSummary

/-- What the labels of a switch select for certain: guarded patterns do not count. -/
def coveredValues (summary : SwitchSummary) : CoveredValues where
  patterns := summary.entries.filterMap fun entry =>
    if entry.isUnguarded then entry.selector.patternType?.map Ty.erasure else none
  constants := summary.entries.filterMap fun entry =>
    match entry.selector with
    | .constant _ _ enumConstant => enumConstant
    | _ => none

/-- The labels leave no value out; undecided when too little is known of the selector. -/
def isExhaustive (summary : SwitchSummary) (path : ClassPath) : Option Bool :=
  if summary.selector.isIndeterminate then none
  else match summary.selector with
    | .class key _ =>
      if path.knows key then some (summary.coveredValues.covers path key) else none
    | other => some (summary.coveredValues.patterns.any fun pattern =>
        path.isSubtype other.boxed.erasure pattern == some true)

end SwitchSummary

/-! What can be wrong with the cases of a switch. -/

inductive SwitchProblem where
  | duplicateCase
  | nullWithPattern
  | dominated
  | totalPatternWithDefault
  | fallThroughToPattern
  | falseGuard
  | armCompletes
  /-- A switch expression leaves values out; `isStructured` tells that its values could be
  listed. -/
  | expressionIncomplete (isStructured : Bool)
  | statementIncomplete
  | missingDefault
  deriving DecidableEq, Repr

namespace SwitchProblem

def category : SwitchProblem → Category
  | duplicateCase => .duplicateCaseLabel
  | nullWithPattern => .nullWithNonTypePatternNotAllowed
  | dominated => .dominatedCaseLabel
  | totalPatternWithDefault => .totalPatternWithDefault
  | fallThroughToPattern => .illegalFallThroughToPattern
  | falseGuard => .falseConstantGuard
  | armCompletes => .switchArmCompletesNormally
  | expressionIncomplete _ => .switchExpressionMustHaveDefault
  | statementIncomplete => .enhancedSwitchMustBeExhaustive
  | missingDefault => .missingDefaultCase

def message : SwitchProblem → String
  | duplicateCase => "Duplicate case"
  | nullWithPattern =>
    "A null case label and patterns can co-exist only if the pattern is a type pattern"
  | dominated => "This case label is dominated by one of the preceding case label"
  | totalPatternWithDefault =>
    "Switch case cannot have both unconditional pattern and default label"
  | fallThroughToPattern => "Illegal fall-through to a pattern"
  | falseGuard => "A case label guard cannot have a constant expression with value as 'false'"
  | armCompletes =>
    "A switch labeled block in a switch expression should not complete normally"
  | expressionIncomplete true => "A Switch expression should cover all possible values"
  | expressionIncomplete false => "A switch expression should have a default case"
  | statementIncomplete =>
    "An enhanced switch statement should be exhaustive; a default label expected"
  | missingDefault => "The switch statement should have a default case"

def diagnostic (problem : SwitchProblem) (span : Span) : Diagnostic :=
  .new problem.category problem.message span

end SwitchProblem

inductive CaseKey where
  | enum (owner name : String)
  | string (value : String)
  | integer (value : Int)
  | other (text : String)
  deriving DecidableEq, Repr

def CaseSelector.key? : CaseSelector → Option CaseKey
  | .constant _ _ (some (owner, name)) => some (.enum owner name)
  | .constant _ (some (.string value)) none => some (.string value)
  | .constant _ (some value) none =>
    some (match value.integer? with
      | some number => .integer number
      | none => .other value.display)
  | _ => none

abbrev SwitchProblems := List (SwitchProblem × Span)

namespace SwitchSummary

variable (summary : SwitchSummary) (path : ClassPath) (configuration : Configuration)

/-- A constant is selected once. `seen` are the keys of the entries before. -/
def duplicateCases : List CaseKey → List CaseEntry → SwitchProblems
  | _, [] => []
  | seen, entry :: rest =>
    match entry.selector.key? with
    | none => duplicateCases seen rest
    | some key =>
      if seen.contains key then (.duplicateCase, entry.span) :: duplicateCases seen rest
      else duplicateCases (key :: seen) rest

/-- In one label with `null` only an unguarded type pattern may stand. -/
def nullCombinations (entries : List CaseEntry) : SwitchProblems :=
  entries.filterMap fun entry =>
    let withNull := entries.any fun other => other.label == entry.label && other.selector.isNull
    let isOffending := match entry.selector with
      | .recordPattern _ => true
      | .typePattern _ => entry.guard.isSome
      | _ => false
    if withNull && isOffending then some (.nullWithPattern, entry.span) else none

def dominates (selector : Ty) (earlier later : CaseEntry) : Bool :=
  let selectsAll (type : Ty) : Bool :=
    earlier.unguardedType?.any fun pattern => path.isSubtype type pattern.erasure == some true
  match later.selector with
  | .default => false
  | .null => earlier.isTotal path selector
  | .constant type _ _ => selectsAll type.boxed.erasure
  | .typePattern type | .recordPattern type =>
    selectsAll type.erasure || earlier.selector.isDefault && earlier.label != later.label

/-- No entry is dominated by one before it. `earlier` are the entries before, latest first. -/
def dominatedCases (path : ClassPath) (selector : Ty) :
    List CaseEntry → List CaseEntry → SwitchProblems
  | _, [] => []
  | earlier, entry :: rest =>
    let later := dominatedCases path selector (entry :: earlier) rest
    if earlier.any fun other => dominates path selector other entry then
      (.dominated, entry.span) :: later
    else later

/-- A default and a pattern that matches everything exclude each other; the later of the first of
each is reported. -/
def totalWithDefault (selector : Ty) (entries : List CaseEntry) :
    SwitchProblems :=
  let default := entries.findIdx? fun entry => entry.selector.isDefault
  let total := entries.findIdx? fun entry => entry.isTotal path selector
  match default, total with
  | some first, some second =>
    (entries[max first second]?.map fun entry =>
      (SwitchProblem.totalPatternWithDefault, entry.span)).toList
  | _, _ => []

/-- Control must not fall into a case whose pattern binds variables. -/
def fallThroughs (entries : List CaseEntry) : SwitchProblems :=
  entries.filterMap fun entry =>
    if entry.selector.isPattern && !entry.isRule && entry.isReachedFromAbove then
      some (.fallThroughToPattern, entry.span)
    else none

/-- A guard may not be always false; it is reported once. `reported` are the offsets of the guards
reported before. -/
def falseGuards : List Nat → List CaseEntry → SwitchProblems
  | _, [] => []
  | reported, entry :: rest =>
    match entry.guard with
    | some guard =>
      let offset := guard.span.start.offset
      if guard.constant == some false && !reported.contains offset then
        (.falseGuard, guard.span) :: falseGuards (offset :: reported) rest
      else falseGuards reported rest
    | none => falseGuards reported rest

/-- The arms of a switch expression must yield a value: a block after an arrow must not complete
normally, nor may the last group of statements. -/
def completingArms (isExpression : Bool) : List CaseSummary → SwitchProblems
  | [] => []
  | case :: rest =>
    let isOffending := case.completes && if case.isRule then case.isBlock else rest.isEmpty
    let later := completingArms isExpression rest
    if isExpression && isOffending then (.armCompletes, case.span) :: later else later

/-- A type of selector that switches had before they had patterns. -/
def isPlainSelector : Ty → Bool
  | .primitive kind => kind.isIntegral
  | .class key _ =>
    ["java.lang.String", "java.lang.Integer", "java.lang.Short", "java.lang.Byte",
      "java.lang.Character"].contains key || (path.type? key).any KnownType.isEnum
  | _ => true

def selectorType? : Option KnownType :=
  summary.selector.key?.bind path.type?

/-- A switch that must be exhaustive though it is a statement: it has patterns or `null`, or its
selector is of a type that only patterns made possible. -/
def isEnhanced :
    Bool :=
  (summary.entries.any fun entry => entry.selector.isPattern || entry.selector.isNull) ||
    configuration.allows .switchPatterns && !isPlainSelector path summary.selector

/-- A switch without a default has to be exhaustive, or should say that it is not meant to be. -/
def missingCases :
    SwitchProblems :=
  let exhaustive := summary.isExhaustive path
  let known := summary.selectorType? path
  let problem : Option SwitchProblem :=
    if summary.entries.any fun entry => entry.selector.isDefault then none
    else if summary.isExpression then
      if exhaustive == some false then
        some (.expressionIncomplete (known.any fun type => type.isEnum || type.isSealed))
      else none
    else if summary.isEnhanced path configuration then
      if exhaustive == some false then some .statementIncomplete else none
    else if exhaustive == some true && known.any KnownType.isEnum then none
    else some .missingDefault
  (problem.map fun problem => (problem, summary.keywordSpan)).toList

def problems :
    SwitchProblems :=
  let entries := summary.entries
  duplicateCases [] entries ++ nullCombinations entries ++
    dominatedCases path summary.selector [] entries ++
    totalWithDefault path summary.selector entries ++ fallThroughs entries ++
    falseGuards [] entries ++ completingArms summary.isExpression summary.cases ++
    summary.missingCases path configuration

end SwitchSummary

end JavaFrontEnd
