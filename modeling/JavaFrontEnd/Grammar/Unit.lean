/-
Compilation units, and the circle of the grammar. The parsers of the nonterminals are built from
each other level by level; the number of levels is bounded by the tokens, since every circle of
productions reads a token or opens a level of nesting, of which only `maxDepth` may be open.
-/

import JavaFrontEnd.Grammar.Statement

namespace JavaFrontEnd.Grammar

variable (self : Recursion)

def production : Recursion
  | .type => writtenType self
  | .annotationValue => do
    let (_, _, span) ← annotationParts self
    pure span
  | .expression => expression self
  | .conditional => conditional self
  | .operation precedence => operation self precedence
  | .unary => unary self
  | .pattern => pattern self
  | .arrayInitializer => arrayInitializer self
  | .block => block self
  | .statement => statement self
  | .switch => switchParts self
  | .members owner kind => members self owner kind

/-- The parsers of all nonterminals, with productions nested to a number of levels. -/
def levels : Nat → Recursion
  | 0 => fun _ => do reject .nestedTooDeeply (← here)
  | count + 1 => fun nonterminal => production (levels count) nonterminal

def recursion : Recursion :=
  fun nonterminal environment state => levels environment.bound nonterminal environment state

/-! ### Units -/

def skipToDeclaration : Parser Unit :=
  iterate () fun _ => do
    match (← peek).kind with
    | .endOfInput | .class | .interface | .enum | .public | .abstract | .final => pure (.done ())
    | .semicolon | .rightBrace =>
      let _ ← advance
      pure (.done ())
    | _ =>
      let _ ← advance
      pure (.again ())

def packageDeclaration : Parser PackageDeclaration := do
  let annotations ← annotations self
  let start := (← expect .package "PackageDeclaration").span
  let name ← qualifiedName
  let _ ← expect .semicolon "PackageDeclaration"
  pure { name, annotations, span := start.cover (← lastSpan) }

def importedName : Parser (String × Bool) := do
  let (first, _) ← identifier
  iterate first fun name => do
    if ← accept .dot then
      if ← accept .star then pure (.done (name, true))
      else
        let (part, _) ← identifier
        pure (.again s!"{name}.{part}")
    else pure (.done (name, false))

def importRest (start : Span) : Parser ImportDeclaration := do
  let static ← accept .static
  if static then needFeature .staticImports (← lastSpan)
  let (name, wildcard) ← importedName
  let _ ← expect .semicolon "ImportDeclaration"
  pure { name, static, wildcard, span := start.cover (← lastSpan) }

def importDeclaration : Parser ImportDeclaration := do
  let word ← expect .import "ImportDeclaration"
  importRest word.span

def optionalPackage : Parser (Option PackageDeclaration) := do
  if (← check .package) || ((← check .at) && (← lookahead Lookahead.packageFollows)) then
    match ← Parser.attempt (packageDeclaration self) with
    | some declaration => pure (some declaration)
    | none =>
      skipToDeclaration
      pure none
  else pure none

def imports : Parser (List ImportDeclaration) :=
  iterate [] fun found => do
    if ← check .import then
      match ← Parser.attempt importDeclaration with
      | some declaration => pure (.again (declaration :: found))
      | none =>
        skipToDeclaration
        pure (.again found)
    else pure (.done found.reverse)

def topLevelType? : Parser (Option TypeDeclaration) := do
  let start ← here
  let (modifiers, annotations) ← modifiers self
  match ← typeDeclaration? self { start, modifiers, annotations } with
  | some declaration => pure (some declaration)
  | none =>
    let token ← peek
    if token.kind = .endOfInput then pure none
    else reject (.delete token.lexeme) token.span

def topLevelType (self : Recursion) : Parser TypeDeclaration := do
  match ← topLevelType? self with
  | some declaration => pure declaration
  | none => Parser.fail

def topLevelTurn (found : List TypeDeclaration) :
    Parser (Turn (List TypeDeclaration) (List TypeDeclaration)) := do
  if ← atEnd then pure (.done found.reverse)
  else if ← exhausted then pure (.done found.reverse)
  else if ← accept .semicolon then pure (.again found)
  else
    match ← recovering (topLevelType self) skipToDeclaration with
    | some next => pure (.again (next :: found))
    | none => pure (.again found)

def topLevelTypes : Parser (List TypeDeclaration) :=
  iterate [] (topLevelTurn self)

def unitParts :
    Parser (Option PackageDeclaration × List ImportDeclaration × List TypeDeclaration × Span) := do
  let start ← here
  let package ← optionalPackage self
  let imported ← imports
  let types ← topLevelTypes self
  pure (package, imported, types, start.cover (← lastSpan))

/-- Tokens that end with an end mark; where it is missing it is put after the last token. -/
def withEnd (tokens : List Token) : List Token :=
  match tokens.getLast? with
  | some last =>
    if last.kind = .endOfInput then tokens else tokens ++ [Token.endOfInput last.span.stop]
  | none => [Token.endOfInput .nowhere]

def State.initial (tokens : List Token) : State where
  current := (withEnd tokens).headD (Token.endOfInput .nowhere)
  following := (withEnd tokens).tail
  previous := none
  consumed := 0
  found := []
  reported := []
  abandoned := []
  nextId := 0
  steps := 0
  usedUp := false
  levels := {}
  lambdas := true
  labels := {}
  annotationArguments := #[]
  stopped := false

def boundFor (count : Nat) : Nat :=
  maxSteps + 8 * (count + maxDepth + 2)

end JavaFrontEnd.Grammar

namespace JavaFrontEnd

open Grammar

variable (configuration : Configuration)

/-- The unit that a sequence of tokens spells, and the problems found in it, in the order in which
they were found. What cannot be understood is reported and left out. A literal without a value is
taken for an empty reference here. -/
def CompilationUnit.ofTokens (tokens : List Token) :
    CompilationUnit × List Diagnostic :=
  let initial := State.initial tokens
  let environment : Environment := { configuration, bound := boundFor tokens.length }
  match unitParts recursion environment initial with
  | (some (package, imports, types, span), final) =>
    ({ package, imports, types, span, annotationArguments := final.annotationArguments },
      final.found.reverse)
  | (none, final) =>
    ({ package := none, imports := [], types := [], span := initial.current.span,
        annotationArguments := final.annotationArguments },
      final.found.reverse)

/-- The unit that tokens spell, and its problems, if every literal that is read has a value. -/
def CompilationUnit.ofTokens? (tokens : List Token) : Option (CompilationUnit × List Diagnostic) :=
  let environment : Environment := { configuration, bound := boundFor tokens.length }
  if (unitParts recursion environment (State.initial tokens)).2.stopped then none
  else some (ofTokens configuration tokens)

/-- The unit that a source text spells, and the problems found in it; those of single tokens come
first. -/
def CompilationUnit.parse (source : String) :
    CompilationUnit × List Diagnostic :=
  let level := configuration.level
  let (unit, problems) := ofTokens configuration (Token.significant level source)
  (unit, Token.problems level source ++ problems)

/-- The unit that a source text spells, and its problems, if every literal that is read has a
value. -/
def CompilationUnit.parse? (source : String) : Option (CompilationUnit × List Diagnostic) := do
  let level := configuration.level
  let (unit, problems) ← ofTokens? configuration (Token.significant level source)
  return (unit, Token.problems level source ++ problems)

end JavaFrontEnd
