/-
What the names of a unit denote. The record is filled by one walk over the unit: scopes and
symbols by number, and for names, declarations and written types what they stand for. Entries are
found by the number of an expression or by an offset of the text; later entries come first and
hide earlier ones.
-/

import JavaFrontEnd.Declared
import JavaFrontEnd.Diagnostic

namespace JavaFrontEnd

/-! What can be wrong with a name. The wording of every problem is here; where it is reported is
decided by the walk that finds it. -/

inductive NameProblem where
  | unresolvedType (name : String)
  | unresolvedVariable (name : String)
  /-- A name before a dot that is no variable, type or package. -/
  | unresolvedQualifier (name : String)
  | staticTypeVariable (name : String)
  | staticField (name : String)
  | staticThis
  | staticSuper
  | rawType (name generic : String)
  | deprecatedType (name : String)
  | duplicateParameter (name : String)
  | duplicateVariable (name : String)
  | variableInLambda (name : String)
  | parameterOfLambda (name : String)
  /-- A static field of an enum is used while one of its constants is made. -/
  | enumFieldInInitializer (owner name : String)
  | forwardReference
  /-- A captured variable is not final, at a level that asks for the word. -/
  | capturedNotFinal (name : String)
  | capturedNotEffectivelyFinal (name : String)
  | guardNotEffectivelyFinal (name : String)
  deriving DecidableEq, Repr

namespace NameProblem

def category : NameProblem → Category
  | unresolvedType _ | unresolvedVariable _ | unresolvedQualifier _ => .unresolvedName
  | staticTypeVariable _ | staticField _ | staticThis | staticSuper => .staticContextViolation
  | rawType .. => .rawTypeUsage
  | deprecatedType _ => .deprecatedUsage
  | duplicateParameter _ | duplicateVariable _ | variableInLambda _ | parameterOfLambda _ =>
    .duplicateLocalVariable
  | enumFieldInInitializer .. => .illegalStaticReferenceInInitializer
  | forwardReference => .forwardReference
  | capturedNotFinal _ | capturedNotEffectivelyFinal _ => .capturedVariableNotEffectivelyFinal
  | guardNotEffectivelyFinal _ => .guardRequiresEffectivelyFinalVariable

def message : NameProblem → String
  | unresolvedType name => s!"{name} cannot be resolved to a type"
  | unresolvedVariable name => s!"{name} cannot be resolved to a variable"
  | unresolvedQualifier name => s!"{name} cannot be resolved"
  | staticTypeVariable name => s!"Cannot make a static reference to the non-static type {name}"
  | staticField name => s!"Cannot make a static reference to the non-static field {name}"
  | staticThis => "Cannot use this in a static context"
  | staticSuper => "Cannot use super in a static context"
  | rawType name generic =>
    s!"{name} is a raw type. References to generic type {generic} should be parameterized"
  | deprecatedType name => s!"The type {name} is deprecated"
  | duplicateParameter name => s!"Duplicate parameter {name}"
  | duplicateVariable name => s!"Duplicate local variable {name}"
  | variableInLambda name =>
    s!"Lambda expression's local variable {name} cannot redeclare another local variable " ++
      "defined in an enclosing scope. "
  | parameterOfLambda name =>
    s!"Lambda expression's parameter {name} cannot redeclare another local variable " ++
      "defined in an enclosing scope. "
  | enumFieldInInitializer owner name =>
    s!"Cannot refer to the static enum field {owner}.{name} within an initializer"
  | forwardReference => "Cannot reference a field before it is defined"
  | capturedNotFinal name =>
    s!"Cannot refer to the non-final local variable {name} defined in an enclosing scope"
  | capturedNotEffectivelyFinal name =>
    s!"Local variable {name} defined in an enclosing scope must be final or effectively final"
  | guardNotEffectivelyFinal name =>
    s!"Local variable {name} referenced from a guard must be final or effectively final"

def diagnostic (problem : NameProblem) (span : Span) : Diagnostic :=
  .new problem.category problem.message span

end NameProblem

/-! The types around a place. A frame stands for one of them and says in which part of its body the
place is; frames are listed from the innermost type outward. -/

inductive BodyPart where
  | body
  | staticMethod
  | instanceMethod
  | constructor
  | staticInitializer
  | instanceInitializer
  | staticFieldValue
  | instanceFieldValue
  deriving DecidableEq, Repr

namespace BodyPart

def isStatic : BodyPart → Bool
  | .staticMethod | .staticInitializer | .staticFieldValue => true
  | _ => false

def isInstanceInitializer : BodyPart → Bool
  | .constructor | .instanceInitializer | .instanceFieldValue => true
  | _ => false

def isInitializer : BodyPart → Bool
  | .staticInitializer | .instanceInitializer | .staticFieldValue | .instanceFieldValue => true
  | _ => false

end BodyPart

structure Frame where
  key : String
  type : Option KnownType
  isStaticType : Bool
  part : BodyPart := .body
  typeParameters : List String
  /-- Where the fields and the constants of the body are declared, latest first. -/
  fieldOffsets : List (String × Nat)
  /-- The final fields that get their values in constructors or initializers. -/
  blankFinals : List String
  initializing : Option String := none

namespace Frame

/-- The frame of a type with its constants and members. The components of a record are final and
get their values in its constructor. -/
def of (key : String) (type : Option KnownType) (constants : List EnumConstant)
    (members : List Member) (components : List Parameter) : Frame :=
  let fields := fieldValues members
  let constantOffsets := constants.map fun constant =>
    (constant.header.name, constant.header.nameSpan.start.offset)
  let offsets := fields.map fun (header, _) => (header.name, header.nameSpan.start.offset)
  let blank := fields.filter fun (header, initializer) =>
    header.modifiers.contains .final && initializer.isNone
  { key, type
    isStaticType := type.any KnownType.isStatic
    typeParameters := (type.map KnownType.typeParameters).getD []
    fieldOffsets := (constantOffsets ++ offsets).reverse
    blankFinals := blank.map (fun (header, _) => header.name) ++ components.map Parameter.name }

def thisType (frame : Frame) : Ty :=
  match frame.type with
  | some type => type.thisType
  | none => .ofKey frame.key

def simpleName (frame : Frame) : String :=
  Ty.simpleName frame.key

def isInterface (frame : Frame) : Bool :=
  frame.type.any KnownType.isInterface

def isEnum (frame : Frame) : Bool :=
  frame.type.any KnownType.isEnum

end Frame

def inPart (part : BodyPart) : List Frame → List Frame
  | [] => []
  | frame :: outer => { frame with part } :: outer

/-- The instance of the type at a place of a list of frames is at hand in the innermost frame: no
frame up to it is in a static part, and none inside it is a type without an enclosing instance. -/
def instanceReachable (frames : List Frame) (place : Nat) : Bool :=
  place < frames.length &&
    (frames.take (place + 1)).all (fun frame => !frame.part.isStatic) &&
    (frames.take place).all fun frame => !frame.isStaticType

def topLevelKey (key : String) : String :=
  Text.before '$' key

/-! Scopes and symbols. Scopes form a tree: each knows the number of the scope around it, which was
made earlier. Symbols are kept in one table, and scopes bind names to their numbers. -/

/-! ### Scopes -/

inductive ScopeKind where
  | unit
  | type (key : String)
  | method (isStatic : Bool)
  | initializer (isStatic : Bool)
  | block
  | lambda
  | switch
  /-- The pattern variables of the labels of one case. -/
  | caseGroup
  deriving DecidableEq, Repr

namespace ScopeKind

def isMemberBoundary : ScopeKind → Bool
  | .unit | .type _ | .method _ | .initializer _ => true
  | .block | .lambda | .switch | .caseGroup => false

def display : ScopeKind → String
  | .unit => "unit"
  | .type key => s!"type {key}"
  | .method false => "method"
  | .method true => "method static"
  | .initializer false => "initializer"
  | .initializer true => "initializer static"
  | .block => "block"
  | .lambda => "lambda"
  | .switch => "switch"
  | .caseGroup => "case"

end ScopeKind

abbrev ScopeId := Nat

abbrev SymbolId := Nat

structure Scope where
  kind : ScopeKind
  parent : Option ScopeId
  names : List (String × SymbolId) := []

structure ScopeTree where
  scopes : Array Scope := #[]

namespace ScopeTree

variable (tree : ScopeTree) (scope : ScopeId)

def size : Nat :=
  tree.scopes.size

def push (kind : ScopeKind) (parent : Option ScopeId) : ScopeTree :=
  { scopes := tree.scopes.push { kind, parent } }

def kind? : Option ScopeKind :=
  tree.scopes[scope]?.map Scope.kind

def parent? : Option ScopeId :=
  tree.scopes[scope]?.bind Scope.parent

/-- Binds a name in a scope to a symbol, in place of what it was bound to. -/
def bind (name : String) (symbol : SymbolId) : ScopeTree :=
  { scopes := tree.scopes.modify scope fun entry =>
      { entry with names := (name, symbol) :: entry.names } }

def local? (name : String) : Option SymbolId :=
  tree.scopes[scope]?.bind fun entry => entry.names.lookup name

/-- A scope and the scopes around it, innermost first. A scope has a smaller number than the
scopes inside it. -/
def ancestors (tree : ScopeTree) (scope : ScopeId) : List ScopeId :=
  scope ::
    match tree.parent? scope with
    | some parent => if parent < scope then tree.ancestors parent else []
    | none => []
termination_by scope

def lookup? (name : String) : Option (ScopeId × SymbolId) :=
  (tree.ancestors scope).findSome? fun around =>
    (tree.local? around name).map fun symbol => (around, symbol)

end ScopeTree

/-! ### Symbols -/

inductive SymbolKind where
  | field | variable | parameter | patternVariable | method | type
  deriving DecidableEq, Repr

def SymbolKind.display : SymbolKind → String
  | .field => "field"
  | .variable => "local variable"
  | .parameter => "parameter"
  | .patternVariable => "pattern variable"
  | .method => "method"
  | .type => "type"

def SymbolKind.isLocal : SymbolKind → Bool
  | .variable | .parameter | .patternVariable => true
  | .field | .method | .type => false

structure ConstantFacts where
  ordinal : Nat
  hasBody : Bool
  bodyKey : Option String
  required : List KnownMethod

structure Symbol where
  name : String
  kind : SymbolKind
  type : Ty
  modifiers : List Modifier := []
  scope : ScopeId
  span : Span
  hasInitializer : Bool := false
  assignments : List Span := []
  constant : Option ConstantFacts := none

namespace Symbol

variable (symbol : Symbol)

def isFinal : Bool :=
  symbol.modifiers.contains .final

def isStatic : Bool :=
  symbol.modifiers.contains .static

/-- The symbol could be declared to be final: it is never changed after it got its value, and a
variable without an initial value is given one at most once. -/
def isEffectivelyFinal : Bool :=
  symbol.isFinal ||
    match symbol.kind with
    | .parameter | .patternVariable => symbol.assignments.isEmpty
    | _ => symbol.assignments.length ≤ if symbol.hasInitializer then 0 else 1

def assignedAt (span : Span) : Symbol :=
  { symbol with assignments := symbol.assignments ++ [span] }

end Symbol

inductive Referent where
  | variable (symbol : SymbolId)
  | field (found : ClassPath.FoundField)
  | type (type : Ty)
  | package (name : String)

structure Bindings where
  tree : ScopeTree := {}
  symbols : Array Symbol := #[]
  /-- What names denote, by the number of the expression. -/
  referents : List (Nat × Referent) := []
  declarations : List (Nat × SymbolId) := []
  /-- The types that written types denote, by the offset at which they begin. -/
  writtenTypes : List (Nat × Ty) := []
  /-- The numbers of the bare names in case labels that denote nothing in scope; they may be
  constants of the enum that is switched on. -/
  caseNames : List Nat := []

namespace Bindings

def referent? (bindings : Bindings) (id : Nat) : Option Referent :=
  bindings.referents.lookup id

def declaredAt? (bindings : Bindings) (nameSpan : Span) : Option SymbolId :=
  bindings.declarations.lookup nameSpan.start.offset

/-- The type that a written type denotes; one that was never looked at is unknown. -/
def typeOf (bindings : Bindings) (written : WrittenType) : Ty :=
  (bindings.writtenTypes.lookup written.span.start.offset).getD .unknown

end Bindings

structure UnitContext where
  configuration : Configuration
  declared : SourceIndex
  names : UnitNames
  file : String

namespace UnitContext

variable (context : UnitContext)

def path : ClassPath :=
  context.names.path

def keyAt? (offset : Nat) : Option String :=
  context.declared.keyAt? context.file offset

/-- The key of the type that is declared at an offset, or a substitute: classes declared inside
expressions have no key of their own. -/
def keyAt (offset : Nat) (substitute : String) : String :=
  (context.keyAt? offset).getD substitute

def frameOf (key : String) (header : TypeHeader)
    (constants : List EnumConstant) (members : List Member) : Frame :=
  let components := match header.shape with
    | .record _ components _ => components
    | _ => []
  .of key (context.path.type? key) constants members components

def frameOfBody (key : String) (members : List Member) : Frame :=
  .of key (context.path.type? key) [] members []

/-- A name that is not found may denote something that cannot be seen from here: a member of an
unknown supertype, or something that is imported from an unknown type. -/
def mayHide (frames : List Frame) (name : String) : Bool :=
  frames.any (fun frame => !context.path.isHierarchyKnown frame.key) ||
    context.names.mayImport name

end UnitContext

end JavaFrontEnd
