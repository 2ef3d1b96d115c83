/-
The tree of a compilation unit. Declarations are split into a header, which is plain data, and the
parts that hold expressions and statements; checks that only compare headers need no recursion
over the tree. Every node carries the span it was read from, and every expression that can denote
something carries a number of its own.
-/

import JavaFrontEnd.Source

namespace JavaFrontEnd

/-! Literals and operators. -/

/-- The value of a literal. Integers are exact here: whether they fit their type is decided where
they are used. -/
inductive Literal where
  | int (value : Int)
  | long (value : Int)
  | float (value : Float)
  | double (value : Float)
  | boolean (value : Bool)
  | char (value : Char)
  | string (value : String)
  | null

inductive BinaryOperator where
  | add | subtract | multiply | divide | remainder
  | less | lessEqual | greater | greaterEqual | equal | notEqual
  | and | or | xor | leftShift | rightShift | unsignedRightShift
  | logicalAnd | logicalOr
  deriving DecidableEq, Repr

namespace BinaryOperator

def symbol : BinaryOperator → String
  | add => "+"
  | subtract => "-"
  | multiply => "*"
  | divide => "/"
  | remainder => "%"
  | less => "<"
  | lessEqual => "<="
  | greater => ">"
  | greaterEqual => ">="
  | equal => "=="
  | notEqual => "!="
  | and => "&"
  | or => "|"
  | xor => "^"
  | leftShift => "<<"
  | rightShift => ">>"
  | unsignedRightShift => ">>>"
  | logicalAnd => "&&"
  | logicalOr => "||"

/-- How tightly a binary operator binds; a greater number binds more tightly. -/
def precedence : BinaryOperator → Nat
  | logicalOr => 1
  | logicalAnd => 2
  | or => 3
  | xor => 4
  | and => 5
  | equal | notEqual => 6
  | less | lessEqual | greater | greaterEqual => 7
  | leftShift | rightShift | unsignedRightShift => 8
  | add | subtract => 9
  | multiply | divide | remainder => 10

end BinaryOperator

inductive UnaryOperator where
  | plus | minus | not | bitNot | preIncrement | preDecrement | postIncrement | postDecrement
  deriving DecidableEq, Repr

def UnaryOperator.isIncrement : UnaryOperator → Bool
  | preIncrement | preDecrement | postIncrement | postDecrement => true
  | _ => false

inductive AssignmentOperator where
  | assign | add | subtract | multiply | divide | remainder | and | or | xor
  | leftShift | rightShift | unsignedRightShift
  deriving DecidableEq, Repr

/-! Types as they are written, and what is built from them without expressions: parameters, type
parameters and patterns. -/

/-! Modifiers and annotations of declarations. The arguments of annotations are expressions, which
no check ever looks at; an annotation only says where its unit keeps them, so that written types
and parameters can be declared before expressions. -/

inductive Modifier where
  | «public» | «protected» | «private» | abstract | static | final | native | synchronized
  | transient | volatile | strictfp | default | sealed | nonSealed
  deriving DecidableEq, Repr

def Modifier.spelling : Modifier → String
  | .public => "public"
  | .protected => "protected"
  | .private => "private"
  | .abstract => "abstract"
  | .static => "static"
  | .final => "final"
  | .native => "native"
  | .synchronized => "synchronized"
  | .transient => "transient"
  | .volatile => "volatile"
  | .strictfp => "strictfp"
  | .default => "default"
  | .sealed => "sealed"
  | .nonSealed => "non-sealed"

def Modifier.all : List Modifier :=
  [.public, .protected, .private, .abstract, .static, .final, .native, .synchronized, .transient,
   .volatile, .strictfp, .default, .sealed, .nonSealed]

def Modifier.ofSpelling? (spelling : String) : Option Modifier :=
  all.find? fun modifier => modifier.spelling == spelling

def lastSegment (name : String) : String :=
  String.ofList (name.toList.reverse.takeWhile (· ≠ '.')).reverse

structure AnnotationUse where
  name : String
  /-- The place of the arguments among those of the unit. -/
  arguments : Nat
  span : Span
  deriving DecidableEq, Repr

def AnnotationUse.simpleName (use : AnnotationUse) : String :=
  lastSegment use.name

def isAnnotated (annotations : List AnnotationUse) (simpleName : String) : Bool :=
  annotations.any fun use => use.simpleName == simpleName

inductive BoundSide where
  | upper
  | lower
  deriving DecidableEq, Repr

mutual

/-- A type as it is written: a name, arguments, dimensions. -/
structure WrittenType where
  /-- A dotted name or the name of a primitive type. -/
  name : String
  arguments : List TypeArgument
  /-- The empty argument list `<>`. -/
  diamond : Bool
  annotations : List AnnotationUse
  dimensions : Nat
  span : Span

inductive TypeArgument where
  | type (type : WrittenType)
  | wildcard (span : Span)
  | bounded (side : BoundSide) (bound : WrittenType) (span : Span)

end

def primitiveNames : List String :=
  ["boolean", "byte", "short", "int", "long", "char", "float", "double"]

namespace WrittenType

variable (type : WrittenType)

def simple (name : String) (span : Span) : WrittenType :=
  { name, arguments := [], diamond := false, annotations := [], dimensions := 0, span }

def addDimensions (dimensions : Nat) : WrittenType :=
  { type with dimensions := type.dimensions + dimensions }

def isPrimitive : Bool :=
  type.dimensions == 0 && primitiveNames.contains type.name

def isVar : Bool :=
  type.dimensions == 0 && type.name == "var" && type.arguments.isEmpty

def simpleName : String :=
  lastSegment type.name

end WrittenType

mutual

def WrittenType.display : WrittenType → String
  | ⟨name, arguments, diamond, _, dimensions, _⟩ =>
    let listed :=
      if diamond then "<>"
      else match arguments with
        | [] => ""
        | first :: rest => "<" ++ first.display ++ TypeArgument.displayMore rest ++ ">"
    name ++ listed ++ String.join (List.replicate dimensions "[]")

def TypeArgument.display : TypeArgument → String
  | .type type => type.display
  | .wildcard _ => "?"
  | .bounded .upper bound _ => "? extends " ++ bound.display
  | .bounded .lower bound _ => "? super " ++ bound.display

def TypeArgument.displayMore : List TypeArgument → String
  | [] => ""
  | argument :: rest => "," ++ argument.display ++ TypeArgument.displayMore rest

end

structure TypeParameter where
  name : String
  bounds : List WrittenType
  span : Span

structure Parameter where
  modifiers : List Modifier
  annotations : List AnnotationUse
  type : WrittenType
  name : String
  nameSpan : Span
  /-- The parameter takes any number of arguments. -/
  variadic : Bool
  span : Span

/-- The type of a parameter inside the method: a variable number of arguments is an array. -/
def Parameter.effectiveType (parameter : Parameter) : WrittenType :=
  if parameter.variadic then parameter.type.addDimensions 1 else parameter.type

structure LambdaParameter where
  modifiers : List Modifier
  type : Option WrittenType
  name : String
  nameSpan : Span
  span : Span

structure TypePattern where
  modifiers : List Modifier
  type : WrittenType
  name : String
  nameSpan : Span
  span : Span

inductive Pattern where
  | type (pattern : TypePattern)
  | record (type : WrittenType) (components : List Pattern) (span : Span)

namespace Pattern

def span : Pattern → Span
  | .type pattern => pattern.span
  | .record _ _ span => span

def writtenType : Pattern → WrittenType
  | .type pattern => pattern.type
  | .record written _ _ => written

mutual

def bindings : Pattern → List TypePattern
  | .type pattern => [pattern]
  | .record _ components _ => bindingsOfAll components

def bindingsOfAll : List Pattern → List TypePattern
  | [] => []
  | pattern :: rest => pattern.bindings ++ bindingsOfAll rest

end

end Pattern

/-! ### Headers -/

/-- What a type declaration says beside its name and its body, by kind of type. -/
inductive TypeShape where
  | class (parameters : List TypeParameter) (superclass : Option WrittenType)
      (interfaces : List WrittenType) (permits : List WrittenType)
  | interface (parameters : List TypeParameter) (interfaces : List WrittenType)
      (permits : List WrittenType)
  /-- `terminated` tells whether a semicolon ends the constants. -/
  | enum (interfaces : List WrittenType) (terminated : Bool)
  | annotationType
  | record (parameters : List TypeParameter) (components : List Parameter)
      (interfaces : List WrittenType)

structure TypeHeader where
  modifiers : List Modifier
  annotations : List AnnotationUse
  name : String
  nameSpan : Span
  shape : TypeShape
  span : Span

structure ConstantHeader where
  /-- An enum constant may have no modifiers; they are kept to be reported. -/
  modifiers : List Modifier
  annotations : List AnnotationUse
  name : String
  nameSpan : Span
  /-- An argument list is written, though it may be empty. -/
  parenthesized : Bool
  span : Span

structure FieldHeader where
  modifiers : List Modifier
  annotations : List AnnotationUse
  type : WrittenType
  name : String
  nameSpan : Span
  span : Span

structure MethodHeader where
  modifiers : List Modifier
  annotations : List AnnotationUse
  typeParameters : List TypeParameter
  /-- The type of the result; `none` stands for `void`. -/
  returnType : Option WrittenType
  name : String
  nameSpan : Span
  parameters : List Parameter
  throws : List WrittenType
  span : Span

structure ConstructorHeader where
  modifiers : List Modifier
  annotations : List AnnotationUse
  typeParameters : List TypeParameter
  name : String
  nameSpan : Span
  parameters : List Parameter
  throws : List WrittenType
  /-- The constructor of a record without a parameter list. -/
  compact : Bool
  span : Span

structure LocalHeader where
  modifiers : List Modifier
  annotations : List AnnotationUse
  type : WrittenType

structure VariableHeader where
  name : String
  nameSpan : Span
  dimensions : Nat
  span : Span

structure BoundVariable where
  modifiers : List Modifier
  type : WrittenType
  name : String
  nameSpan : Span

/-! ### Expressions, statements, members -/

mutual

inductive Expression where
  | literal (value : Literal) (span : Span)
  | name (name : String) (id : Nat) (span : Span)
  | field (target : Expression) (name : String) (nameSpan : Span) (id : Nat) (span : Span)
  | call (target : Option Expression) (typeArguments : List WrittenType) (name : String)
      (nameSpan : Span) (arguments : List Expression) (id : Nat) (span : Span)
  | binary (operator : BinaryOperator) (left right : Expression) (span : Span)
  | unary (operator : UnaryOperator) (operand : Expression) (span : Span)
  | assignment (operator : AssignmentOperator) (target value : Expression) (span : Span)
  | index (array index : Expression) (span : Span)
  /-- A cast; `bounds` are the further types of an intersection. -/
  | cast (type : WrittenType) (bounds : List WrittenType) (operand : Expression) (span : Span)
  | instanceOf (operand : Expression) (type : WrittenType) (span : Span)
  | instanceOfPattern (operand : Expression) (pattern : Pattern) (span : Span)
  | conditional (condition yes no : Expression) (span : Span)
  | create (outer : Option Expression) (type : WrittenType) (arguments : List Expression)
      (body : Option ClassBody) (id : Nat) (span : Span)
  /-- An array creation; `dimensions` counts the brackets without a size. -/
  | createArray (element : WrittenType) (sizes : List Expression) (dimensions : Nat)
      (initializer : Option Expression) (span : Span)
  | arrayInitializer (elements : List Expression) (span : Span)
  | lambda (parameters : List LambdaParameter) (body : Expression) (span : Span)
  | blockLambda (parameters : List LambdaParameter) (body : Block) (span : Span)
  | methodReference (target : Expression) (name : String) (span : Span)
  | typeMethodReference (target : WrittenType) (name : String) (span : Span)
  | switch (selector : Expression) (cases : List SwitchCase) (keywordSpan span : Span)
  | this (qualifier : Option String) (span : Span)
  | super (span : Span)
  | classLiteral (type : WrittenType) (span : Span)
  | parenthesized (inner : Expression) (span : Span)
  /-- A place where an expression should be and none was understood. -/
  | erroneous (span : Span)

structure Block where
  statements : List Statement
  span : Span

inductive Statement where
  | expression (expression : Expression) (span : Span)
  | locals (header : LocalHeader) (declarations : List Declarator) (span : Span)
  | typeDeclaration (declaration : TypeDeclaration)
  | conditional (condition : Expression) (yes : Statement) (no : Option Statement) (span : Span)
  | while (condition : Expression) (body : Statement) (span : Span)
  | doWhile (body : Statement) (condition : Expression) (span : Span)
  | for (initial : List Statement) (condition : Option Expression) (update : List Expression)
      (body : Statement) (span : Span)
  | forEach (bound : BoundVariable) (iterable : Expression) (body : Statement) (span : Span)
  | switch (selector : Expression) (cases : List SwitchCase) (keywordSpan span : Span)
  | return (value : Option Expression) (span : Span)
  | break (label : Option String) (span : Span)
  | continue (label : Option String) (span : Span)
  | yield (value : Expression) (span : Span)
  | try (resources : List Resource) (body : Block) (catches : List CatchClause)
      (finallyBlock : Option Block) (span : Span)
  | throw (value : Expression) (span : Span)
  | assert (condition : Expression) (message : Option Expression) (span : Span)
  | synchronized (lock : Expression) (body : Block) (span : Span)
  | labeled (label : String) (body : Statement) (span : Span)
  | block (block : Block)
  | empty (span : Span)

structure Declarator where
  header : VariableHeader
  initializer : Option Expression

inductive Resource where
  | declared (bound : BoundVariable) (initializer : Expression) (span : Span)
  | expression (expression : Expression) (span : Span)

structure CatchClause where
  parameter : Parameter
  alternatives : List WrittenType
  block : Block
  span : Span

inductive SwitchCase where
  | group (labels : List SwitchLabel) (statements : List Statement) (span : Span)
  | valueRule (label : SwitchLabel) (value : Expression) (span : Span)
  | blockRule (label : SwitchLabel) (block : Block) (span : Span)
  | throwRule (label : SwitchLabel) (value : Expression) (throwSpan span : Span)

structure SwitchLabel where
  elements : List CaseElement
  guard : Option Expression
  span : Span

inductive CaseElement where
  | constant (value : Expression)
  | pattern (pattern : Pattern)
  | null (span : Span)
  | default (span : Span)

structure ClassBody where
  members : List Member
  span : Span

inductive Member where
  | field (header : FieldHeader) (initializer : Option Expression)
  /-- A method; `defaultValue` is that of an element of an annotation type. -/
  | method (header : MethodHeader) (body : Option Block) (defaultValue : Option Expression)
  | constructor (header : ConstructorHeader) (call : ConstructorCall) (body : Block)
  | initializer (static : Bool) (body : Block) (span : Span)
  | type (declaration : TypeDeclaration)

inductive ConstructorCall where
  | implicit
  | this (arguments : List Expression) (span : Span)
  | super (arguments : List Expression) (span : Span)

structure TypeDeclaration where
  header : TypeHeader
  constants : List EnumConstant
  members : List Member

structure EnumConstant where
  header : ConstantHeader
  arguments : List Expression
  body : Option ClassBody

end

inductive AnnotationArgument where
  | value (value : Expression)
  | named (name : String) (value : Expression)

structure PackageDeclaration where
  name : String
  annotations : List AnnotationUse
  span : Span

/-- An import; `wildcard` tells that it ends with a star, which the name does not show. -/
structure ImportDeclaration where
  name : String
  static : Bool
  wildcard : Bool
  span : Span

def ImportDeclaration.simpleName (declaration : ImportDeclaration) : String :=
  lastSegment declaration.name

structure CompilationUnit where
  package : Option PackageDeclaration
  imports : List ImportDeclaration
  types : List TypeDeclaration
  span : Span
  annotationArguments : Array (List AnnotationArgument)

/-! Reading a tree: spans of nodes, the kinds of types, names spelled by expressions, and the labels
of a switch. -/

/-! ### Expressions -/

namespace Expression

def span : Expression → Span
  | .literal _ span | .name _ _ span | .field _ _ _ _ span | .call _ _ _ _ _ _ span
  | .binary _ _ _ span | .unary _ _ span | .assignment _ _ _ span | .index _ _ span
  | .cast _ _ _ span | .instanceOf _ _ span | .instanceOfPattern _ _ span
  | .conditional _ _ _ span | .create _ _ _ _ _ span | .createArray _ _ _ _ span
  | .arrayInitializer _ span | .lambda _ _ span | .blockLambda _ _ span
  | .methodReference _ _ span | .typeMethodReference _ _ span | .switch _ _ _ span
  | .this _ span | .super span | .classLiteral _ span | .parenthesized _ span
  | .erroneous span => span

def unparenthesized : Expression → Expression
  | .parenthesized inner _ => inner.unparenthesized
  | other => other

/-- The dotted name that a chain of names and field accesses spells. -/
def qualifiedName? : Expression → Option String
  | .name spelled _ _ => some spelled
  | .field target selected _ _ _ =>
    target.qualifiedName?.map fun qualifier => s!"{qualifier}.{selected}"
  | _ => none

def isNull (expression : Expression) : Bool :=
  match expression.unparenthesized with
  | .literal .null _ => true
  | _ => false

end Expression

/-! ### Types -/

inductive TypeKind where
  | «class» | interface | enum | annotationType | record
  deriving DecidableEq, Repr

def TypeKind.display : TypeKind → String
  | .class => "class"
  | .interface => "interface"
  | .enum => "enum"
  | .annotationType => "annotation type"
  | .record => "record"

namespace TypeShape

def kind : TypeShape → TypeKind
  | .class .. => .class
  | .interface .. => .interface
  | .enum .. => .enum
  | .annotationType => .annotationType
  | .record .. => .record

def typeParameters : TypeShape → List TypeParameter
  | .class parameters .. => parameters
  | .interface parameters .. => parameters
  | .record parameters .. => parameters
  | .enum .. | .annotationType => []

/-- The types that a type names as its supertypes, superclass first. -/
def supertypes : TypeShape → List WrittenType
  | .class _ superclass interfaces _ => superclass.toList ++ interfaces
  | .interface _ interfaces _ => interfaces
  | .enum interfaces _ => interfaces
  | .record _ _ interfaces => interfaces
  | .annotationType => []

def permits : TypeShape → List WrittenType
  | .class _ _ _ permits => permits
  | .interface _ _ permits => permits
  | _ => []

end TypeShape

namespace TypeDeclaration

variable (declaration : TypeDeclaration)

def kind : TypeKind :=
  declaration.header.shape.kind

def name : String :=
  declaration.header.name

def hasModifier (modifier : Modifier) : Bool :=
  declaration.header.modifiers.contains modifier

end TypeDeclaration

def Member.span : Member → Span
  | .field header _ => header.span
  | .method header _ _ => header.span
  | .constructor header _ _ => header.span
  | .initializer _ _ span => span
  | .type declaration => declaration.header.span

/-- A method with a variable number of arguments: its last parameter takes the rest. -/
def MethodHeader.isVariadic (header : MethodHeader) : Bool :=
  header.parameters.getLast?.any Parameter.variadic

/-! ### Statements -/

def Statement.span : Statement → Span
  | .expression _ span | .locals _ _ span | .conditional _ _ _ span | .while _ _ span
  | .doWhile _ _ span | .for _ _ _ _ span | .forEach _ _ _ span | .switch _ _ _ span
  | .return _ span | .break _ span | .continue _ span | .yield _ span | .try _ _ _ _ span
  | .throw _ span | .assert _ _ span | .synchronized _ _ span | .labeled _ _ span
  | .empty span => span
  | .typeDeclaration declaration => declaration.header.span
  | .block body => body.span

/-! ### Switches -/

def CaseElement.span : CaseElement → Span
  | .constant value => value.span
  | .pattern tested => tested.span
  | .null span | .default span => span

namespace CaseElement

def isDefault : CaseElement → Bool
  | .default _ => true
  | _ => false

def isNull : CaseElement → Bool
  | .null _ => true
  | _ => false

def pattern? : CaseElement → Option Pattern
  | .pattern tested => some tested
  | _ => none

def constant? : CaseElement → Option Expression
  | .constant value => some value
  | _ => none

end CaseElement

namespace SwitchLabel

variable (label : SwitchLabel)

def hasDefault : Bool :=
  label.elements.any CaseElement.isDefault

def hasNull : Bool :=
  label.elements.any CaseElement.isNull

def patterns : List Pattern :=
  label.elements.filterMap CaseElement.pattern?

def constants : List Expression :=
  label.elements.filterMap CaseElement.constant?

end SwitchLabel

namespace SwitchCase

variable (cases : List SwitchCase)

def labels : SwitchCase → List SwitchLabel
  | .group labels _ _ => labels
  | .valueRule label _ _ | .blockRule label _ _ | .throwRule label _ _ _ => [label]

def isRule : SwitchCase → Bool
  | .group .. => false
  | _ => true

def span : SwitchCase → Span
  | .group _ _ span | .valueRule _ _ span | .blockRule _ _ span | .throwRule _ _ _ span => span

def anyDefault : Bool :=
  cases.any fun case => case.labels.any SwitchLabel.hasDefault

def anyPattern : Bool :=
  cases.any fun case => case.labels.any fun label => !label.patterns.isEmpty

def anyNull : Bool :=
  cases.any fun case => case.labels.any SwitchLabel.hasNull

end SwitchCase

/-! ### Units -/

namespace CompilationUnit

def packageName? (unit : CompilationUnit) : Option String :=
  unit.package.map PackageDeclaration.name

def qualify (unit : CompilationUnit) (name : String) : String :=
  match unit.packageName? with
  | some package => s!"{package}.{name}"
  | none => name

end CompilationUnit

/-! The outline of a unit: its package, its imports and the types at its top, a line for each. -/

def PackageDeclaration.display (declaration : PackageDeclaration) : String :=
  s!"package {declaration.name};"

def ImportDeclaration.display (declaration : ImportDeclaration) : String :=
  let static := if declaration.static then "static " else ""
  let star := if declaration.wildcard then ".*" else ""
  s!"import {static}{declaration.name}{star};"

def TypeDeclaration.display (declaration : TypeDeclaration) : String :=
  s!"{declaration.kind.display} {declaration.name}"

def CompilationUnit.outline (unit : CompilationUnit) : String :=
  let lines := unit.package.toList.map PackageDeclaration.display ++
    unit.imports.map ImportDeclaration.display ++ unit.types.map TypeDeclaration.display
  String.join (lines.map (· ++ "\n"))

end JavaFrontEnd
