/-
The types of values. A class is identified by its key: the dotted name of its package followed by
the path of nested types with dollar signs between them. What cannot be seen into is the unknown
type, with which every rule is lenient, so that a missing declaration is never reported twice.
-/

import JavaFrontEnd.Source

namespace JavaFrontEnd

/-! The primitive types: names, wrapper classes, widening and promotion. -/

inductive Primitive where
  | boolean | byte | short | char | int | long | float | double
  deriving DecidableEq, Repr

namespace Primitive

def all : List Primitive :=
  [boolean, byte, short, char, int, long, float, double]

def name : Primitive → String
  | boolean => "boolean"
  | byte => "byte"
  | short => "short"
  | char => "char"
  | int => "int"
  | long => "long"
  | float => "float"
  | double => "double"

def ofName? (name : String) : Option Primitive :=
  all.find? fun primitive => primitive.name == name

def wrapper : Primitive → String
  | boolean => "java.lang.Boolean"
  | byte => "java.lang.Byte"
  | short => "java.lang.Short"
  | char => "java.lang.Character"
  | int => "java.lang.Integer"
  | long => "java.lang.Long"
  | float => "java.lang.Float"
  | double => "java.lang.Double"

def ofWrapper? (key : String) : Option Primitive :=
  all.find? fun primitive => primitive.wrapper == key

def isNumeric : Primitive → Bool
  | boolean => false
  | _ => true

def isIntegral : Primitive → Bool
  | byte | short | char | int | long => true
  | boolean | float | double => false

/-- A value of the first type becomes one of the second without a cast. -/
def widensTo : Primitive → Primitive → Bool
  | byte, target => [byte, short, int, long, float, double].contains target
  | short, target => [short, int, long, float, double].contains target
  | char, target => [char, int, long, float, double].contains target
  | int, target => [int, long, float, double].contains target
  | long, target => [long, float, double].contains target
  | float, target => [float, double].contains target
  | double, target => target == double
  | boolean, target => target == boolean

def letter : Primitive → Char
  | boolean => 'Z'
  | byte => 'B'
  | short => 'S'
  | char => 'C'
  | int => 'I'
  | long => 'J'
  | float => 'F'
  | double => 'D'

def ofLetter? (letter : Char) : Option Primitive :=
  all.find? fun primitive => primitive.letter == letter

/-- The type in which an operator computes with operands of two types. -/
def promote (first second : Primitive) : Primitive :=
  if first = double ∨ second = double then double
  else if first = float ∨ second = float then float
  else if first = long ∨ second = long then long
  else int

end Primitive

inductive Ty where
  | primitive (kind : Primitive)
  | void
  | null
  | class (key : String) (arguments : List Ty)
  | array (element : Ty)
  | variable (name : String)
  | wildcard
  | unknown
  deriving Repr

namespace Ty

/-! ### Equality -/

mutual

def same : Ty → Ty → Bool
  | .primitive first, .primitive second => first == second
  | .void, .void | .null, .null | .wildcard, .wildcard | .unknown, .unknown => true
  | .class first firstArguments, .class second secondArguments =>
    first == second && sameAll firstArguments secondArguments
  | .array first, .array second => same first second
  | .variable first, .variable second => first == second
  | _, _ => false

def sameAll : List Ty → List Ty → Bool
  | [], [] => true
  | first :: firstRest, second :: secondRest =>
    same first second && sameAll firstRest secondRest
  | _, _ => false

end

mutual

theorem same_iff : ∀ first second : Ty, same first second = true ↔ first = second
  | .primitive _, second => by cases second <;> simp [same]
  | .void, second => by cases second <;> simp [same]
  | .null, second => by cases second <;> simp [same]
  | .wildcard, second => by cases second <;> simp [same]
  | .unknown, second => by cases second <;> simp [same]
  | .variable _, second => by cases second <;> simp [same]
  | .array first, second => by
    cases second with
    | array second => simpa [same] using same_iff first second
    | _ => simp [same]
  | .class _ firstArguments, second => by
    cases second with
    | «class» _ secondArguments => simp [same, sameAll_iff firstArguments secondArguments]
    | _ => simp [same]

theorem sameAll_iff : ∀ first second : List Ty, sameAll first second = true ↔ first = second
  | [], second => by cases second <;> simp [sameAll]
  | head :: rest, second => by
    cases second with
    | nil => simp [sameAll]
    | cons other others => simp [sameAll, same_iff head other, sameAll_iff rest others]

end

instance : DecidableEq Ty := fun first second =>
  decidable_of_iff (same first second = true) (same_iff first second)

/-! ### Building types -/

def ofKey (key : String) : Ty :=
  .class key []

def object : Ty := ofKey "java.lang.Object"

def string : Ty := ofKey "java.lang.String"

def int : Ty := .primitive .int

def boolean : Ty := .primitive .boolean

def arrayOf (element : Ty) : Nat → Ty
  | 0 => element
  | dimensions + 1 => .array (arrayOf element dimensions)

/-! ### Questions about a type -/

def isUnknown : Ty → Bool
  | .unknown => true
  | _ => false

def isPrimitive : Ty → Bool
  | .primitive _ => true
  | _ => false

def isReference : Ty → Bool
  | .class .. | .array _ | .variable _ | .null | .wildcard => true
  | .primitive _ | .void | .unknown => false

def key? : Ty → Option String
  | .class key _ => some key
  | _ => none

def isString (type : Ty) : Bool :=
  type.key? == some "java.lang.String"

def arguments : Ty → List Ty
  | .class _ arguments => arguments
  | _ => []

def element? : Ty → Option Ty
  | .array element => some element
  | _ => none

def unboxed? : Ty → Option Primitive
  | .primitive kind => some kind
  | .class key _ => Primitive.ofWrapper? key
  | _ => none

/-- The type of references to which a value of a primitive type converts. -/
def boxed : Ty → Ty
  | .primitive kind => ofKey kind.wrapper
  | other => other

def isBoolean (type : Ty) : Bool :=
  type.unboxed? == some .boolean

mutual

/-- Some part of the type is unknown, a type variable or a wildcard. -/
def isIndeterminate : Ty → Bool
  | .unknown | .variable _ | .wildcard => true
  | .class _ arguments => anyIndeterminate arguments
  | .array element => element.isIndeterminate
  | .primitive _ | .void | .null => false

def anyIndeterminate : List Ty → Bool
  | [] => false
  | type :: rest => type.isIndeterminate || anyIndeterminate rest

end

mutual

/-- The type mentions a type variable that satisfies a test. -/
def mentions (test : String → Bool) : Ty → Bool
  | .variable name => test name
  | .class _ arguments => anyMentions test arguments
  | .array element => element.mentions test
  | _ => false

def anyMentions (test : String → Bool) : List Ty → Bool
  | [] => false
  | type :: rest => type.mentions test || anyMentions test rest

end

def mentionsVariable (type : Ty) : Bool :=
  type.mentions fun _ => true

/-! ### Substitution and erasure -/

abbrev Substitution := List (String × Ty)

/-- The substitution of arguments for parameters; the last of parameters with one name counts. -/
def Substitution.of (parameters : List String) (arguments : List Ty) : Substitution :=
  (parameters.zip arguments).reverse

mutual

/-- The type with its variables replaced; variables that stand for nothing are kept. -/
def substitute (substitution : Substitution) : Ty → Ty
  | .variable name => (substitution.lookup name).getD (.variable name)
  | .class key arguments => .class key (substituteAll substitution arguments)
  | .array element => .array (element.substitute substitution)
  | other => other

def substituteAll (substitution : Substitution) : List Ty → List Ty
  | [] => []
  | type :: rest => type.substitute substitution :: substituteAll substitution rest

end

/-- The type without arguments, with every type variable replaced by the class of all objects. -/
def erasure : Ty → Ty
  | .variable _ | .wildcard => object
  | .class key _ => ofKey key
  | .array element => .array element.erasure
  | other => other

/-! ### Text -/

/-- Adds one segment of a nested name to those that messages show. A local class, whose segment
begins with a number, shows nothing of what encloses it; an anonymous class shows only that. -/
def shownSegment (shown : List (List Char)) (segment : List Char) : List (List Char) :=
  let named := segment.dropWhile Char.isDigit
  if segment.isEmpty then shown
  else if named.length = segment.length then shown ++ [segment]
  else if named.isEmpty then shown
  else [named]

/-- The name of a class in messages: without its package, and with dots between nested names. -/
def simpleName (key : String) : String :=
  let tail := (key.toList.reverse.takeWhile (· ≠ '.')).reverse
  let shown := (Text.pieces '$' tail).foldl shownSegment []
  String.ofList (List.intercalate ['.'] shown)

mutual

def display : Ty → String
  | .primitive kind => kind.name
  | .void => "void"
  | .null => "null"
  | .class key [] => simpleName key
  | .class key (first :: rest) =>
    simpleName key ++ "<" ++ first.display ++ displayMore "," rest ++ ">"
  | .array element => element.display ++ "[]"
  | .variable name => name
  | .wildcard => "?"
  | .unknown => "<unknown>"

def displayMore (separator : String) : List Ty → String
  | [] => ""
  | type :: rest => separator ++ type.display ++ displayMore separator rest

end

def displayList : List Ty → String
  | [] => ""
  | type :: rest => type.display ++ displayMore ", " rest

/-! Descriptors: what a class file knows of a type, as a short text. -/

def binaryName (key : String) : String :=
  Text.replaced '.' '/' key

/-- The descriptor of a type. Type variables and what is not known count as the class of all
objects. -/
def descriptor : Ty → String
  | .primitive kind => kind.letter.toString
  | .void => "V"
  | .array element => "[" ++ element.descriptor
  | .class key _ => s!"L{binaryName key};"
  | .variable _ | .wildcard | .null | .unknown => "Ljava/lang/Object;"

def methodDescriptor (parameters : List Ty) (result : Ty) : String :=
  "(" ++ String.join (parameters.map descriptor) ++ ")" ++ result.descriptor

end Ty

end JavaFrontEnd
