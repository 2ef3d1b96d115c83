/-
Constants: their values, the operations on them and the expressions that have one.
-/

import JavaFrontEnd.Number
import JavaFrontEnd.Tree

namespace JavaFrontEnd

/-! The values of constant expressions. Whole numbers of 32 and 64 bits wrap; characters take part
in arithmetic as whole numbers. -/

inductive Constant where
  | int (value : Int32)
  | long (value : Int64)
  | float (value : Float32)
  | double (value : Float)
  | boolean (value : Bool)
  | char (value : Char)
  | string (value : String)

namespace Constant

/-- The whole number that a value stands for; characters stand for their code points. -/
def integer? : Constant → Option Int
  | int value => some value.toInt
  | long value => some value.toInt
  | char value => some (value.toNat : Int)
  | _ => none

def boolean? : Constant → Option Bool
  | boolean value => some value
  | _ => none

def floating (value : Int) : Float :=
  (Int64.ofInt value).toFloat

def floating? : Constant → Option Float
  | float value => some value.toFloat
  | double value => some value
  | other => other.integer?.map floating

inductive Width where
  | int | long | float | double
  deriving DecidableEq, Repr

def Width.max : Width → Width → Width
  | .double, _ | _, .double => .double
  | .float, _ | _, .float => .float
  | .long, _ | _, .long => .long
  | .int, .int => .int

def width? : Constant → Option Width
  | int _ | char _ => some .int
  | long _ => some .long
  | float _ => some .float
  | double _ => some .double
  | boolean _ | string _ => none

def isString : Constant → Bool
  | string _ => true
  | _ => false

def display : Constant → String
  | int value => toString value.toInt
  | long value => toString value.toInt
  | float value => Number.displaySingle value
  | double value => Number.displayDouble value
  | boolean value => if value then "true" else "false"
  | char value => value.toString
  | string value => value

end Constant

end JavaFrontEnd

namespace JavaFrontEnd.Constant

/-! Operations on constant values. An operation that the language does not define on its operands,
or that would fail when run, has no result. -/

variable (operator : BinaryOperator)

/-! ### Casts -/

/-- The character whose code is given by the low 16 bits of a number. Half of a surrogate pair is
no character. -/
def lowCharacter? (value : Int) : Option Char :=
  let code := (value % 65536).toNat
  if code.isValidChar then some (Char.ofNat code) else none

/-- A number as a whole number of 32 bits; one with a point is cut off and held to the range. -/
def toInt32? (value : Constant) : Option Int32 :=
  match value.integer? with
  | some whole => some (Int32.ofInt whole)
  | none => value.floating?.map Float.toInt32

def toInt64? (value : Constant) : Option Int64 :=
  match value.integer? with
  | some whole => some (Int64.ofInt whole)
  | none => value.floating?.map Float.toInt64

def cast? (type : String) (value : Constant) : Option Constant :=
  match type with
  | "int" => value.toInt32?.map .int
  | "long" => value.toInt64?.map .long
  | "short" => value.toInt32?.map fun whole => .int whole.toInt16.toInt32
  | "byte" => value.toInt32?.map fun whole => .int whole.toInt8.toInt32
  | "char" => value.toInt64?.bind fun whole => (lowCharacter? whole.toInt).map .char
  | "float" => value.floating?.map fun number => .float number.toFloat32
  | "double" => value.floating?.map .double
  | "boolean" => value.boolean?.map .boolean
  | "String" | "java.lang.String" => if value.isString then some value else none
  | _ => none

/-! ### Operators with one operand -/

def promoted : Constant → Constant
  | char value => .int (Int32.ofNat value.toNat)
  | other => other

def unary? (operator : UnaryOperator) (operand : Constant) : Option Constant :=
  match operator, operand.promoted with
  | .plus, .boolean _ | .plus, .string _ => none
  | .plus, number => some number
  | .minus, .int value => some (.int (-value))
  | .minus, .long value => some (.long (-value))
  | .minus, .float value => some (.float (-value))
  | .minus, .double value => some (.double (-value))
  | .not, .boolean value => some (.boolean !value)
  | .bitNot, .int value => some (.int (~~~value))
  | .bitNot, .long value => some (.long (~~~value))
  | _, _ => none

/-! ### Operators with two operands -/

def booleanBinary? (left right : Bool) : Option Constant :=
  match operator with
  | .logicalAnd | .and => some (.boolean (left && right))
  | .logicalOr | .or => some (.boolean (left || right))
  | .xor | .notEqual => some (.boolean (left != right))
  | .equal => some (.boolean (left == right))
  | _ => none

/-- Shifts of 32 bits; only the low five bits of the distance count. -/
def shiftInt (value : Int32) (distance : Int) : Int32 :=
  let bits := (distance % 32).toNat
  match operator with
  | .leftShift => value <<< Int32.ofNat bits
  | .rightShift => value >>> Int32.ofNat bits
  | _ => (value.toUInt32 >>> UInt32.ofNat bits).toInt32

/-- Shifts of 64 bits; only the low six bits of the distance count. -/
def shiftLong (value : Int64) (distance : Int) : Int64 :=
  let bits := (distance % 64).toNat
  match operator with
  | .leftShift => value <<< Int64.ofNat bits
  | .rightShift => value >>> Int64.ofNat bits
  | _ => (value.toUInt64 >>> UInt64.ofNat bits).toInt64

def isShift : BinaryOperator → Bool
  | .leftShift | .rightShift | .unsignedRightShift => true
  | _ => false

/-- Shifts. The left operand alone decides the type of the result. -/
def shift? (left right : Constant) : Option Constant := do
  let distance ← right.integer?
  match left.promoted with
  | .int value => some (.int (shiftInt operator value distance))
  | .long value => some (.long (shiftLong operator value distance))
  | _ => none

def floatingArithmetic? (left right : Float) : Option Float :=
  match operator with
  | .add => some (left + right)
  | .subtract => some (left - right)
  | .multiply => some (left * right)
  | .divide => some (left / right)
  | .remainder => some (Number.remainder left right)
  | _ => none

def comparison? {α : Type} [LT α] [LE α] [BEq α] [DecidableLT α] [DecidableLE α]
    (left right : α) : Option Bool :=
  match operator with
  | .less => some (left < right)
  | .lessEqual => some (left ≤ right)
  | .greater => some (right < left)
  | .greaterEqual => some (right ≤ left)
  | .equal => some (left == right)
  | .notEqual => some (left != right)
  | _ => none

/-- Operators on two numbers of which one has a point. Single precision is computed in double
precision and rounded at the end. -/
def floatingBinary? (single : Bool) (left right : Float) :
    Option Constant :=
  match comparison? operator left right with
  | some answer => some (.boolean answer)
  | none =>
    (floatingArithmetic? operator left right).map fun result =>
      if single then .float result.toFloat32 else .double result

/-- Arithmetic on whole numbers. Division rounds toward zero and has no result for a divisor of
zero. -/
def wholeArithmetic? {α : Type} [Add α] [Sub α] [Mul α] [Div α] [Mod α] [AndOp α] [OrOp α]
    [XorOp α] [OfNat α 0] [DecidableEq α] (left right : α) : Option α :=
  match operator with
  | .add => some (left + right)
  | .subtract => some (left - right)
  | .multiply => some (left * right)
  | .divide => if right = 0 then none else some (left / right)
  | .remainder => if right = 0 then none else some (left % right)
  | .and => some (left &&& right)
  | .or => some (left ||| right)
  | .xor => some (left ^^^ right)
  | _ => none

def integerBinary? (wide : Bool) (left right : Int) :
    Option Constant :=
  match comparison? operator left right with
  | some answer => some (.boolean answer)
  | none =>
    if wide then (wholeArithmetic? operator (Int64.ofInt left) (Int64.ofInt right)).map .long
    else (wholeArithmetic? operator (Int32.ofInt left) (Int32.ofInt right)).map .int

def numericBinary? (left right : Constant) : Option Constant := do
  match (← left.width?).max (← right.width?) with
  | .double => floatingBinary? operator false (← left.floating?) (← right.floating?)
  | .float => floatingBinary? operator true (← left.floating?) (← right.floating?)
  | .long => integerBinary? operator true (← left.integer?) (← right.integer?)
  | .int => integerBinary? operator false (← left.integer?) (← right.integer?)

/-- The result of an operator with two operands. A text on either side of `+` makes it a
concatenation; texts have no other operator. -/
def binary? (left right : Constant) : Option Constant :=
  if operator = .add && (left.isString || right.isString) then
    some (.string (left.display ++ right.display))
  else
    match left, right with
    | .boolean first, .boolean second => booleanBinary? operator first second
    | _, _ =>
      if isShift operator then shift? operator left right else numericBinary? operator left right

end JavaFrontEnd.Constant

namespace JavaFrontEnd

/-! Constant expressions and their values. Whether an expression is constant depends on its form and
on its names alone; its value, where there is one, is found by carrying out its operators. -/

def Literal.constant? : Literal → Option Constant
  | .int value => some (.int (Int32.ofInt value))
  | .long value => some (.long (Int64.ofInt value))
  | .float value => some (.float value.toFloat32)
  | .double value => some (.double value)
  | .boolean value => some (.boolean value)
  | .char value => some (.char value)
  | .string value => some (.string value)
  | .null => none

def WrittenType.isConstantTarget (type : WrittenType) : Bool :=
  type.isPrimitive || type.name == "String" || type.name == "java.lang.String"

namespace Expression

def isConstant (isConstantName : String → Bool) : Expression → Bool
  | .literal value _ => value.constant?.isSome
  | .name spelled _ _ => isConstantName spelled
  | .field target selected nameSpan id span =>
    (qualifiedName? (.field target selected nameSpan id span)).any isConstantName
  | .parenthesized inner _ => inner.isConstant isConstantName
  | .unary operator operand _ => !operator.isIncrement && operand.isConstant isConstantName
  | .binary _ left right _ => left.isConstant isConstantName && right.isConstant isConstantName
  | .conditional condition yes no _ =>
    condition.isConstant isConstantName && yes.isConstant isConstantName &&
      no.isConstant isConstantName
  | .cast target _ operand _ => target.isConstantTarget && operand.isConstant isConstantName
  | _ => false

/-- The value of an expression, given the values of simple and dotted names. Both branches of a
conditional must have a value. -/
def constant? (lookup : String → Option Constant) : Expression → Option Constant
  | .literal value _ => value.constant?
  | .name spelled _ _ => lookup spelled
  | .field target selected nameSpan id span =>
    (qualifiedName? (.field target selected nameSpan id span)).bind lookup
  | .parenthesized inner _ => inner.constant? lookup
  | .unary operator operand _ => (operand.constant? lookup).bind (Constant.unary? operator)
  | .binary operator left right _ => do
    Constant.binary? operator (← left.constant? lookup) (← right.constant? lookup)
  | .conditional condition yes no _ => do
    let answer ← (← condition.constant? lookup).boolean?
    let ifTrue ← yes.constant? lookup
    let ifFalse ← no.constant? lookup
    some (if answer then ifTrue else ifFalse)
  | .cast target _ operand _ => do
    let value ← operand.constant? lookup
    if 0 < target.dimensions then none else Constant.cast? target.name value
  | _ => none

def closedConstant? (expression : Expression) : Option Constant :=
  expression.constant? fun _ => none

def isAlwaysTrue (condition : Expression) : Bool :=
  (condition.closedConstant?.bind Constant.boolean?).getD false

end Expression

end JavaFrontEnd
