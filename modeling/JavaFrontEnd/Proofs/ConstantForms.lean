/-
What the form of a constant expression says and what its value says. An expression that has a value
is constant (`Expression.isConstant_of_constant?`). The type that it is given is that of its value,
unless a conditional expression chooses between values of different kinds
(`Expression.closedConstant?_typed`).
-/

import JavaFrontEnd.Attribution

namespace JavaFrontEnd

/-! ### Constancy -/

theorem Constant.unary?_of_isIncrement {operator : UnaryOperator}
    (isIncrement : operator.isIncrement = true) (operand : Constant) :
    unary? operator operand = none := by
  unfold unary?
  cases operator <;> cases isIncrement <;> rfl

theorem WrittenType.isConstantTarget_of_cast? {target : WrittenType} {value result : Constant}
    (isFlat : target.dimensions = 0) (isCast : Constant.cast? target.name value = some result) :
    target.isConstantTarget = true := by
  unfold isConstantTarget isPrimitive
  rw [isFlat]
  unfold Constant.cast? at isCast
  split at isCast <;> simp_all [primitiveNames]

namespace Expression

/-- An expression that has a value is constant, if the names that have a value are taken to be. -/
theorem isConstant_of_constant? (lookup : String → Option Constant) :
    ∀ (expression : Expression) (value : Constant), expression.constant? lookup = some value →
      expression.isConstant (fun spelled => (lookup spelled).isSome) = true
  | .literal _ _, _, isValue => Option.isSome_of_eq_some isValue
  | .name _ _ _, _, isValue => Option.isSome_of_eq_some isValue
  | .field _ _ _ _ _, _, isValue => by
    obtain ⟨spelled, isSpelled, isLooked⟩ := Option.bind_eq_some_iff.mp isValue
    rw [isConstant, isSpelled]
    exact Option.isSome_of_eq_some isLooked
  | .parenthesized inner _, value, isValue => isConstant_of_constant? lookup inner value isValue
  | .unary operator operand _, value, isValue => by
    obtain ⟨given, isGiven, isResult⟩ := Option.bind_eq_some_iff.mp isValue
    rw [isConstant, isConstant_of_constant? lookup operand given isGiven]
    cases isIncrement : operator.isIncrement with
    | false => rfl
    | true => rw [Constant.unary?_of_isIncrement isIncrement] at isResult; cases isResult
  | .binary _ left right _, value, isValue => by
    obtain ⟨first, isFirst, isRest⟩ := Option.bind_eq_some_iff.mp isValue
    obtain ⟨second, isSecond, _⟩ := Option.bind_eq_some_iff.mp isRest
    rw [isConstant, isConstant_of_constant? lookup left first isFirst,
      isConstant_of_constant? lookup right second isSecond]
    rfl
  | .conditional condition yes no _, value, isValue => by
    obtain ⟨given, isGiven, isRest⟩ := Option.bind_eq_some_iff.mp isValue
    obtain ⟨_, _, isRest⟩ := Option.bind_eq_some_iff.mp isRest
    obtain ⟨first, isFirst, isRest⟩ := Option.bind_eq_some_iff.mp isRest
    obtain ⟨second, isSecond, _⟩ := Option.bind_eq_some_iff.mp isRest
    rw [isConstant, isConstant_of_constant? lookup condition given isGiven,
      isConstant_of_constant? lookup yes first isFirst,
      isConstant_of_constant? lookup no second isSecond]
    rfl
  | .cast target _ operand _, value, isValue => by
    obtain ⟨given, isGiven, isCast⟩ := Option.bind_eq_some_iff.mp isValue
    split at isCast
    · cases isCast
    · rw [isConstant, isConstant_of_constant? lookup operand given isGiven,
        WrittenType.isConstantTarget_of_cast? (by omega) isCast]
      rfl

/-- Only `Limits.COUNT` has a value. -/
def countOnly (spelled : String) : Option Constant :=
  if spelled = "Limits.COUNT" then some (.int 3) else none

/-- `(char) -Limits.COUNT` -/
def countCast : Expression :=
  let span := Span.point .start
  .cast ⟨"char", [], false, [], 0, span⟩ []
    (.unary .minus (.field (.name "Limits" 0 span) "COUNT" span 1 span) span) span

theorem isConstant_of_constant?_countCast :
    countCast.isConstant (fun spelled => (countOnly spelled).isSome) = true :=
  isConstant_of_constant? countOnly countCast (.char (Char.ofNat 65533)) rfl

end Expression

/-! ### Types -/

/-- The type as which constants of a type are kept. -/
def Ty.kept : Ty → Ty
  | .primitive .byte | .primitive .short => .int
  | other => other

namespace Constant

/-- The type of a constant; those of fewer than 32 bits are kept as integers. -/
def type : Constant → Ty
  | .boolean _ => .boolean
  | .char _ => .primitive .char
  | .int _ => .int
  | .long _ => .primitive .long
  | .float _ => .primitive .float
  | .double _ => .primitive .double
  | .string _ => .string

def Width.primitive : Width → Primitive
  | .int => .int
  | .long => .long
  | .float => .float
  | .double => .double

/-- The operator yields a truth value, whatever its operands are. -/
def compares : BinaryOperator → Bool
  | .less | .lessEqual | .greater | .greaterEqual | .equal | .notEqual => true
  | .logicalAnd | .logicalOr => true
  | _ => false

variable {first second : Ty} {one other : Width} {left right value result : Constant}
  {operator : BinaryOperator}

theorem kept_type (value : Constant) : value.type.kept = value.type := by
  cases value <;> rfl

theorem eq_or_small (isType : first.kept = value.type) :
    first = value.type ∨ ∃ kind ∈ [Primitive.byte, .short], first = .primitive kind ∧
      value.type = .int := by
  unfold Ty.kept at isType
  split at isType
  · exact .inr ⟨.byte, by decide, rfl, isType.symm⟩
  · exact .inr ⟨.short, by decide, rfl, isType.symm⟩
  · exact .inl isType

theorem isString_eq (isType : first.kept = value.type) : first.isString = value.isString := by
  unfold Ty.kept at isType
  split at isType <;> cases value <;> cases isType <;> rfl

theorem exists_primitive (isType : first.kept = value.type) (isOne : value.width? = some one) :
    ∃ kind, first = .primitive kind ∧ kind.isNumeric = true ∧
      kind.promote .int = one.primitive := by
  unfold Ty.kept at isType
  split at isType <;> cases value <;> cases isType <;> cases isOne <;> exact ⟨_, rfl, rfl, rfl⟩

theorem arithmetic_eq (isFirst : first.kept = left.type) (isSecond : second.kept = right.type)
    (isOne : left.width? = some one) (isOther : right.width? = some other) :
    Ty.arithmetic first second = .primitive (one.max other).primitive := by
  have promoted (kind another : Primitive) : (kind.promote another).promote .int =
      (kind.promote .int).promote (another.promote .int) := by
    cases kind <;> cases another <;> rfl
  obtain ⟨kind, rfl, isNumeric, isWidth⟩ := exists_primitive isFirst isOne
  obtain ⟨another, rfl, isNumericToo, isWidthToo⟩ := exists_primitive isSecond isOther
  show (if kind.isNumeric && another.isNumeric then
    Ty.primitive ((kind.promote another).promote .int) else .unknown) = _
  rw [isNumeric, isNumericToo, promoted, isWidth, isWidthToo]
  cases one <;> cases other <;> rfl

theorem floatingBinary?_type {single : Bool} {a b : Float}
    (isResult : floatingBinary? operator single a b = some result) : result.type =
      if compares operator then .boolean else .primitive (if single then .float else .double) := by
  cases operator <;> cases isResult <;> cases single <;> rfl

theorem integerBinary?_type {wide : Bool} {a b : Int}
    (isResult : integerBinary? operator wide a b = some result) : result.type =
      if compares operator then .boolean else .primitive (if wide then .long else .int) := by
  unfold integerBinary? at isResult
  split at isResult
  next isAnswer => cases operator <;> cases isAnswer <;> cases isResult <;> rfl
  cases wide
  all_goals
    obtain ⟨_, isSome, rfl⟩ := Option.map_eq_some_iff.mp isResult
    cases operator <;> first | rfl | cases isSome

theorem numericBinary?_type (isOne : left.width? = some one) (isOther : right.width? = some other)
    (isResult : numericBinary? operator left right = some result) : result.type =
      if compares operator then .boolean else .primitive (one.max other).primitive := by
  unfold numericBinary? at isResult
  rw [isOne, isOther] at isResult
  cases isWidth : one.max other
  all_goals
    simp only [Option.bind_eq_bind, Option.bind_some, isWidth] at isResult
    obtain ⟨_, _, isResult⟩ := Option.bind_eq_some_iff.mp isResult
    obtain ⟨_, _, isResult⟩ := Option.bind_eq_some_iff.mp isResult
  · exact integerBinary?_type isResult
  · exact integerBinary?_type isResult
  · exact floatingBinary?_type isResult
  · exact floatingBinary?_type isResult

theorem unary?_type {operator : UnaryOperator} (isResult : unary? operator value = some result)
    (isType : first.kept = value.type) : Ty.unary operator first = result.type := by
  unfold Ty.kept at isType
  split at isType <;> cases value <;> cases isType <;> cases operator <;> cases isResult <;> rfl

theorem shift?_type (shifts : isShift operator = true) (isType : first.kept = left.type)
    (isResult : shift? operator left right = some result) :
    Ty.binary operator first second = result.type := by
  obtain ⟨_, _, isResult⟩ := Option.bind_eq_some_iff.mp isResult
  have isWhole : Ty.promoted Primitive.isIntegral first = result.type := by
    unfold Ty.kept at isType
    split at isType <;> cases left <;> cases isType <;> cases isResult <;> rfl
  cases operator with
  | leftShift | rightShift | unsignedRightShift => exact isWhole
  | _ => cases shifts

theorem binary?_type (isResult : binary? operator left right = some result)
    (isFirst : first.kept = left.type) (isSecond : second.kept = right.type) :
    Ty.binary operator first second = result.type := by
  unfold binary? at isResult
  split at isResult
  next concatenates =>
    obtain ⟨isAdd, isText⟩ := Bool.and_eq_true_iff.mp concatenates
    rw [← isString_eq isFirst, ← isString_eq isSecond] at isText
    cases isResult
    rw [of_decide_eq_true isAdd]
    exact if_pos isText
  split at isResult
  · obtain rfl | ⟨_, _, _, noTruth⟩ := eq_or_small isFirst
    obtain rfl | ⟨_, _, _, noTruth⟩ := eq_or_small isSecond
    · cases operator <;> cases isResult <;> rfl
    all_goals cases noTruth
  split at isResult
  next shifts => exact shift?_type shifts isFirst isResult
  next noShift =>
    obtain ⟨one, isOne, isRest⟩ := Option.bind_eq_some_iff.mp isResult
    obtain ⟨other, isOther, _⟩ := Option.bind_eq_some_iff.mp isRest
    rw [numericBinary?_type isOne isOther isResult, ← arithmetic_eq isFirst isSecond isOne isOther]
    obtain ⟨kind, rfl, isNumeric, _⟩ := exists_primitive isFirst isOne
    obtain ⟨_, rfl, _, _⟩ := exists_primitive isSecond isOther
    cases operator with
    | and | or | xor => cases kind <;> cases isNumeric <;> rfl
    | leftShift | rightShift | unsignedRightShift => cases noShift rfl
    | _ => rfl

theorem cast?_type {target : String} (isCast : cast? target value = some result) :
    (((Primitive.ofName? target).map Ty.primitive).getD .string).kept = result.type := by
  unfold cast? at isCast
  split at isCast
  case h_5 =>
    obtain ⟨_, _, isCast⟩ := Option.bind_eq_some_iff.mp isCast
    obtain ⟨_, _, rfl⟩ := Option.map_eq_some_iff.mp isCast
    rfl
  case h_9 | h_10 =>
    split at isCast
    next isText =>
      cases isCast
      cases value <;> cases isText
      rfl
    · cases isCast
  case h_11 => cases isCast
  all_goals
    obtain ⟨_, _, rfl⟩ := Option.map_eq_some_iff.mp isCast
    rfl

/-! ### Choices -/

/-- The first of two values is of the type of the other, or of the type in which an operator
computes with the two. -/
def Prevails (chosen other : Constant) : Prop :=
  chosen.type = other.type ∨ Ty.arithmetic chosen.type other.type = chosen.type

theorem choice_eq_arithmetic (path : ClassPath) (isFirst : first.kept = left.type)
    (isSecond : second.kept = right.type) (different : first ≠ second) :
    Ty.choice path first second = Ty.arithmetic left.type right.type := by
  obtain rfl | ⟨kind, isSmall, rfl, isInt⟩ := eq_or_small isFirst <;>
    obtain rfl | ⟨another, isSmallToo, rfl, isIntToo⟩ := eq_or_small isSecond
  · cases left <;> cases right <;> first | rfl | exact absurd rfl different
  · rw [isIntToo]
    simp at isSmallToo
    rcases isSmallToo with rfl | rfl <;> cases left <;> rfl
  · rw [isInt]
    simp at isSmall
    rcases isSmall with rfl | rfl <;> cases right <;> rfl
  · rw [isInt, isIntToo]
    simp at isSmall isSmallToo
    rcases isSmall with rfl | rfl <;> rcases isSmallToo with rfl | rfl <;>
      first | rfl | exact absurd rfl different

theorem arithmetic_comm (first second : Ty) :
    Ty.arithmetic first second = Ty.arithmetic second first := by
  unfold Ty.arithmetic
  cases first.unboxed? <;> cases second.unboxed?
  case some.some kind another => cases kind <;> cases another <;> rfl
  all_goals rfl

theorem choice_type (path : ClassPath) (isFirst : first.kept = left.type)
    (isSecond : second.kept = right.type) (takesFirst : Bool)
    (prevails : if takesFirst then left.Prevails right else right.Prevails left) :
    (Ty.choice path first second).kept = (if takesFirst then left else right).type := by
  by_cases same : first = second
  · have sameType := isFirst.symm.trans ((congrArg _ same).trans isSecond)
    rw [show Ty.choice path first second = first from if_pos same, isFirst]
    cases takesFirst
    · exact sameType
    · rfl
  · have ofSame (sameType : left.type = right.type) :
        Ty.arithmetic left.type right.type = left.type := by
      obtain rfl | ⟨_, _, rfl, isInt⟩ := eq_or_small isFirst
      · obtain rfl | ⟨_, _, rfl, isInt⟩ := eq_or_small isSecond
        · cases same sameType
        · rw [sameType, isInt]; rfl
      · rw [← sameType, isInt]; rfl
    rw [choice_eq_arithmetic path isFirst isSecond same]
    cases takesFirst
    · obtain sameType | isWider := prevails
      · rw [ofSame sameType.symm, kept_type, ← sameType]; rfl
      · rw [arithmetic_comm, isWider, kept_type]; rfl
    · rw [prevails.elim ofSame id, kept_type]; rfl

end Constant

namespace Expression

/-- The casts go to the types that their names say, and of the values between which a conditional
expression chooses it takes one that prevails. -/
def Even (bindings : Bindings) : Expression → Prop
  | .parenthesized inner _ | .unary _ inner _ => inner.Even bindings
  | .binary _ left right _ => left.Even bindings ∧ right.Even bindings
  | .cast target _ operand _ => operand.Even bindings ∧
    bindings.typeOf target = ((Primitive.ofName? target.name).map Ty.primitive).getD .string
  | .conditional condition yes no _ => yes.Even bindings ∧ no.Even bindings ∧
      ∀ first ∈ yes.closedConstant?, ∀ second ∈ no.closedConstant?,
        if condition.isAlwaysTrue then first.Prevails second else second.Prevails first
  | _ => True

open Attributor

/-- An expression that has a value is given the type of the value, if each conditional expression
in it takes a value that prevails. -/
theorem closedConstant?_typed (context : UnitContext) (bindings : Bindings) :
    ∀ (expression : Expression) (value : Constant),
    expression.closedConstant? = some value → expression.Even bindings →
    ∀ (place : Place) (expected : Option Ty) (state : AttributionState),
      ((attributeExpression context bindings place expected expression).run state).1.kept =
        value.type
  | .literal written _, _, isValue, _ => by
    cases written <;> cases isValue <;> exact fun _ _ _ => rfl
  | .parenthesized inner _, value, isValue, even => fun place _ state =>
    closedConstant?_typed context bindings inner value isValue even place none state
  | .unary operator operand _, value, isValue, even => fun place _ state => by
    obtain ⟨given, isGiven, isResult⟩ := Option.bind_eq_some_iff.mp isValue
    rw [← value.kept_type, ← Constant.unary?_type isResult
      (closedConstant?_typed context bindings operand given isGiven even place none state)]
    cases operator <;> rfl
  | .binary operator left right _, value, isValue, even => fun place _ state => by
    obtain ⟨first, isFirst, isRest⟩ := Option.bind_eq_some_iff.mp isValue
    obtain ⟨second, isSecond, isResult⟩ := Option.bind_eq_some_iff.mp isRest
    rw [← value.kept_type, ← Constant.binary?_type isResult
      (closedConstant?_typed context bindings left first isFirst even.1 place none state)
      (closedConstant?_typed context bindings right second isSecond even.2 place none _)]
    rfl
  | .cast target _ operand _, value, isValue, even => fun _ _ _ => by
    obtain ⟨given, isGiven, isCast⟩ := Option.bind_eq_some_iff.mp isValue
    split at isCast
    · cases isCast
    · rw [← Constant.cast?_type isCast, ← even.2]
      rfl
  | .conditional condition yes no _, value, isValue, even => fun place _ state => by
    obtain ⟨given, isGiven, isRest⟩ := Option.bind_eq_some_iff.mp isValue
    obtain ⟨answer, isAnswer, isRest⟩ := Option.bind_eq_some_iff.mp isRest
    obtain ⟨first, isFirst, isRest⟩ := Option.bind_eq_some_iff.mp isRest
    obtain ⟨second, isSecond, isRest⟩ := Option.bind_eq_some_iff.mp isRest
    obtain rfl := Option.some.inj isRest
    have isKnown : condition.isAlwaysTrue = answer := by
      rw [isAlwaysTrue, closedConstant?, isGiven, Option.bind_some, isAnswer, Option.getD_some]
    have prevails := even.2.2 first isFirst second isSecond
    rw [isKnown] at prevails
    exact Constant.choice_type context.path
      (closedConstant?_typed context bindings yes first isFirst even.1 place none _)
      (closedConstant?_typed context bindings no second isSecond even.2.1 place none _) answer
      prevails
  | .field _ _ _ _ _, _, isValue, _ => by
    obtain ⟨_, _, isNone⟩ := Option.bind_eq_some_iff.mp isValue
    cases isNone

/-- `answer ? 1 : 2L` -/
def numberChoice (answer : Bool) : Expression :=
  let span := Span.point .start
  .conditional (.literal (.boolean answer) span) (.literal (.int 1) span) (.literal (.long 2) span)
    span

def emptyContext : UnitContext :=
  let path : ClassPath := ⟨fun _ => none, fun _ => false⟩
  { configuration := {}, declared := .ofUnits [] path, names := ⟨none, [], path⟩, file := "" }

def choiceType (answer : Bool) : Ty :=
  ((attributeExpression emptyContext {} {} none (numberChoice answer)).run { symbols := #[] }).1

/-- `false ? 1 : 2L` is of the type of its value, and `true ? 1 : 2L` is not. -/
theorem closedConstant?_typed_numberChoice :
    ((numberChoice false).closedConstant?.map Constant.type = some (.primitive .long) ∧
      (choiceType false).kept = .primitive .long) ∧
    (numberChoice true).closedConstant?.map Constant.type = some .int ∧
      (choiceType true).kept ≠ .int := by
  have even : (numberChoice false).Even {} := by
    refine ⟨trivial, trivial, ?_⟩
    rintro _ ⟨⟩ _ ⟨⟩
    exact .inr rfl
  exact ⟨⟨rfl, closedConstant?_typed emptyContext {} _ (.long 2) rfl even ..⟩, rfl,
    fun isInt => by cases isInt⟩

end Expression

end JavaFrontEnd
