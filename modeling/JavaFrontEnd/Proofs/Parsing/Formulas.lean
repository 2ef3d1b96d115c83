/-
Formulas: the expressions made of names, binary operators, the prefix operators that change nothing,
and parentheses, written as the sequences of their tokens. At an opening parenthesis a parser looks
ahead twice, for a cast and for a lambda expression. Both depend on what follows a closing
parenthesis, and in a formula this is an operator, another closing parenthesis or the end, so that
neither is ever found.
-/

import JavaFrontEnd.Proofs.Parsing.Units

namespace JavaFrontEnd

open List

open Grammar

/-! ### Formulas and their tokens -/

def BinaryOperator.kind : BinaryOperator → TokenKind
  | add => .plus
  | subtract => .minus
  | multiply => .star
  | divide => .slash
  | remainder => .percent
  | less => .less
  | lessEqual => .lessEqual
  | greater => .greater
  | greaterEqual => .greaterEqual
  | equal => .equal
  | notEqual => .notEqual
  | and => .amp
  | or => .pipe
  | xor => .caret
  | leftShift => .leftShift
  | rightShift => .rightShift
  | unsignedRightShift => .unsignedRightShift
  | logicalAnd => .andAnd
  | logicalOr => .orOr

def UnaryOperator.written : UnaryOperator → TokenKind × String
  | plus => (.plus, "+")
  | minus => (.minus, "-")
  | not => (.bang, "!")
  | bitNot => (.tilde, "~")
  | preIncrement | postIncrement => (.increment, "++")
  | preDecrement | postDecrement => (.decrement, "--")

/-- An expression of names, operators and parentheses, without the places where its parts stand. -/
inductive Formula where
  | name (word : String)
  | binary (operator : BinaryOperator) (left right : Formula)
  | unary (operator : UnaryOperator) (operand : Formula)
  | parenthesized (inner : Formula)
  deriving DecidableEq, Repr

/-- The formula that an expression is, if it is one: spans and numbers are dropped. -/
def Expression.formula? : Expression → Option Formula
  | .name word _ _ => some (.name word)
  | .binary operator left right _ => do
    let left ← left.formula?
    let right ← right.formula?
    some (.binary operator left right)
  | .unary operator operand _ => operand.formula?.map (.unary operator)
  | .parenthesized inner _ => inner.formula?.map .parenthesized
  | _ => none

def Token.written (token : Token) : TokenKind × String :=
  (token.kind, token.lexeme)

namespace Formula

def size : Formula → Nat
  | name _ => 1
  | binary _ left right => left.size + right.size + 1
  | unary _ operand => operand.size + 1
  | parenthesized inner => inner.size + 1

def written : Formula → List (TokenKind × String)
  | name word => [(.identifier, word)]
  | binary operator left right =>
    left.written ++ (operator.kind, operator.symbol) :: right.written
  | unary operator operand => operator.written :: operand.written
  | parenthesized inner => (.leftParen, "(") :: (inner.written ++ [(.rightParen, ")")])

/-- How tightly the operator at the top of a formula binds; where there is no binary operator, more
tightly than any. -/
def precedence : Formula → Nat
  | binary operator _ _ => operator.precedence
  | name _ | unary _ _ | parenthesized _ => 11

def isOperand : Formula → Bool
  | binary .. => false
  | name _ | unary _ _ | parenthesized _ => true

/-- A formula is well formed: no name is one that some level reserves, its prefix operators change
nothing, and each operand that needs parentheses has them. A left operand may bind as tightly as its
operator, a right operand has to bind more tightly, and the operand of a prefix operator has no
binary operator at its top. -/
def WellFormed : Formula → Prop
  | name word => word ∉ ["assert", "enum", "_"]
  | binary operator left right =>
    operator.precedence ≤ left.precedence ∧ operator.precedence < right.precedence ∧
      left.WellFormed ∧ right.WellFormed
  | unary operator operand => !operator.isIncrement ∧ operand.isOperand ∧ operand.WellFormed
  | parenthesized inner => inner.WellFormed

instance decidableWellFormed : (formula : Formula) → Decidable formula.WellFormed
  | name word => inferInstanceAs (Decidable (word ∉ ["assert", "enum", "_"]))
  | binary operator left right =>
    have := decidableWellFormed left
    have := decidableWellFormed right
    inferInstanceAs (Decidable (operator.precedence ≤ left.precedence ∧
      operator.precedence < right.precedence ∧ left.WellFormed ∧ right.WellFormed))
  | unary operator operand =>
    have := decidableWellFormed operand
    inferInstanceAs (Decidable (!operator.isIncrement ∧ operand.isOperand ∧ operand.WellFormed))
  | parenthesized inner => decidableWellFormed inner

/-- How many binary operators are read one after the other at the top of a formula, along its left
operands. -/
def turns : Formula → Nat
  | binary _ left _ => left.turns + 1
  | name _ | unary _ _ | parenthesized _ => 0

theorem turns_lt_size : ∀ formula : Formula, formula.turns < formula.size
  | name _ => Nat.zero_lt_one
  | binary _ left right => by
    have := turns_lt_size left
    simp only [turns, size]
    omega
  | unary _ _ => Nat.succ_pos _
  | parenthesized _ => Nat.succ_pos _

inductive Spelled : Formula → List Token → Prop
  | name {token : Token} (isName : token.kind = .identifier) : Spelled (.name token.lexeme) [token]
  | binary {operator : BinaryOperator} {left right : Formula} {before after : List Token}
      {token : Token} (isOperator : token.kind = operator.kind) (spellsLeft : Spelled left before)
      (spellsRight : Spelled right after) :
      Spelled (.binary operator left right) (before ++ token :: after)
  | unary {operator : UnaryOperator} {operand : Formula} {token : Token} {tokens : List Token}
      (isOperator : token.kind = operator.written.1) (spellsOperand : Spelled operand tokens) :
      Spelled (.unary operator operand) (token :: tokens)
  | parenthesized {inner : Formula} {opening closing : Token} {tokens : List Token}
      (opens : opening.kind = .leftParen) (closes : closing.kind = .rightParen)
      (spellsInner : Spelled inner tokens) :
      Spelled (.parenthesized inner) (opening :: (tokens ++ [closing]))

theorem spelled_of_written (formula : Formula) (tokens : List Token)
    (written : tokens.map Token.written = formula.written) : Spelled formula tokens := by
  induction formula generalizing tokens with
  | name word =>
    obtain ⟨token, rfl, saying⟩ := map_eq_singleton_iff.1 written
    obtain ⟨isName, rfl⟩ := Prod.mk.inj saying
    exact .name isName
  | binary operator left right readLeft readRight =>
    obtain ⟨before, others, rfl, saysLeft, saysOthers⟩ := map_eq_append_iff.1 written
    obtain ⟨token, after, rfl, saying, saysRight⟩ := map_eq_cons_iff.1 saysOthers
    exact .binary (Prod.mk.inj saying).1 (readLeft before saysLeft) (readRight after saysRight)
  | unary operator operand readOperand =>
    obtain ⟨token, after, rfl, saying, saysOperand⟩ := map_eq_cons_iff.1 written
    exact .unary (congrArg Prod.fst saying) (readOperand after saysOperand)
  | parenthesized inner readInner =>
    obtain ⟨opening, others, rfl, saysOpening, saysOthers⟩ := map_eq_cons_iff.1 written
    obtain ⟨tokens, last, rfl, saysInner, saysLast⟩ := map_eq_append_iff.1 saysOthers
    obtain ⟨closing, rfl, saysClosing⟩ := map_eq_singleton_iff.1 saysLast
    exact .parenthesized (Prod.mk.inj saysOpening).1 (Prod.mk.inj saysClosing).1
      (readInner tokens saysInner)

/-! ### What stands in a formula -/

inductive Ends : TokenKind → Prop
  | closing : Ends .rightParen
  | semicolon : Ends .semicolon
  | operator (operator : BinaryOperator) : Ends operator.kind

/-- A token that ends a formula continues nothing that can be read before it. -/
structure Apart (kind : TokenKind) : Prop where
  ne_endOfInput : kind ≠ .endOfInput
  ne_arrow : kind ≠ .arrow
  ne_leftParen : kind ≠ .leftParen
  ne_instanceOf : kind ≠ .instanceOf
  ne_question : kind ≠ .question
  continuesPrimary : continuesPrimary kind = false
  assignmentOperator? : assignmentOperator? kind = none
  startsCastOperand : Lookahead.startsCastOperand kind = false

theorem Ends.apart (ends : Ends kind) : Apart kind := by
  cases ends with
  | closing | semicolon => constructor <;> decide
  | operator operator => cases operator <;> constructor <;> decide

theorem Ends.ne_nil (ends : Ends (Lookahead.kind rest)) : rest ≠ [] :=
  fun isNil => ends.apart.ne_endOfInput (congrArg Lookahead.kind isNil)

theorem binaryOperator?_kind (operator : BinaryOperator) :
    binaryOperator? operator.kind = some operator := by
  cases operator <;> rfl

/-- A token that begins neither an annotation nor a primitive type and is not the end. -/
structure Plain (kind : TokenKind) : Prop where
  ne_endOfInput : kind ≠ .endOfInput
  ne_at : kind ≠ .at
  isPrimitiveType : ¬ kind.isPrimitiveType

structure Bare (kind : TokenKind) : Prop extends Plain kind where
  ne_leftParen : kind ≠ .leftParen
  ne_rightParen : kind ≠ .rightParen

theorem bare_identifier : Bare .identifier := by
  repeat' constructor
  all_goals decide

theorem bare_operator (operator : BinaryOperator) : Bare operator.kind := by
  cases operator <;> repeat' constructor
  all_goals decide

theorem bare_sign (operator : UnaryOperator) : Bare operator.written.1 := by
  cases operator <;> repeat' constructor
  all_goals decide

variable {formula : Formula} {tokens rest : List Token}

theorem Spelled.plain (spelled : Spelled formula tokens) : ∀ token ∈ tokens, Plain token.kind := by
  induction spelled with
  | name isName => exact forall_mem_singleton.2 (isName ▸ bare_identifier.toPlain)
  | @binary operator _ _ _ _ token isOperator _ _ plainLeft plainRight =>
    exact forall_mem_append.2 ⟨plainLeft,
      forall_mem_cons.2 ⟨isOperator ▸ (bare_operator operator).toPlain, plainRight⟩⟩
  | @unary operator _ token _ isOperator _ plain =>
    exact forall_mem_cons.2 ⟨isOperator ▸ (bare_sign operator).toPlain, plain⟩
  | parenthesized opens closes _ plain =>
    refine forall_mem_cons.2 ⟨?_, forall_mem_append.2 ⟨plain, ?_⟩⟩
    · rw [opens]; constructor <;> decide
    · rw [forall_mem_singleton, closes]; constructor <;> decide

/-- After each closing parenthesis stands something that ends a formula. -/
def Closed (tokens : List Token) : Prop :=
  tokens.IsChain fun token next => token.kind = .rightParen → Ends next.kind

theorem closed_cons {token : Token} (isNoCloser : token.kind ≠ .rightParen)
    (closed : Closed tokens) : Closed (token :: tokens) :=
  isChain_cons.2 ⟨fun _ _ isCloser => absurd isCloser isNoCloser, closed⟩

theorem Spelled.closed (spelled : Spelled formula tokens) {next : Token} (ends : Ends next.kind) :
    Closed (tokens ++ [next]) := by
  induction spelled generalizing next with
  | name isName => exact .cons_cons (fun _ => ends) (.singleton next)
  | @binary operator _ _ _ _ token isOperator _ _ closedLeft closedRight =>
    rw [append_assoc, cons_append]
    have isNoCloser : token.kind ≠ .rightParen :=
      isOperator ▸ (bare_operator operator).ne_rightParen
    exact isChain_split.2 ⟨closedLeft (isOperator ▸ .operator operator),
      closed_cons isNoCloser (closedRight ends)⟩
  | @unary operator _ token _ isOperator _ closed =>
    have isNoCloser : token.kind ≠ .rightParen := isOperator ▸ (bare_sign operator).ne_rightParen
    exact closed_cons isNoCloser (closed ends)
  | @parenthesized _ opening closing _ opens closes _ closed =>
    rw [cons_append, append_assoc, singleton_append]
    refine closed_cons (by rw [opens]; decide) (isChain_split.2 ⟨closed ?_, ?_⟩)
    · exact closes ▸ .closing
    · exact .cons_cons (fun _ => ends) (.singleton next)

/-! ### Looking ahead over a formula -/

open Lookahead

theorem afterParentheses_bare {token : Token} (bare : Bare token.kind) (depth : Nat)
    (rest : List Token) :
    Lookahead.afterParentheses depth (token :: rest) = Lookahead.afterParentheses depth rest := by
  rw [Lookahead.afterParentheses, if_neg bare.ne_endOfInput, if_neg bare.ne_leftParen,
    if_neg bare.ne_rightParen]

theorem Spelled.afterParentheses (spelled : Spelled formula tokens) (depth : Nat)
    (rest : List Token) :
    afterParentheses (depth + 1) (tokens ++ rest) = afterParentheses (depth + 1) rest := by
  induction spelled generalizing depth rest with
  | name isName => exact afterParentheses_bare (isName ▸ bare_identifier) _ _
  | @binary operator _ _ _ _ token isOperator _ _ passLeft passRight =>
    rw [append_assoc, cons_append, passLeft,
      afterParentheses_bare (isOperator ▸ bare_operator operator), passRight]
  | @unary operator _ token _ isOperator _ pass =>
    rw [cons_append, afterParentheses_bare (isOperator ▸ bare_sign operator), pass]
  | parenthesized opens closes _ pass =>
    rw [cons_append, append_assoc, singleton_append, Lookahead.afterParentheses,
      pass, Lookahead.afterParentheses]
    simp [opens, closes]

/-- Tokens go on without a closing parenthesis, an annotation or a primitive type up to where others
begin. -/
def Leads (goal tokens : List Token) : Prop :=
  ∃ inside, tokens = inside ++ goal ∧ ∀ token ∈ inside, token.kind ≠ .rightParen ∧ Plain token.kind

theorem afterAnnotations_eq (isNone : kind tokens ≠ .at) :
    afterAnnotations tokens = some tokens := by
  unfold afterAnnotations
  split
  · exact if_neg fun isAnnotation => isNone isAnnotation.1
  · rfl

section Casts

variable {closing : Token} {operand after : List Token}

variable (closes : closing.kind = .rightParen)
include closes

theorem Leads.tail (leads : Leads (closing :: operand) (token :: tokens))
    (isNoCloser : token.kind ≠ .rightParen) : Leads (closing :: operand) tokens := by
  obtain ⟨inside, isWhole, passable⟩ := leads
  cases inside with
  | nil => exact absurd ((cons.inj isWhole).1 ▸ closes) isNoCloser
  | cons _ inside => exact ⟨inside, (cons.inj isWhole).2, (forall_mem_cons.1 passable).2⟩

variable (leads : Leads (closing :: operand) tokens)
include leads

theorem Leads.plain : Plain (kind tokens) := by
  obtain ⟨inside, rfl, passable⟩ := leads
  cases inside with
  | nil => rw [nil_append, Lookahead.kind, closes]; constructor <;> decide
  | cons token _ => exact (passable token mem_cons_self).2

theorem leads_afterDimensions : Leads (closing :: operand) (afterDimensions tokens) := by
  fun_induction afterDimensions tokens with
  | case1 _ _ _ isPair pass =>
    refine pass ((leads.tail closes ?_).tail closes ?_)
    · rw [isPair.1]; decide
    · rw [isPair.2]; decide
  | case2 => exact leads
  | case3 => exact leads

theorem leads_afterTypeArguments (passed : afterTypeArguments depth tokens = some after) :
    Leads (closing :: operand) after := by
  fun_induction afterTypeArguments depth tokens with
  | case1 => cases passed
  | case2 => cases passed
  | case3 _ token _ isPart _ _ pass =>
    exact pass (leads.tail closes fun isCloser => isPart (by rw [isCloser]; decide)) passed
  | case4 _ token _ isPart =>
    cases passed
    exact leads.tail closes fun isCloser => isPart (by rw [isCloser]; decide)
  | case5 => cases passed

theorem leads_afterTypeName (passed : afterTypeName tokens = some after) :
    Leads (closing :: operand) after := by
  -- Past a point and an identifier, neither of which closes anything.
  have beyond {point name : Token} {more : List Token}
      (leads : Leads (closing :: operand) (point :: name :: more))
      (isSegment : point.kind = .dot ∧ name.kind = .identifier) :
      Leads (closing :: operand) more := by
    refine (leads.tail closes ?_).tail closes ?_
    · rw [isSegment.1]; decide
    · rw [isSegment.2]; decide
  fun_induction afterTypeName tokens with
  | case1 _ _ _ _ _ found isSegment _ pass =>
    exact pass (beyond (leads_afterTypeArguments closes leads found) isSegment) passed
  | case2 _ _ _ _ _ found =>
    cases passed
    exact leads_afterTypeArguments closes leads found
  | case3 => exact leads_afterTypeArguments closes leads passed
  | case4 _ _ _ isSegment _ pass => exact pass (beyond leads isSegment) passed
  | case5 => cases passed; exact leads
  | case6 => cases passed; exact leads

theorem leads_afterType (passed : afterType tokens = some after) :
    Leads (closing :: operand) after := by
  unfold afterType at passed
  rw [afterAnnotations_eq (leads.plain closes).ne_at, Option.bind_eq_bind,
    Option.bind_some] at passed
  cases tokens with
  | nil => cases passed
  | cons first others =>
    have isNoPrimitive : ¬ first.kind.isPrimitiveType := (leads.plain closes).isPrimitiveType
    dsimp only at passed
    rw [if_neg isNoPrimitive] at passed
    split at passed
    case isTrue isName =>
      obtain ⟨named, found, rfl⟩ := Option.map_eq_some_iff.1 passed
      have leadsOn := leads.tail closes (by rw [isName]; decide)
      exact leads_afterDimensions closes (leads_afterTypeName closes leadsOn found)
    case isFalse => cases passed

theorem leads_afterIntersection (passed : afterIntersection tokens = some after) :
    Leads (closing :: operand) after := by
  fun_induction afterIntersection tokens with
  | case1 token _ isAmp _ found _ pass =>
    exact pass (leads_afterType closes (leads.tail closes (by rw [isAmp]; decide)) found) passed
  | case2 => cases passed
  | case3 => cases passed; exact leads
  | case4 => cases passed; exact leads

theorem castFollows_eq_false (isNoOperand : startsCastOperand (kind operand) = false) :
    castFollows (opening :: tokens) = false := by
  unfold castFollows
  split
  · rfl
  · rw [drop_one, tail_cons]
    dsimp only
    split
    · rfl
    next after found =>
      rw [if_neg (leads.plain closes).isPrimitiveType]
      split
      next last beyond foundAll =>
        obtain ⟨inside, isWhole, passable⟩ :=
          leads_afterIntersection closes (leads_afterType closes leads found) foundAll
        cases inside with
        | nil =>
          obtain ⟨rfl, rfl⟩ := cons.inj isWhole
          rw [isNoOperand, Bool.and_false]
        | cons token _ =>
          obtain ⟨rfl, -⟩ := cons.inj isWhole
          rw [beq_eq_false_iff_ne.2 (passable _ mem_cons_self).1, Bool.false_and]
      · rfl

end Casts

theorem exists_first_closing {closing : Token} (closes : closing.kind = .rightParen)
    (ends : Ends (kind rest)) (plain : ∀ token ∈ tokens, Plain token.kind)
    (closed : Closed (tokens ++ [closing])) :
    ∃ first operand, first.kind = .rightParen ∧ Ends (kind operand) ∧
      Leads (first :: operand) (tokens ++ closing :: rest) := by
  induction tokens with
  | nil => exact ⟨closing, rest, closes, ends, [], rfl, forall_mem_nil _⟩
  | cons token others ih =>
    obtain ⟨plainToken, plainOthers⟩ := forall_mem_cons.1 plain
    obtain ⟨follows, closedOthers⟩ := isChain_cons.1 closed
    by_cases isCloser : token.kind = .rightParen
    · refine ⟨token, others ++ closing :: rest, isCloser, ?_, [], rfl, forall_mem_nil _⟩
      cases others with
      | nil => exact (closes ▸ .closing : Ends closing.kind)
      | cons next _ => exact follows next rfl isCloser
    · obtain ⟨first, operand, closesFirst, endsFirst, inside, isWhole, passable⟩ :=
        ih plainOthers closedOthers
      refine ⟨first, operand, closesFirst, endsFirst, token :: inside, ?_, ?_⟩
      · rw [cons_append, isWhole, cons_append]
      · exact forall_mem_cons.2 ⟨⟨isCloser, plainToken⟩, passable⟩

section Parentheses

variable {opening closing : Token}

theorem Spelled.lambdaFollows_eq_false (spelled : Spelled formula tokens)
    (opens : opening.kind = .leftParen) (closes : closing.kind = .rightParen)
    (ends : Ends (kind rest)) : lambdaFollows (opening :: (tokens ++ closing :: rest)) = false := by
  have passed : Lookahead.afterParentheses 0 (opening :: (tokens ++ closing :: rest)) =
      some rest := by
    rw [Lookahead.afterParentheses, if_neg (by rw [opens]; decide), if_pos opens,
      spelled.afterParentheses, Lookahead.afterParentheses, if_neg (by rw [closes]; decide),
      if_neg (by rw [closes]; decide), if_pos closes, if_pos (Nat.le_refl _)]
  unfold lambdaFollows
  rw [passed]
  dsimp only
  rw [beq_eq_false_iff_ne.2 ends.apart.ne_arrow, Bool.and_false]

theorem Spelled.castFollows_eq_false (spelled : Spelled formula tokens)
    (closes : closing.kind = .rightParen) (ends : Ends (kind rest)) :
    castFollows (opening :: (tokens ++ closing :: rest)) = false := by
  obtain ⟨first, operand, closesFirst, endsFirst, leads⟩ :=
    exists_first_closing closes ends spelled.plain (spelled.closed (closes ▸ .closing))
  exact Formula.castFollows_eq_false closesFirst leads endsFirst.apart.startsCastOperand

end Parentheses

end Formula

end JavaFrontEnd
