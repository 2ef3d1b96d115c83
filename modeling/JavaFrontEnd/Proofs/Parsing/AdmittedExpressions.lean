/-
The productions for names, types and expressions are admitted by every discipline, as long as the
parsers of the nonterminals are. There is one instance for each production. A production whose value
has numbers of expressions is followed step by step: where it builds its own value, all the numbers
in it must be at hand.
-/

import JavaFrontEnd.Proofs.Parsing.Discipline

namespace JavaFrontEnd.Grammar

open List
open Gather Expression

/-! ### The parsers of the nonterminals -/

def SwitchParts.numbers (parts : SwitchParts) : List Nat :=
  ofExpression ids parts.selector ++ ofCases ids parts.cases

def Nonterminal.numbers : (nonterminal : Nonterminal) → nonterminal.Result → List Nat
  | .type => unnumbered
  | .annotationValue => unnumbered
  | .expression => ofExpression ids
  | .conditional => ofExpression ids
  | .operation _ => ofExpression ids
  | .unary => ofExpression ids
  | .pattern => unnumbered
  | .arrayInitializer => ofExpression ids
  | .block => ofBlock ids
  | .statement => ofStatement ids
  | .switch => SwitchParts.numbers
  | .members _ _ => ofMembers ids

def Discipline.AdmitsAll (rules : Discipline) (self : Recursion) : Prop :=
  ∀ nonterminal, rules.Admits [] nonterminal.numbers (self nonterminal)

variable {α β : Type} {rules : Discipline} {self : Recursion}

instance lists_ofExpressions : Lists (ofExpression ids) (ofExpressions ids) :=
  ⟨rfl, fun _ _ => rfl⟩

instance perhaps_ofOptional : Perhaps (ofExpression ids) (ofOptional ids) :=
  ⟨rfl, fun _ => rfl⟩

instance : Perhaps (ofBody ids) (ofOptionalBody ids) :=
  ⟨rfl, fun _ => rfl⟩

section Nonterminals

variable [admitted : Fact (rules.AdmitsAll self)]

instance : rules.Plain (self .type) :=
  ⟨admitted.out .type⟩

instance : rules.Plain (self .annotationValue) :=
  ⟨admitted.out .annotationValue⟩

instance : rules.Yields (self .expression) (ofExpression ids) :=
  ⟨admitted.out .expression⟩

instance : rules.Yields (self .conditional) (ofExpression ids) :=
  ⟨admitted.out .conditional⟩

instance (least : Nat) : rules.Yields (self (.operation least)) (ofExpression ids) :=
  ⟨admitted.out (.operation least)⟩

instance : rules.Yields (self .unary) (ofExpression ids) :=
  ⟨admitted.out .unary⟩

instance : rules.Plain (self .pattern) :=
  ⟨admitted.out .pattern⟩

instance : rules.Yields (self .arrayInitializer) (ofExpression ids) :=
  ⟨admitted.out .arrayInitializer⟩

instance : rules.Yields (self .block) (ofBlock ids) :=
  ⟨admitted.out .block⟩

instance : rules.Yields (self .statement) (ofStatement ids) :=
  ⟨admitted.out .statement⟩

instance : rules.Yields (self .switch) SwitchParts.numbers :=
  ⟨admitted.out .switch⟩

instance (owner : String) (kind : BodyKind) :
    rules.Yields (self (.members owner kind)) (ofMembers ids) :=
  ⟨admitted.out (.members owner kind)⟩

instance : rules.Plain self.writtenType := by
  unfold Recursion.writtenType
  infer_instance

instance : rules.Yields self.expression (ofExpression ids) := by
  unfold Recursion.expression
  infer_instance

instance : rules.Yields self.freeExpression (ofExpression ids) := by
  unfold Recursion.freeExpression
  infer_instance

instance : rules.Yields self.statement (ofStatement ids) := by
  unfold Recursion.statement
  infer_instance

instance : rules.Yields self.arrayInitializer (ofExpression ids) := by
  unfold Recursion.arrayInitializer
  infer_instance

instance : rules.Yields self.operand (ofExpression ids) := by
  unfold Recursion.operand
  infer_instance

instance : rules.Yields self.block (ofBlock ids) := by
  unfold Recursion.block
  infer_instance

instance (owner : String) (kind : BodyKind) :
    rules.Yields (self.classBody owner kind) (ofBody ids) :=
  ⟨.past <| .having <| .past <| .ite (.past .built) (.past <| .past .built)⟩

end Nonterminals

/-! ### Names -/

section Names

instance (token : Token) : rules.Plain (warnReserved token) :=
  ⟨warnReserved_eq_tell token ▸ rules.tell _⟩

instance : rules.Plain identifier := by
  unfold identifier
  infer_instance

instance : rules.Plain segmentFollows := by
  unfold segmentFollows
  infer_instance

instance : rules.Plain qualifiedName := by
  unfold qualifiedName
  infer_instance

instance : rules.Plain dimensions := by
  unfold dimensions
  infer_instance

instance : rules.Plain annotationFollows := by
  unfold annotationFollows
  infer_instance

instance : rules.Plain modifier := by
  refine ⟨.past fun {_} => ?_⟩
  split
  iterate 3 exact .yielded
  exact .past <| .ite .yielded .yielded

theorem literal?_ne_none {token : Token} (isNoBlock : token.kind ≠ .textBlock) :
    token.literal? ≠ none := by
  unfold Token.literal?
  split
  case h_5 isBlock => exact absurd isBlock isNoBlock
  all_goals exact Option.some_ne_none _

theorem replace_admitted {token : Token} (isNoBlock : token.kind ≠ .textBlock) :
    rules.Admits held unnumbered (replace token) := by
  have silent : Silent fun state => { state with current := token } :=
    { spoilt := fun state isSpoilt => isSpoilt.imp id fun isAhead => by
        obtain ⟨other, isOther, isMissing⟩ := isAhead
        rcases mem_cons.mp isOther with rfl | isLater
        · exact absurd isMissing (literal?_ne_none isNoBlock)
        · exact ⟨other, mem_cons_of_mem _ isLater, isMissing⟩ }
  exact rules.weaken nil_subperm (rules.change silent)

theorem ne_textBlock_of_afterAngle? (isLeft : afterAngle? kind = some left) :
    left.1 ≠ .textBlock := by
  unfold afterAngle? at isLeft
  split at isLeft <;> cases isLeft <;> simp

instance : rules.Plain closeAngle := by
  refine ⟨.past <| .ite .yielded ?_⟩
  split
  next isLeft => exact replace_admitted (ne_textBlock_of_afterAngle? isLeft)
  next => exact .yielded

instance : rules.Plain variadicMark := by
  unfold variadicMark
  infer_instance

end Names

section Productions

variable [admitted : Fact (rules.AdmitsAll self)] (start : Span) (type : WrittenType)

/-! ### Annotations and types -/

instance : rules.Yields (elementValue self) (ofExpression ids) :=
  ⟨.past <| .ite (.past .plain) .yielded⟩

instance : rules.Plain (annotationArgument self) :=
  ⟨.past <| .past <| .ite (.past <| .past <| .having .plain) (.having .plain)⟩

instance : rules.Plain (annotationArguments self) := by
  unfold annotationArguments
  infer_instance

instance : rules.Plain (annotationParts self) := by
  unfold annotationParts
  infer_instance

instance : rules.Plain (annotationUse self) :=
  ⟨.past <| .inspect rfl fun _ =>
    .step (rules.change {}) fun _ => .plain⟩

instance : rules.Plain (annotations self) := by
  unfold annotations
  infer_instance

instance (found : List Modifier × List AnnotationUse) : rules.Plain (modifierTurn self found) := by
  refine ⟨.past <| .ite .yielded (.past fun {next} => ?_)⟩
  cases next <;> exact .yielded

instance : rules.Plain (modifiers self) := by
  unfold modifiers
  infer_instance

instance : rules.Plain (typeArgument self) :=
  ⟨.past <| .past <| .ite (.past .yielded) .yielded⟩

instance : rules.Plain (typeArguments self) := by
  unfold typeArguments
  infer_instance

instance (before : List TypeArgument × Bool) : rules.Plain (laterArguments self before) := by
  unfold laterArguments
  infer_instance

instance : rules.Plain (className self) := by
  unfold className classNameTurn
  infer_instance

instance : rules.Plain (typeName self) := by
  unfold typeName
  infer_instance

instance : rules.Plain (writtenType self) := by
  unfold writtenType
  infer_instance

instance : rules.Plain (typeList self) := by
  unfold typeList
  infer_instance

instance (word : TokenKind) : rules.Plain (typesAfter self word) := by
  unfold typesAfter
  infer_instance

instance : rules.Plain (furtherBounds self) := by
  unfold furtherBounds
  infer_instance

instance : rules.Plain (typeBounds self) := by
  unfold typeBounds
  infer_instance

instance : rules.Plain (typeParameter self) := by
  unfold typeParameter
  infer_instance

instance : rules.Plain (typeParameters self) := by
  unfold typeParameters
  infer_instance

instance : rules.Plain (permittedTypes self) := by
  unfold permittedTypes
  infer_instance

/-! ### Parameters and patterns -/

instance : rules.Plain (formalParameter self) := by
  unfold formalParameter
  infer_instance

instance : rules.Plain (formalParameters self) := by
  unfold formalParameters
  infer_instance

instance : rules.Plain (pattern self) := by
  unfold pattern
  infer_instance

/-! ### Arguments and creations -/

instance : rules.Yields (arguments self) (ofExpressions ids) :=
  ⟨.past <| .past <| .ite .plain (.having <| .past .built)⟩

instance : rules.Yields (variableInitializer self) (ofExpression ids) := by
  unfold variableInitializer
  infer_instance

instance : rules.Yields (arrayInitializer self) (ofExpression ids) :=
  ⟨.past <| .having <| .past <| .past .built⟩

instance : rules.Yields (arraySizes self) (ofExpressions ids) where
  admits := by
    refine .iterate (ofExpressions ids) (fun sizes => .past <| .past fun {_} => ?_) []
    refine .ite (.past <| .having fun {size} => .past fun {_} => ?_) ?_
    · exact .pure (lists_ofExpressions.cons_subperm size sizes)
    · exact .pure (lists_ofExpressions.reverse_subperm sizes)

instance : rules.Yields (filledArray self start type) (ofExpression ids) :=
  ⟨.having .built⟩

instance : rules.Yields (sizedArray self start type) (ofExpression ids) :=
  ⟨.having <| .past <| .having <| .past .built⟩

instance : rules.Yields (createdObject self start type) (ofExpression ids) :=
  ⟨.having <| .having <| rules.freshId fun _ => .past .numbered⟩

instance : rules.Plain (droppedTypeArguments self) := by
  unfold droppedTypeArguments
  infer_instance

instance : rules.Yields (creation self) (ofExpression ids) := by
  unfold creation
  infer_instance

/-! ### Lambda expressions and method references -/

instance : rules.Plain (lambdaParameter self) := by
  unfold lambdaParameter
  infer_instance

instance : rules.Plain (lambdaParameters self) := by
  unfold lambdaParameters
  infer_instance

instance : rules.Yields (lambda self) (ofExpression ids) :=
  ⟨.past <| .past <| .past <| .past <| .past <| .ite (.having <| .past .built)
    (.having <| .past .built)⟩

instance (colons : Span) : rules.Plain (needMethodReferences colons) :=
  ⟨needMethodReferences_eq_tell colons ▸ rules.tell _⟩

instance : rules.Plain (referencedMethod self) := by
  unfold referencedMethod
  infer_instance

instance : rules.Yields (typeSuffix self type) (ofExpression ids) :=
  ⟨.past <| .past <| .ite (.past <| .past .plain)
    (.past <| .ite (.past <| .past .plain) (.past .fail))⟩

/-! ### Primaries -/

instance (name : String) (nameSpan : Span) :
    rules.Yields (unqualifiedCall self name nameSpan) (ofExpression ids) :=
  ⟨.having <| rules.freshId fun _ => .past .numbered⟩

instance : rules.Yields (nameOrCall self) (ofExpression ids) :=
  ⟨.past <| .past <| .ite .yielded (rules.freshId fun _ => .numbered)⟩

theorem selfReference_admitted (word : String) (alone : Span → Expression)
    (unnumberedAlone : ∀ span, ofExpression ids (alone span) = []) :
    rules.Admits [] (ofExpression ids) (selfReference self word alone) :=
  .past <| .past <| .ite .yielded (.plain (unnumberedAlone _))

instance : rules.Yields (parenthesized self) (ofExpression ids) :=
  ⟨.past <| .having <| .past <| .past .built⟩

instance : rules.Yields (switchExpression self) (ofExpression ids) :=
  ⟨.past <| .past <| .having .built⟩

/-- The token under the cursor is passed, and it is noted if it is a literal without a value. -/
def takeLiteral (state : State) : State :=
  { state.advance with stopped := state.advance.stopped || state.current.literal?.isNone }

theorem silent_takeLiteral : Silent takeLiteral where
  core state := by
    have same := silent_advance.core state
    show ({ state.advance.core with
      stopped := state.advance.core.stopped || state.current.literal?.isNone } : State) = _
    rw [same]
    rfl
  log := silent_advance.log
  nextId := silent_advance.nextId
  spoilt state isSpoilt := by
    rcases isSpoilt with isStopped | isAhead
    · rcases Bool.or_eq_true_iff.mp isStopped with isStopped | isMissing
      · exact silent_advance.spoilt state (.inl isStopped)
      · exact .inr ⟨state.current, mem_cons_self, Option.isNone_iff_eq_none.mp isMissing⟩
    · exact silent_advance.spoilt state (.inr isAhead)

instance : rules.Yields literal (ofExpression ids) where
  admits := by
    show rules.Admits [] (ofExpression ids) do
      let state ← Parser.get
      Parser.modify takeLiteral
      if state.current.kind = .textBlock then
        needFeature .textBlocks state.current.span
      pure (.literal (state.current.literal?.getD .null) state.current.span)
    refine .inspect rfl fun state => (rules.change silent_takeLiteral).step fun _ => ?_
    exact .ite (.past .plain) .plain

instance : rules.Yields (primitiveSuffix self) (ofExpression ids) := by
  unfold primitiveSuffix
  infer_instance

instance : rules.Yields missingExpression (ofExpression ids) := by
  refine ⟨.inspect rfl fun _ => ?_⟩
  split <;> exact reject_admitted _ _

instance : rules.Yields (primary self) (ofExpression ids) := by
  refine ⟨.inspect rfl fun _ => .ite .yielded (.ite .yielded ?_)⟩
  split
  · exact selfReference_admitted _ _ fun _ => rfl
  · exact selfReference_admitted _ _ fun _ => rfl
  all_goals exact .yielded

/-! ### What follows a primary -/

section Chains

variable (target : Expression)

theorem targetCall_admitted (typeArguments : List WrittenType) (name : String) (nameSpan : Span) :
    rules.Admits (ofExpression ids target) (ofExpression ids)
      (targetCall self target typeArguments name nameSpan) :=
  .having <| .past <| rules.freshId fun _ => .numbered

theorem genericCall_admitted : rules.Admits (ofExpression ids target) (ofExpression ids)
      (genericCall self target) :=
  .past <| .past <| targetCall_admitted target _ _ _

omit admitted in
theorem innerCreation_subperm (outer : Option Expression)
    (arguments : List Expression) (body : Option ClassBody) (id : Nat) (span inner : Span) :
    ofExpression ids (.create (some target) type arguments body id span) <+~
      ofExpression ids target ++ ofExpression ids (.create outer type arguments body id inner) := by
  show [id] ++ (ofExpression ids target ++ (ofExpressions ids arguments ++
      ofOptionalBody ids body)) <+~
    ofExpression ids target ++ ([id] ++ (ofOptional ids outer ++
      (ofExpressions ids arguments ++ ofOptionalBody ids body)))
  refine (perm_append_comm_assoc _ _ _).subperm.trans ?_
  rw [subperm_append_left, subperm_append_left]
  exact (sublist_append_right _ _).subperm

theorem innerCreation_admitted : rules.Admits (ofExpression ids target) (ofExpression ids)
      (innerCreation self target) := by
  refine .having fun {created} => ?_
  split
  · exact .pure (innerCreation_subperm ..)
  · exact .pure (sublist_append_right _ _).subperm

theorem selection_admitted : rules.Admits (ofExpression ids target) (ofExpression ids)
      (selection self target) := by
  refine .past fun {token} => ?_
  split
  · exact innerCreation_admitted target
  iterate 3 exact .past .plain
  · exact genericCall_admitted target
  · exact .past <| .past <| .ite (targetCall_admitted target _ _ _)
      (rules.freshId fun _ => .numbered)

instance : rules.Yields (arrayTypeSuffix self target) (ofExpression ids) := by
  unfold arrayTypeSuffix
  split
  · infer_instance
  · exact ⟨.past <| reject_admitted _ _⟩

theorem element_admitted : rules.Admits (ofExpression ids target) (ofExpression ids)
      (element self target) :=
  .past <| .having <| .past <| .past .built

theorem chainPart_admitted : rules.Admits (ofExpression ids target) (ofExpression ids)
      (chainPart self target) := by
  refine .past fun {token} => ?_
  split
  · exact .past <| selection_admitted target
  · exact .past <| .ite .yielded (element_admitted target)
  · exact .past .built
  · exact .past .built
  · exact .past <| .past .built

end Chains

instance : rules.Yields (chain self) (ofExpression ids) where
  admits := by
    refine .chained (.having fun {first} => .iterate (ofExpression ids) (fun target => ?_) first)
    refine .past <| .ite (.past fun {_} => ?_) .built
    exact (chainPart_admitted target).passing fun _ => .built

/-! ### Operations -/

instance : rules.Yields (cast self) (ofExpression ids) :=
  ⟨.past <| .past <| .past <| .past <| .having .built⟩

instance : rules.Yields (unary self) (ofExpression ids) := by
  refine ⟨.past fun {_} => ?_⟩
  split
  · exact .past <| .having .built
  · exact .yielded

theorem instanceTest_admitted (operand : Expression) :
    rules.Admits (ofExpression ids operand) (ofExpression ids) (instanceTest self operand) :=
  .past <| .past <| .ite (.past <| .past <| .past .built) (.past <| .past .built)

theorem operationPart_admitted (operator : BinaryOperator) (left : Expression) :
    rules.Admits (ofExpression ids left) (ofExpression ids) (operationPart self operator left) :=
  .past <| .having .built

instance (least : Nat) : rules.Yields (operation self least) (ofExpression ids) where
  admits := by
    refine .chained (.having fun {first} => .iterate (ofExpression ids) (fun left => ?_) first)
    refine .past <| .ite (.past fun {_} => ?_) ?_
    · exact (instanceTest_admitted left).passing fun _ => .built
    · split
      · refine .ite .built (.past fun {_} => ?_)
        exact (operationPart_admitted _ left).passing fun _ => .built
      · exact .built

instance : rules.Yields (conditional self) (ofExpression ids) :=
  ⟨.having <| .past <| .ite (.having <| .past <| .having .built) .built⟩

instance : rules.Yields (expression self) (ofExpression ids) := by
  refine ⟨.having <| .past fun {_} => ?_⟩
  split
  · exact .past <| .having .built
  · exact .built

end Productions

end JavaFrontEnd.Grammar
