/-
The walk that binds the names of a unit goes through the text in its order. Where it does not, what
it takes first declares nothing that is visible in what it takes after. So for a unit that was
parsed the record of what its names denote is well formed (`CompilationUnit.bind_wellFormed`).
-/

import JavaFrontEnd.Proofs.Parsing.Numbering
import JavaFrontEnd.Proofs.Parsing.Result
import JavaFrontEnd.Proofs.Scoping.Order
import JavaFrontEnd.Proofs.QuietSteps
import Mathlib.Data.List.Nodup

namespace JavaFrontEnd

open List

/-! ### Stretches of the text -/

def TypeDeclaration.bodyNodes (declaration : TypeDeclaration) : List Node :=
  EnumConstant.nodes declaration.constants ++
    declaration.header.shape.kind.loweredMembers (Member.nodes declaration.members)

/-- The landmarks of some nodes ascend from an offset to another, and the expressions that were
gathered from the nodes are among those of the unit. -/
structure Stretch (expressions : List Expression) (low high : Nat) (nodes : List Node)
    (gathered : List Expression) : Prop where
  le : low ≤ high
  ascending : (Node.landmarksOf nodes).Pairwise (· < ·)
  between : ∀ mark ∈ Node.landmarksOf nodes, low ≤ mark ∧ mark < high
  among : gathered ⊆ expressions

namespace Stretch

variable {expressions gathered more : List Expression} {low high : Nat} {nodes others : List Node}
  {node : Node} {span : Span}

theorem sublist (stretch : Stretch expressions low high nodes gathered)
    (isSublist : Node.landmarksOf others <+ Node.landmarksOf nodes) (isPart : more ⊆ gathered) :
    Stretch expressions low high others more where
  le := stretch.le
  ascending := stretch.ascending.sublist isSublist
  between mark isMark := stretch.between mark (isSublist.subset isMark)
  among := Subset.trans isPart stretch.among

theorem of_landmarks_eq (stretch : Stretch expressions low high nodes gathered)
    (same : Node.landmarksOf others = Node.landmarksOf nodes) :
    Stretch expressions low high others gathered :=
  stretch.sublist (same ▸ .refl _) (Subset.refl _)

theorem left (stretch : Stretch expressions low high (nodes ++ others) gathered) :
    Stretch expressions low high nodes gathered :=
  stretch.sublist (Node.landmarksOf_sublist (sublist_append_left _ _)) (Subset.refl _)

theorem right (stretch : Stretch expressions low high (nodes ++ others) gathered) :
    Stretch expressions low high others gathered :=
  stretch.sublist (Node.landmarksOf_sublist (sublist_append_right _ _)) (Subset.refl _)

theorem first (stretch : Stretch expressions low high nodes (gathered ++ more)) :
    Stretch expressions low high nodes gathered :=
  stretch.sublist (.refl _) (subset_append_left _ _)

theorem second (stretch : Stretch expressions low high nodes (gathered ++ more)) :
    Stretch expressions low high nodes more :=
  stretch.sublist (.refl _) (subset_append_right _ _)

theorem cut (stretch : Stretch expressions low high (nodes ++ others) gathered) :
    ∃ middle, Stretch expressions low middle nodes gathered ∧
      Stretch expressions middle high others gathered := by
  have ascending := stretch.ascending
  rw [Node.landmarksOf_append] at ascending
  obtain ⟨inFirst, inSecond, across⟩ := pairwise_append.mp ascending
  cases isFirst : Node.landmarksOf others with
  | nil => exact ⟨high, stretch.left, le_rfl, isFirst ▸ .nil, isFirst ▸ (nofun), stretch.among⟩
  | cons middle rest =>
    have isMiddle : middle ∈ Node.landmarksOf others := isFirst ▸ mem_cons_self
    obtain ⟨isLater, isBefore⟩ := stretch.right.between middle isMiddle
    refine ⟨middle, ⟨isLater, inFirst, fun mark isMark => ?_, stretch.among⟩,
      isBefore.le, inSecond, fun mark isMark => ⟨?_, (stretch.right.between mark isMark).2⟩,
      stretch.among⟩
    · exact ⟨(stretch.left.between mark isMark).1, across mark isMark middle isMiddle⟩
    · rw [isFirst] at isMark inSecond
      rcases mem_cons.mp isMark with rfl | isRest
      · exact le_rfl
      · exact ((pairwise_cons.mp inSecond).1 mark isRest).le

theorem split (stretch : Stretch expressions low high (nodes ++ others) (gathered ++ more)) :
    ∃ middle, Stretch expressions low middle nodes gathered ∧
      Stretch expressions middle high others more := by
  obtain ⟨middle, inFirst, inSecond⟩ := stretch.cut
  exact ⟨middle, inFirst.first, inSecond.second⟩

theorem cons (stretch : Stretch expressions low high (node :: others) (gathered ++ more)) :
    ∃ middle, Stretch expressions low middle [node] gathered ∧
      Stretch expressions middle high others more := by
  have appended : Stretch expressions low high ([node] ++ others) (gathered ++ more) := stretch
  exact appended.split

theorem inside {sort : NodeSort} {deeper : Bool}
    (stretch : Stretch expressions low high [⟨sort, deeper, span, nodes⟩] gathered)
    (isNoMark : sort ≠ .annotationUse := by simp) :
    Stretch expressions low high nodes gathered := by
  refine stretch.sublist ?_ (Subset.refl _)
  rw [Node.landmarksOf_singleton]
  exact @Node.landmarksOf_parts_sublist ⟨sort, deeper, span, nodes⟩ isNoMark

theorem parts (stretch : Stretch expressions low high [⟨.expression, deeper, span, nodes⟩]
      (gathered ++ more)) : Stretch expressions low high nodes more :=
  stretch.inside.second

theorem raised (stretch : Stretch expressions low high [node.lowered] gathered) :
    Stretch expressions low high [node] gathered :=
  stretch.of_landmarks_eq (Node.landmarksOf_lowered [node]).symm

theorem raisedAll (stretch : Stretch expressions low high (nodes.map Node.lowered) gathered) :
    Stretch expressions low high nodes gathered :=
  stretch.of_landmarks_eq (Node.landmarksOf_lowered nodes).symm

theorem name (stretch : Stretch expressions low high [.name span] gathered) :
    low ≤ span.start.offset ∧ span.start.offset < high :=
  stretch.between _ mem_cons_self

theorem name_lt (stretch : Stretch expressions low high nodes gathered) (isNode : node ∈ nodes)
    (isPart : .name span ∈ node.parts) (isNoMark : node.sort ≠ .annotationUse) :
    span.start.offset < high := by
  refine (stretch.between _ ?_).2
  have isMark := (Node.landmarks_part_sublist isPart isNoMark).trans
    (Node.landmarks_sublist_landmarksOf isNode)
  exact isMark.subset mem_cons_self

theorem raisedUnless [Decidable test]
    (stretch : Stretch expressions low high [if test then node else node.lowered] gathered) :
    Stretch expressions low high [node] gathered := by
  split at stretch
  · exact stretch
  · exact stretch.raised

theorem raisedMembers {kind : TypeKind}
    (stretch : Stretch expressions low high (kind.loweredMembers nodes) gathered) :
    Stretch expressions low high nodes gathered := by
  unfold TypeKind.loweredMembers at stretch
  split at stretch
  · exact stretch
  · exact stretch.raisedAll

theorem bodyOf {declaration : TypeDeclaration}
    (stretch : Stretch expressions low high [declaration.node] gathered) :
    ∃ middle, low ≤ middle ∧ declaration.header.nameSpan.start.offset < middle ∧
      Stretch expressions middle high declaration.bodyNodes gathered := by
  obtain ⟨header, constants, members⟩ := declaration
  have parts := stretch.inside
  rw [append_assoc _ (EnumConstant.nodes constants)] at parts
  obtain ⟨middle, inHeader, inBody⟩ := parts.cut
  exact ⟨middle, inHeader.le, inHeader.left.right.name.2, inBody⟩

theorem loweredOptional
    (stretch : Stretch expressions low high (Expression.optional expression) gathered) :
    Stretch expressions low high (Expression.optionalLowered expression) gathered := by
  cases expression with
  | none => exact stretch
  | some expression => exact stretch.of_landmarks_eq (Node.landmarksOf_lowered [expression.node])

theorem parameters_lt {parameters : List Parameter}
    (stretch : Stretch expressions low high (parameters.map Parameter.node) gathered) :
    ∀ parameter ∈ parameters, parameter.nameSpan.start.offset < high :=
  fun _ isParameter => stretch.name_lt (mem_map_of_mem isParameter)
    (mem_append_right _ mem_cons_self) nofun

end Stretch

namespace Binder

open Bindings Gather

@[simp]
theorem Place.scope_initializing (place : Place) (name : String) :
    (place.initializing name).scope = place.scope := by
  unfold Place.initializing
  split <;> rfl

@[simp]
theorem Place.scope_inPart (place : Place) (part : BodyPart) :
    (place.inPart part).scope = place.scope :=
  rfl

def FlowsBefore (limit : Nat) (bound : BoundExpression) (bindings : Bindings) : Prop :=
  bindings.FlowBefore limit bound.flow

theorem InOrder.noFlow {α : Type} {yields : α → Bindings → Prop} {step : Binder α}
    {value : α → BoundExpression}
    (inOrder : InOrder expressions scope declares low high yields state step)
    (isNone : ∀ given, (value given).flow = {} := by exact fun _ => rfl) :
    InOrder expressions scope declares low high (FlowsBefore high) state
      (step >>= fun given => Pure.pure (value given)) :=
  inOrder.map fun given _ _ => by
    unfold FlowsBefore
    rw [isNone given]
    exact flowBefore_nil

/-- A step that walks through a stretch of the text keeps the record in order. -/
abbrev Walks {α : Type} (expressions : List Expression) (scope : ScopeId) (declares : Bool)
    (nodes : List Node) (gathered : List Expression) (yields : Nat → α → Bindings → Prop)
    (step : Binder α) : Prop :=
  ∀ {low high : Nat} {state : BinderState}, Stretch expressions low high nodes gathered →
    InOrder expressions scope declares low high (yields high) state step

namespace InOrder

variable {α β : Type} {expressions : List Expression} {scope : ScopeId} {declares : Bool}
  {nodes others : List Node} {seen : Nat → α → Bindings → Prop}
  {yields : Nat → β → Bindings → Prop} {step : Binder α} {next : α → Binder β}

theorem nothing (stretch : Stretch expressions low high nodes gathered) :
    InOrder expressions scope declares low high Anything state (Pure.pure ()) :=
  .pure stretch.le trivial

theorem split (first : Walks expressions scope declares nodes gathered seen step)
    (second : ∀ {value}, Walks expressions scope declares others more yields (next value))
    (stretch : Stretch expressions low high (nodes ++ others) (gathered ++ more)) :
    InOrder expressions scope declares low high (yields high) state (step >>= next) := by
  obtain ⟨_, inFirst, inSecond⟩ := stretch.split
  exact (first inFirst).andThen (second inSecond)

theorem cons (first : Walks expressions scope declares [node] gathered seen step)
    (second : ∀ {value}, Walks expressions scope declares others more yields (next value))
    (stretch : Stretch expressions low high (node :: others) (gathered ++ more)) :
    InOrder expressions scope declares low high (yields high) state (step >>= next) :=
  split first second stretch

end InOrder

section Walk

variable (context : UnitContext) {expressions gathered : List Expression}

/-! ### Patterns -/

mutual

theorem inOrder_pattern {place : Place} : ∀ pattern : Pattern,
    Walks expressions place.scope declares [pattern.node] gathered
      (fun high symbols bindings => bindings.AllBefore high symbols)
      (bindPattern context place pattern)
  | .type _ => fun stretch => .past <| inOrder_declarePattern stretch.le stretch.inside.right.name.2
  | .record _ components _ => fun stretch =>
    .past <| inOrder_patterns components stretch.inside.right

theorem inOrder_patterns {place : Place} : ∀ patterns : List Pattern,
    Walks expressions place.scope declares (Pattern.lowered patterns) gathered
      (fun high symbols bindings => bindings.AllBefore high symbols)
      (bindPatterns context place patterns)
  | [] => fun stretch => .pure stretch.le allBefore_nil
  | pattern :: rest => fun stretch => by
    have appended : Stretch expressions _ _ ([pattern.node.lowered] ++ Pattern.lowered rest)
        gathered := stretch
    obtain ⟨_, inFirst, inRest⟩ := appended.cut
    refine (inOrder_pattern pattern inFirst.raised).bind fun _ _ _ known => ?_
    refine (inOrder_patterns rest inRest).bind fun _ _ isLater knownLater => ?_
    exact .pure le_rfl (((known.grows isLater).mono inRest.le).append knownLater)

end

theorem inOrder_lambdaParameters {place : Place} {parameters : List LambdaParameter}
    (stretch : Stretch expressions low high (parameters.map LambdaParameter.node) gathered) :
    InOrder expressions place.scope true low high Anything state
      (parameters.forM (bindLambdaParameter context place outer)) := by
  refine (InOrder.forM fun parameter isParameter _ _ => ?_).mono stretch.le
  exact inOrder_lambdaParameter context le_rfl (stretch.name_lt
    (mem_map_of_mem isParameter) (mem_append_right _ mem_cons_self) nofun)

/-! ### Expressions, statements and members -/

-- The induction follows the tree, and the walk, the nodes and the list of expressions unfold by
-- computation; what a new scope does is known by its lemmas alone.
attribute [local irreducible] inScope withSymbols

mutual

theorem inOrder_declaration {place : Place} : ∀ declaration : TypeDeclaration,
    Walks expressions place.scope declares declaration.bodyNodes
      (ofDeclaration itself declaration) (fun _ => Anything)
      (bindDeclaration context place key declaration)
  | ⟨header, constants, members⟩ => fun stretch => by
    obtain ⟨_, inConstants, inMembers⟩ := stretch.split
    refine .inType fun _ _ isType => ?_
    refine .alike fun _ _ alike => ?_
    have isType := alike.tree ▸ isType
    refine (inOrder_declareComponents context isType).bind fun _ _ isSecond _ => ?_
    have isType := isSecond.kind?_eq isType
    refine (inOrder_declareMembers context isType).bind fun _ _ isThird _ => ?_
    have isType := isThird.kind?_eq isType
    refine (inOrder_declareConstants context isType).andThen ?_
    exact (inOrder_constants constants inConstants).atScope.andThen <|
      inOrder_members members inMembers.raisedMembers

theorem inOrder_constants {place : Place} : ∀ constants : List EnumConstant,
    Walks expressions place.scope declares (EnumConstant.nodes constants)
      (ofConstants itself constants) (fun _ => Anything) (bindConstants context place key constants)
  | [] => .nothing
  | ⟨header, arguments, body⟩ :: rest => fun stretch => by
    obtain ⟨_, inConstant, inRest⟩ := stretch.cons
    obtain ⟨_, inArguments, inBody⟩ := inConstant.inside.split
    exact (inOrder_expressions arguments inArguments.right).atScope.andThen <|
      (inOrder_optionalBody body inBody).atScope.andThen <| inOrder_constants rest inRest

theorem inOrder_optionalBody {place : Place} : ∀ body : Option ClassBody,
    Walks expressions place.scope declares (ClassBody.optional body)
      (ofOptionalBody itself body) (fun _ => Anything)
      (bindOptionalBody context place substitute body)
  | none => .nothing
  | some ⟨members, _⟩ => fun stretch => by
    refine .inType fun _ _ isType => ?_
    exact (inOrder_declareMembers context isType).andThen <|
      inOrder_members members stretch.inside.raisedAll

theorem inOrder_members {place : Place} : ∀ members : List Member,
    Walks expressions place.scope declares (Member.nodes members)
      (ofMembers itself members) (fun _ => Anything) (bindMembers context place owner members)
  | [] => .nothing
  | member :: rest => .cons (inOrder_member member) (inOrder_members rest)

theorem inOrder_member {place : Place} : ∀ member : Member,
    Walks expressions place.scope declares [member.node] (ofMember itself member)
      (fun _ => Anything) (bindMember context place owner member)
  | .field header initializer => fun stretch =>
    .past <| (inOrder_optional initializer stretch.inside.right).atScope.ignored
  | .method header body defaultValue => fun stretch => by
    obtain ⟨_, beforeBody, inBody⟩ := stretch.inside.split
    obtain ⟨_, inHeader, inDefault⟩ := beforeBody.cut
    refine .inScope ?_
    refine (inOrder_methodHeader context inHeader.le inHeader.left.right.parameters_lt).andThen ?_
    exact .swapped inDefault.le inBody.le (inOrder_optionalBlock body inBody)
      (inOrder_optional defaultValue inDefault.loweredOptional).ignored
  | .constructor header call body => fun stretch => by
    obtain ⟨_, beforeBody, inBody⟩ := stretch.inside.split
    obtain ⟨_, inHeader, inCall⟩ := beforeBody.cut
    refine .inScope ?_
    refine (inOrder_constructorHeader context inHeader.le
      inHeader.left.right.parameters_lt).andThen ?_
    exact (inOrder_call call inCall).andThen <| inOrder_block body inBody
  | .initializer _ body _ => fun stretch => .inScope <| inOrder_block body stretch.inside
  | .type declaration => fun stretch => by
    obtain ⟨_, isLater, _, inBody⟩ := stretch.bodyOf
    exact (inOrder_declaration declaration inBody).atScope.mono isLater

theorem inOrder_call {place : Place} : ∀ call : ConstructorCall,
    Walks expressions place.scope declares (ConstructorCall.nodes call)
      (ofCall itself call) (fun _ => Anything) (bindCall context place call)
  | .implicit => .nothing
  | .this arguments _ | .super arguments _ => fun stretch =>
    inOrder_expressions arguments stretch.inside

theorem inOrder_expressions {place : Place} : ∀ list : List Expression,
    Walks expressions place.scope declares (Expression.lowered list)
      (ofExpressions itself list) (fun _ => Anything) (bindExpressions context place list)
  | [] => .nothing
  | expression :: rest =>
    .cons (fun inFirst => inOrder_expression expression inFirst.raised) (inOrder_expressions rest)

theorem inOrder_optional {place : Place} : ∀ expression : Option Expression,
    Walks expressions place.scope declares (Expression.optionalLowered expression)
      (ofOptional itself expression) (fun high flow bindings => bindings.FlowBefore high flow)
      (bindOptional context place expression)
  | none => fun stretch => .pure stretch.le flowBefore_nil
  | some expression => fun stretch =>
    (inOrder_expression expression stretch.raised).map fun _ _ known => known

theorem inOrder_target {place : Place} : ∀ target : Option Expression,
    Walks expressions place.scope declares (Expression.optional target)
      (ofOptional itself target) (fun _ => Anything) (bindTarget context place target)
  | none => .nothing
  | some target => fun stretch => (inOrder_expression target stretch).discard

theorem inOrder_expression {place : Place} : ∀ expression : Expression,
    Walks expressions place.scope declares [expression.node]
      (ofExpression itself expression) FlowsBefore
      (bindExpression context place position expression)
  | .literal .. | .erroneous _ => fun stretch => .pure stretch.le flowBefore_nil
  | .name name id span => fun stretch =>
    (inOrder_simpleName context stretch.le (stretch.among mem_cons_self)
      stretch.inside.name.1).noFlow
  | .field target name nameSpan id span => fun stretch => by
    by_cases isThis : ∃ thisSpan, target = .this none thisSpan
    · obtain ⟨thisSpan, rfl⟩ := isThis
      exact .past <| (InOrder.neutral stretch.le).noFlow
    · rw [bindExpression_field _ _ _ _ _ _ _ (not_exists.mp isThis)]
      exact (inOrder_expression target stretch.parts.left).andThen <|
        (InOrder.neutral le_rfl).noFlow
  | .call target types _ _ arguments _ _ => fun stretch =>
    .split (fun inTarget => inOrder_target target inTarget.left.left)
      (fun inArguments => .past <| (inOrder_expressions arguments inArguments).noFlow) stretch.parts
  | .binary operator left right _ => fun stretch => by
    obtain ⟨_, inLeft, inRight⟩ := stretch.parts.split
    have inRight := inRight.raised
    cases operator with
    | logicalAnd =>
      refine (inOrder_expression left inLeft).bind fun first _ _ known => ?_
      refine (InOrder.withSymbols known.whenTrue <|
        inOrder_expression right inRight).bind fun second _ isLater more => ?_
      exact .pure le_rfl
        ⟨((known.whenTrue.grows isLater).mono inRight.le).append more.whenTrue, allBefore_nil⟩
    | logicalOr =>
      refine (inOrder_expression left inLeft).bind fun first _ _ known => ?_
      refine (InOrder.withSymbols known.whenFalse <|
        inOrder_expression right inRight).bind fun second _ isLater more => ?_
      exact .pure le_rfl
        ⟨allBefore_nil, ((known.whenFalse.grows isLater).mono inRight.le).append more.whenFalse⟩
    | _ =>
      exact (inOrder_expression left inLeft).andThen <| (inOrder_expression right inRight).noFlow
  | .unary operator operand _ => fun stretch => by
    have inOperand := stretch.parts.raisedUnless
    cases operator with
    | not =>
      exact (inOrder_expression operand inOperand).map
        fun _ _ known => ⟨known.whenFalse, known.whenTrue⟩
    | _ => exact (inOrder_expression operand inOperand).noFlow
  | .assignment _ target value _ | .index target value _ => fun stretch =>
    .split (inOrder_expression target)
      (fun inValue => (inOrder_expression value inValue.raised).noFlow) stretch.parts
  | .cast _ _ operand _ => fun stretch =>
    .past <| .past <| (inOrder_expression operand stretch.parts.right.raised).map
        fun _ _ known => known
  | .instanceOf operand _ _ => fun stretch =>
    (inOrder_expression operand stretch.parts.left).andThen <| (InOrder.neutral le_rfl).noFlow
  | .instanceOfPattern operand pattern _ => fun stretch => by
    obtain ⟨_, inOperand, inPattern⟩ := stretch.parts.cut
    exact (inOrder_expression operand inOperand).andThen <|
      (inOrder_pattern context pattern inPattern).map fun _ _ known => ⟨known, allBefore_nil⟩
  | .conditional condition yes no _ => fun stretch => by
    obtain ⟨_, beforeNo, inNo⟩ := stretch.parts.split
    obtain ⟨_, inCondition, inYes⟩ := beforeNo.split
    refine (inOrder_expression condition inCondition).bind fun _ _ _ known => ?_
    refine (InOrder.withSymbols known.whenTrue <|
      inOrder_expression yes inYes.raised).bind fun _ _ isLater _ => ?_
    exact (InOrder.withSymbols ((known.whenFalse.grows isLater).mono inYes.le) <|
      inOrder_expression no inNo.raised).noFlow
  | .create outer type arguments body _ _ => fun stretch => by
    obtain ⟨_, beforeBody, inBody⟩ := stretch.parts.cut
    obtain ⟨_, beforeArguments, inArguments⟩ := beforeBody.cut
    have rest : ∀ (substitute : String) (later : BinderState), InOrder expressions place.scope
        declares _ _ (FlowsBefore _) later (do
          bindExpressions context place arguments
          bindOptionalBody context place substitute body
          return ({} : BoundExpression)) :=
      fun _ _ => (inOrder_expressions arguments inArguments.second.first).andThen <|
        (inOrder_optionalBody body inBody.second.second).noFlow
    refine (inOrder_optional outer beforeArguments.left.first.loweredOptional).andThen ?_
    dsimp only
    split
    · exact .past <| rest _ _
    · exact rest _ _
  | .createArray _ sizes _ initializer _ => fun stretch =>
    .past <| .split (fun inSizes => inOrder_expressions sizes inSizes.right)
      (fun inInitializer => (inOrder_optional initializer inInitializer).noFlow) stretch.parts
  | .arrayInitializer elements _ => fun stretch =>
    (inOrder_expressions elements stretch.parts).noFlow
  | .lambda parameters body _ => fun stretch => by
    obtain ⟨_, inParameters, inBody⟩ := stretch.parts.cut
    refine .inScope ?_
    exact (inOrder_lambdaParameters context inParameters).andThen <|
      (inOrder_expression body inBody.raised).noFlow
  | .blockLambda parameters body _ => fun stretch => by
    obtain ⟨_, inParameters, inBody⟩ := stretch.parts.cut
    refine .inScope ?_
    exact (inOrder_lambdaParameters context inParameters).andThen <|
      (inOrder_block body inBody).noFlow
  | .methodReference target _ _ => fun stretch => (inOrder_expression target stretch.parts).noFlow
  | .switch selector cases _ _ => fun stretch =>
    .split (fun inSelector => inOrder_expression selector inSelector.right.raised)
      (fun inCases => (InOrder.inScope <| inOrder_cases cases inCases).noFlow) stretch.parts
  | .typeMethodReference .. | .this .. | .super _ | .classLiteral .. => fun stretch =>
    (InOrder.neutral stretch.le).noFlow
  | .parenthesized inner _ => fun stretch =>
    (inOrder_expression inner stretch.parts.raised).map fun _ _ known => known

theorem inOrder_block {place : Place} : ∀ block : Block,
    Walks expressions place.scope declares [block.node] (ofBlock itself block)
      (fun _ => Anything) (bindBlock context place block)
  | ⟨statements, _⟩ => fun stretch => .inScope <| inOrder_statements statements stretch.inside

theorem inOrder_optionalBlock {place : Place} : ∀ block : Option Block,
    Walks expressions place.scope declares (Block.optional block)
      (ofOptionalBlock itself block) (fun _ => Anything) (bindOptionalBlock context place block)
  | none => .nothing
  | some block => fun stretch => inOrder_block block stretch

theorem inOrder_statements {place : Place} : ∀ statements : List Statement,
    Walks expressions place.scope true (Statement.nodes statements)
      (ofStatements itself statements) (fun _ => Anything) (bindStatements context place statements)
  | [] => .nothing
  | statement :: rest => .cons (inOrder_statement statement) (inOrder_statements rest)

theorem inOrder_branch {state : BinderState} {place : Place} {symbols : List SymbolId}
    (known : state.bindings.AllBefore low symbols) :
    ∀ branch : Option Statement,
    Stretch expressions low high (Statement.optionalLowered branch)
      (ofOptionalStatement itself branch) →
    InOrder expressions place.scope true low high Anything state
      (bindBranch context place symbols branch)
  | none, stretch => .pure stretch.le trivial
  | some branch, stretch =>
    .withSymbols known <| .inScope <| inOrder_statement branch stretch.raised

theorem inOrder_statement {place : Place} : ∀ statement : Statement,
    Walks expressions place.scope true [statement.node] (ofStatement itself statement)
      (fun _ => Anything) (bindStatement context place statement)
  | .expression expression _ => fun stretch =>
    (inOrder_expression expression stretch.inside.raised).discard
  | .locals _ declarations _ => fun stretch =>
    .past <| inOrder_declarators declarations stretch.inside.right
  | .typeDeclaration declaration => fun stretch => by
    obtain ⟨_, isLater, isBefore, inBody⟩ := stretch.bodyOf
    exact (inOrder_declareClass isLater isBefore).andThen <| inOrder_declaration declaration inBody
  | .conditional condition yes no _ => fun stretch => by
    obtain ⟨_, beforeNo, inNo⟩ := stretch.inside.split
    obtain ⟨_, inCondition, inYes⟩ := beforeNo.split
    refine (inOrder_expression condition inCondition.raised).bind fun _ _ _ known => ?_
    refine (InOrder.withSymbols known.whenTrue <| .inScope <|
      inOrder_statement yes inYes.raised).bind fun _ _ isSecond _ => ?_
    have known := (known.grows isSecond).mono inYes.le
    refine (inOrder_branch known.whenFalse no inNo).bind fun _ _ isThird _ => ?_
    have known := (known.grows isThird).mono inNo.le
    dsimp only
    split
    · refine (inOrder_symbols le_rfl known.whenFalse).bind fun _ _ isLast _ => ?_
      split
      · exact inOrder_symbols le_rfl (known.grows isLast).whenTrue
      · exact .pure le_rfl trivial
    · split
      · exact inOrder_symbols le_rfl known.whenTrue
      · exact .pure le_rfl trivial
  | .while condition body _ => fun stretch => by
    obtain ⟨_, inCondition, inBody⟩ := stretch.inside.split
    refine (inOrder_expression condition inCondition.raised).bind fun _ _ _ known => ?_
    refine (InOrder.withSymbols known.whenTrue <| .inScope <|
      inOrder_statement body inBody.raised).bind fun _ _ isLater _ => ?_
    split
    · exact inOrder_symbols le_rfl ((known.grows isLater).mono inBody.le).whenFalse
    · exact .pure le_rfl trivial
  | .doWhile body condition _ => fun stretch => by
    have inside : Stretch _ _ _ _ (ofStatement itself body ++ ofExpression itself condition) :=
      stretch.inside
    obtain ⟨_, inBody, inCondition⟩ := inside.split
    refine (InOrder.inScope <| inOrder_statement body inBody.raised).andThen ?_
    refine (inOrder_expression condition inCondition.raised).bind fun _ _ _ known => ?_
    split
    · exact inOrder_symbols le_rfl known.whenFalse
    · exact .pure le_rfl trivial
  | .for initial condition update body _ => fun stretch => by
    rename_i low high state _
    have inside : Stretch _ _ _ _ (ofStatements itself initial ++ ofOptional itself condition ++
        ofExpressions itself update ++ ofStatement itself body) := stretch.inside
    obtain ⟨_, beforeBody, inBody⟩ := inside.split
    obtain ⟨_, beforeUpdate, inUpdate⟩ := beforeBody.split
    obtain ⟨_, inInitial, inCondition⟩ := beforeUpdate.split
    have looped : InOrder expressions place.scope true low high
        (fun flow bindings => bindings.FlowBefore high flow) state
        (inScope .block place fun loop => do
          bindStatements context loop initial
          let flow ← bindOptional context loop condition
          withSymbols loop flow.whenTrue fun outer => do
            inScope .block outer fun inner => bindStatement context inner body
            bindExpressions context outer update
          return flow) := by
      refine .inScope ?_
      refine (inOrder_statements initial inInitial).andThen ?_
      refine (inOrder_optional condition inCondition).bind fun _ _ _ known => ?_
      refine (InOrder.withSymbols known.whenTrue <| .swapped inUpdate.le inBody.le
        (.inScope <| inOrder_statement body inBody.raised)
        (inOrder_expressions update inUpdate)).bind fun _ _ isLater _ => ?_
      exact .pure le_rfl ((known.grows isLater).mono (inUpdate.le.trans inBody.le))
    refine looped.bind fun _ _ _ known => ?_
    split
    · exact inOrder_symbols le_rfl known.whenFalse
    · exact .pure le_rfl trivial
  | .forEach bound iterable body _ => fun stretch => by
    obtain ⟨_, inHead, inBody⟩ := stretch.inside.split
    refine .inScope ?_
    refine (inOrder_expression iterable inHead.right.raised).andThen ?_
    refine (inOrder_variable context le_rfl inHead.left.right.name.2).andThen ?_
    exact .inScope <| inOrder_statement body inBody.raised
  | .switch selector cases _ _ => fun stretch =>
    .split (fun inSelector => inOrder_expression selector inSelector.right.raised)
      (fun inCases => .inScope <| inOrder_cases cases inCases) stretch.inside
  | .return value _ => fun stretch => (inOrder_optional value stretch.inside).discard
  | .yield value _ | .throw value _ => fun stretch =>
    (inOrder_expression value stretch.inside.raised).discard
  | .assert condition message _ => fun stretch =>
    .split (fun inCondition => inOrder_expression condition inCondition.raised)
      (fun inMessage => (inOrder_optional message inMessage).ignored) stretch.inside
  | .synchronized lock body _ => fun stretch =>
    .split (fun inLock => inOrder_expression lock inLock.raised) (inOrder_block body) stretch.inside
  | .labeled _ body _ => fun stretch => inOrder_statement body stretch.inside.raised
  | .block body => fun stretch => inOrder_block body stretch
  | .try resources body catches finallyBlock _ => fun stretch => by
    obtain ⟨_, beforeFinally, inFinally⟩ := stretch.inside.split
    obtain ⟨_, beforeCatches, inCatches⟩ := beforeFinally.split
    obtain ⟨_, inResources, inBody⟩ := beforeCatches.split
    refine (InOrder.inScope <|
      (inOrder_resources resources inResources).andThen <| inOrder_block body inBody).andThen ?_
    exact (inOrder_catches catches inCatches).andThen <|
      inOrder_optionalBlock finallyBlock inFinally
  | .break .. | .continue .. | .empty _ => .nothing

theorem inOrder_declarators {place : Place} : ∀ declarators : List Declarator,
    Walks expressions place.scope true (Declarator.nodes declarators)
      (ofDeclarators itself declarators) (fun _ => Anything)
      (bindDeclarators context place base modifiers declarators)
  | [] => .nothing
  | ⟨header, initializer⟩ :: rest => fun stretch => by
    obtain ⟨_, inFirst, inRest⟩ := stretch.cons
    have inFirst := inFirst.inside
    refine (inOrder_optional initializer inFirst.right).andThen ?_
    exact (inOrder_declareLocal le_rfl inFirst.left.name.2).andThen <|
      inOrder_declarators rest inRest

theorem inOrder_resources {place : Place} : ∀ resources : List Resource,
    Walks expressions place.scope true (Resource.nodes resources)
      (ofResources itself resources) (fun _ => Anything) (bindResources context place resources)
  | [] => .nothing
  | .declared bound initializer _ :: rest => fun stretch => by
    obtain ⟨_, inFirst, inRest⟩ := stretch.cons
    have inFirst := inFirst.inside
    refine (inOrder_expression initializer inFirst.right.raised).andThen ?_
    exact (inOrder_variable context le_rfl inFirst.left.right.name.2).andThen <|
      inOrder_resources rest inRest
  | .expression expression _ :: rest =>
    .cons (fun inFirst => inOrder_expression expression inFirst.inside.raised)
      (inOrder_resources rest)

theorem inOrder_catches {place : Place} : ∀ clauses : List CatchClause,
    Walks expressions place.scope true (CatchClause.nodes clauses)
      (ofCatches itself clauses) (fun _ => Anything) (bindCatches context place clauses)
  | [] => .nothing
  | ⟨parameter, _, block, _⟩ :: rest => .cons
    (fun inFirst => by
      obtain ⟨_, inHead, inBlock⟩ := inFirst.inside.cut
      refine .inScope ?_
      exact (inOrder_catchParameter context inHead.le inHead.left.inside.right.name.2).andThen <|
        inOrder_block block inBlock) (inOrder_catches rest)

theorem inOrder_cases {place : Place} : ∀ cases : List SwitchCase,
    Walks expressions place.scope true (SwitchCase.nodes cases) (ofCases itself cases)
      (fun _ => Anything) (bindCases context place cases)
  | [] => .nothing
  | .group labels statements _ :: rest => .cons (fun inFirst => .inCase <|
      .split (inOrder_labels labels) (inOrder_statements statements) inFirst.inside)
    (inOrder_cases rest)
  | .valueRule label value _ :: rest => .cons (fun inFirst => .inCase <|
      .split (inOrder_label label)
        (fun inValue => (inOrder_expression value inValue.raised).ignored) inFirst.inside)
    (inOrder_cases rest)
  | .blockRule label block _ :: rest => .cons (fun inFirst => .inCase <|
      .split (inOrder_label label) (inOrder_block block) inFirst.inside)
    (inOrder_cases rest)
  | .throwRule label value _ _ :: rest => .cons (fun inFirst => .inCase <|
      .split (inOrder_label label)
        (fun inValue => (inOrder_expression value inValue.inside.raised).ignored) inFirst.inside)
    (inOrder_cases rest)

theorem inOrder_labels {place : Place} : ∀ labels : List SwitchLabel,
    Walks expressions place.scope true (SwitchLabel.nodes labels)
      (ofLabels itself labels) (fun _ => Anything) (bindLabels context place labels)
  | [] => .nothing
  | label :: rest => .cons (inOrder_label label) (inOrder_labels rest)

theorem inOrder_label {place : Place} : ∀ label : SwitchLabel,
    Walks expressions place.scope true [label.node] (ofLabel itself label)
      (fun _ => Anything) (bindLabel context place label)
  | ⟨elements, guard, _⟩ => fun stretch => by
    obtain ⟨_, inElements, inGuard⟩ := stretch.inside.split
    refine (inOrder_elements elements inElements).andThen ?_
    exact (inOrder_optional guard inGuard).atScope.bind
      fun _ _ _ known => inOrder_symbols le_rfl known.whenTrue

theorem inOrder_elements {place : Place} : ∀ elements : List CaseElement,
    Walks expressions place.scope true (CaseElement.nodes elements)
      (ofElements itself elements) (fun _ => Anything) (bindElements context place elements)
  | [] => .nothing
  | .constant value :: rest => .cons (inOrder_expression value) (inOrder_elements rest)
  | .pattern pattern :: rest => fun stretch => by
    obtain ⟨_, inFirst, inRest⟩ := stretch.cons
    refine (inOrder_pattern context pattern inFirst).bind fun _ _ _ known => ?_
    exact (inOrder_symbols le_rfl known).andThen <| inOrder_elements rest inRest
  | .null _ :: rest | .default _ :: rest => fun stretch => by
    obtain ⟨_, inFirst, inRest⟩ := stretch.cons
    exact (inOrder_elements rest inRest).mono inFirst.le

end

/-! ### Units -/

theorem inOrder_topTypes (unit : CompilationUnit)
    (stretch : Stretch expressions low high (unit.types.map TypeDeclaration.node) (ofUnit itself
      unit)) : InOrder expressions 0 false low high Anything state (bindTopTypes context unit) := by
  unfold bindTopTypes
  unfold ofUnit at stretch
  generalize unit.types = types at stretch
  induction types generalizing low state with
  | nil => exact .pure stretch.le trivial
  | cons declaration rest ih =>
    obtain ⟨_, inFirst, inRest⟩ := stretch.cons
    obtain ⟨_, isLater, _, inBody⟩ := inFirst.bodyOf
    exact ((inOrder_declaration context declaration inBody).atScope.mono isLater).andThen <|
      ih inRest

end Walk

end Binder

namespace CompilationUnit

open Binder Gather

theorem wellFormed_bind (unit : CompilationUnit) (context : UnitContext)
    (ascending : (Node.landmarksOf unit.node.parts).Pairwise (· < ·)) :
    (unit.bind context).1.WellFormed unit.expressions := by
  obtain ⟨high, isBound⟩ : ∃ high, ∀ mark ∈ Node.landmarksOf unit.node.parts, mark < high :=
    ⟨_, fun _ isMark => Nat.lt_succ_of_le (@le_max?_getD_of_mem _ _ 0 isMark)⟩
  have whole : Stretch unit.expressions 0 high unit.node.parts unit.expressions :=
    ⟨Nat.zero_le _, ascending, fun mark isMark => ⟨Nat.zero_le _, isBound mark isMark⟩,
      Subset.refl _⟩
  have noNames : ∀ scope, (ScopeTree.push {} .unit none).boundIn scope = [] :=
    fun scope => (ScopeTree.boundIn_push {} .unit none scope).trans rfl
  have ready : Ready unit.expressions 0 0 { tree := ScopeTree.push {} .unit none } :=
    { wellFormed :=
        { parents := fun scope isInner isScope => absurd isScope (not_lt.mpr isInner)
          named := fun scope bound isBound => absurd (noNames scope ▸ isBound) not_mem_nil
          used := fun _ _ isUse => absurd isUse not_mem_nil }
      lt_size := Nat.zero_lt_one
      visible := fun around _ _ bound isBound => absurd (noNames around ▸ isBound) not_mem_nil }
  have walked : InOrder unit.expressions 0 false 0 high Anything
      { bindings := { tree := ScopeTree.push {} .unit none } } (bindTopTypes context unit) :=
    inOrder_topTypes context unit whole.right
  exact (walked.run ready).1.wellFormed

theorem eq_of_id?_eq {id : Nat} (isFirst : first ∈ (ofTokens config tokens).1.expressions)
    (isSecond : second ∈ (ofTokens config tokens).1.expressions) (hasId : first.id? = some id)
    (hasSame : second.id? = some id) : first = second := by
  have nodup := nodup_numbers_ofTokens config tokens
  rw [ofUnit_ids] at nodup
  by_contra isOther
  have symmetric : Std.Symm (Function.onFun Disjoint fun expression : Expression =>
      expression.id?.toList) :=
    ⟨fun _ _ isDisjoint => isDisjoint.symm⟩
  have disjoint := (nodup_flatMap.mp nodup).2.forall isFirst isSecond isOther
  exact disjoint (Option.mem_toList.mpr hasId) (Option.mem_toList.mpr hasSame)

/-- The scopes of a unit that was parsed form a tree in which each scope but the first has a
parent with a smaller number. A name is bound to a symbol that has this name. Where an expression
is said to denote a variable, exactly one expression of the unit has its number; it is a name, and
the variable is a symbol with this name that is declared before it. -/
theorem bind_wellFormed (configuration : Configuration) (source : String)
    (context : UnitContext) :
    let unit := (parse configuration source).1
    let bindings := (unit.bind context).1
    (∀ scope, 0 < scope → scope < bindings.tree.size →
      ∃ parent < scope, bindings.tree.parent? scope = some parent) ∧
    (∀ scope name symbol, bindings.tree.local? scope name = some symbol →
      ∃ entry ∈ bindings.symbols[symbol]?, entry.name = name) ∧
    ∀ id symbol, bindings.referent? id = some (.variable symbol) →
      ∃ name span, .name name id span ∈ unit.expressions ∧
        (∀ expression ∈ unit.expressions, expression.id? = some id →
          expression = .name name id span) ∧
        ∃ entry ∈ bindings.symbols[symbol]?,
          entry.name = name ∧ entry.span.start.offset < span.start.offset := by
  have parsed := Grammar.parsed_source configuration source
  have ascending := (parsed.gathered.region _ rfl).ascending
  intro unit bindings
  have wellFormed : bindings.WellFormed unit.expressions := wellFormed_bind unit context ascending
  refine ⟨wellFormed.parents, fun scope name symbol isBound => ?_, fun id symbol isFound => ?_⟩
  · exact wellFormed.named scope (name, symbol) (ScopeTree.mem_boundIn_of_local? isBound)
  · obtain ⟨name, span, isName, declared⟩ :=
      wellFormed.used id symbol (mem_of_lookup_eq_some isFound)
    exact ⟨name, span, isName, fun _ isExpression hasId =>
      eq_of_id?_eq isExpression isName hasId rfl, declared⟩

end CompilationUnit

end JavaFrontEnd
