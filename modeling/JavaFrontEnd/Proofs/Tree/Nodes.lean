/-
The nodes of a tree. Each part of a unit is shown as a node: its span, and the nodes of its own
parts in the order in which they are read. A node is marked as deeper where the grammar opens a
level before it is read. Names have nodes of their own, and so have annotations; the arguments of
annotations are kept apart from the tree and have their nodes there.
-/

import JavaFrontEnd.Tree

namespace JavaFrontEnd

open List

/-- What a node is, as far as statements about trees tell nodes apart. -/
inductive NodeSort where
  | declaration (kind : TypeKind)
  | body
  | expression
  | annotationUse
  | name
  | other
  deriving DecidableEq

structure Node where
  sort : NodeSort
  /-- The node is read one level deeper than the node that it is part of. -/
  deeper : Bool
  span : Span
  parts : List Node

namespace Node

def leaf (span : Span) : Node :=
  ⟨.other, false, span, []⟩

def name (span : Span) : Node :=
  ⟨.name, false, span, []⟩

def lowered (node : Node) : Node :=
  { node with deeper := true }

@[simp]
theorem sort_lowered (node : Node) : node.lowered.sort = node.sort :=
  rfl

end Node

/-! ### Landmarks -/

/-- A node that begins with a landmark: a name, or a class body that has no declaration. -/
def NodeSort.isLandmark : NodeSort → Bool
  | .name | .body => true
  | _ => false

namespace Node

mutual

/-- The offsets at which the names and the class bodies in a node begin, annotations apart. -/
def landmarks : Node → List Nat
  | ⟨sort, _, span, parts⟩ =>
    if sort = .annotationUse then []
    else (if sort.isLandmark then [span.start.offset] else []) ++ landmarksOf parts

def landmarksOf : List Node → List Nat
  | [] => []
  | node :: rest => node.landmarks ++ landmarksOf rest

end

variable {node : Node} {nodes : List Node}

theorem landmarks_eq_nil (isMark : node.sort = .annotationUse) : node.landmarks = [] := by
  cases node
  exact if_pos isMark

theorem landmarks_eq (isNoMark : node.sort ≠ .annotationUse) :
    node.landmarks = (if node.sort.isLandmark then [node.span.start.offset] else []) ++
      landmarksOf node.parts := by
  cases node
  exact if_neg isNoMark

@[simp]
theorem landmarksOf_cons (node : Node) (rest : List Node) :
    landmarksOf (node :: rest) = node.landmarks ++ landmarksOf rest :=
  rfl

@[simp]
theorem landmarksOf_singleton (node : Node) : landmarksOf [node] = node.landmarks :=
  append_nil _

@[simp]
theorem landmarksOf_append (first second : List Node) :
    landmarksOf (first ++ second) = landmarksOf first ++ landmarksOf second := by
  induction first with
  | nil => rfl
  | cons node rest ih =>
    rw [cons_append, landmarksOf_cons, ih, landmarksOf_cons, append_assoc]

@[simp]
theorem landmarks_lowered (node : Node) : node.lowered.landmarks = node.landmarks := by
  cases node
  rfl

@[simp]
theorem landmarksOf_lowered (nodes : List Node) :
    landmarksOf (nodes.map lowered) = landmarksOf nodes := by
  induction nodes with
  | nil => rfl
  | cons node rest ih =>
    rw [map_cons, landmarksOf_cons, landmarks_lowered, ih, landmarksOf_cons]

theorem landmarksOf_eq_nil (isNone : ∀ node ∈ nodes, node.landmarks = []) :
    landmarksOf nodes = [] := by
  induction nodes with
  | nil => rfl
  | cons node rest ih =>
    obtain ⟨first, others⟩ := forall_mem_cons.mp isNone
    rw [landmarksOf_cons, first, ih others, append_nil]

theorem exists_of_mem_landmarksOf (isMark : mark ∈ landmarksOf nodes) :
    ∃ node ∈ nodes, mark ∈ node.landmarks := by
  induction nodes with
  | nil => cases isMark
  | cons node rest ih =>
    rcases mem_append.mp isMark with isFirst | isLater
    · exact ⟨node, mem_cons_self, isFirst⟩
    · obtain ⟨other, isOther, isMark⟩ := ih isLater
      exact ⟨other, mem_cons_of_mem _ isOther, isMark⟩

theorem landmarks_sublist {sort : NodeSort} (isNone : sort.isLandmark = false) (deeper : Bool)
    (span : Span) (parts : List Node) :
    (⟨sort, deeper, span, parts⟩ : Node).landmarks <+ landmarksOf parts := by
  by_cases isMark : sort = .annotationUse
  · rw [landmarks_eq_nil isMark]
    exact nil_sublist _
  · rw [landmarks_eq isMark, if_neg (Bool.eq_false_iff.mp isNone)]
    exact .refl _

theorem landmarksOf_parts_sublist (isNoMark : node.sort ≠ .annotationUse) :
    landmarksOf node.parts <+ node.landmarks := by
  rw [landmarks_eq isNoMark]
  exact sublist_append_right _ _

theorem landmarks_sublist_landmarksOf (isNode : node ∈ nodes) :
    node.landmarks <+ landmarksOf nodes := by
  induction isNode with
  | head => exact sublist_append_left _ _
  | tail _ _ ih => exact ih.trans (sublist_append_right _ _)

theorem landmarks_part_sublist (isPart : part ∈ node.parts)
    (isNoMark : node.sort ≠ .annotationUse) : part.landmarks <+ node.landmarks :=
  (landmarks_sublist_landmarksOf isPart).trans (landmarksOf_parts_sublist isNoMark)

theorem landmarksOf_sublist (isSublist : first <+ second) :
    landmarksOf first <+ landmarksOf second := by
  induction isSublist with
  | slnil => exact .slnil
  | cons node _ ih =>
    exact ih.trans (sublist_append_right _ _)
  | cons_cons node _ ih => exact ih.append_left _

end Node

/-! ### Types, parameters and patterns -/

def AnnotationUse.node (use : AnnotationUse) : Node :=
  ⟨.annotationUse, false, use.span, []⟩

mutual

def WrittenType.node : WrittenType → Node
  | ⟨_, arguments, _, annotations, _, span⟩ =>
    ⟨.other, false, span, annotations.map AnnotationUse.node ++ TypeArgument.nodes arguments⟩

def TypeArgument.node : TypeArgument → Node
  | .type written => written.node.lowered
  | .wildcard span => .leaf span
  | .bounded _ bound span => ⟨.other, false, span, [bound.node.lowered]⟩

def TypeArgument.nodes : List TypeArgument → List Node
  | [] => []
  | argument :: rest => argument.node :: TypeArgument.nodes rest

end

def WrittenType.lowered (types : List WrittenType) : List Node :=
  types.map fun type => type.node.lowered

def WrittenType.optionalLowered (type : Option WrittenType) : List Node :=
  WrittenType.lowered type.toList

def TypeParameter.node (parameter : TypeParameter) : Node :=
  ⟨.other, false, parameter.span, WrittenType.lowered parameter.bounds⟩

def Parameter.node (parameter : Parameter) : Node :=
  ⟨.other, false, parameter.span,
    parameter.annotations.map AnnotationUse.node ++ [parameter.type.node.lowered] ++
      [.name parameter.nameSpan]⟩

def LambdaParameter.node (parameter : LambdaParameter) : Node :=
  ⟨.other, false, parameter.span,
    WrittenType.optionalLowered parameter.type ++ [.name parameter.nameSpan]⟩

def TypePattern.node (pattern : TypePattern) : Node :=
  ⟨.other, false, pattern.span, [pattern.type.node.lowered] ++ [.name pattern.nameSpan]⟩

mutual

def Pattern.node : Pattern → Node
  | .type pattern => pattern.node
  | .record tested components span =>
    ⟨.other, false, span, [tested.node.lowered] ++ Pattern.lowered components⟩

def Pattern.lowered : List Pattern → List Node
  | [] => []
  | pattern :: rest => pattern.node.lowered :: Pattern.lowered rest

end

def TypeShape.nodes : TypeShape → List Node
  | .class parameters superclass interfaces permits =>
    parameters.map TypeParameter.node ++ WrittenType.optionalLowered superclass ++
      WrittenType.lowered interfaces ++ WrittenType.lowered permits
  | .interface parameters interfaces permits =>
    parameters.map TypeParameter.node ++ WrittenType.lowered interfaces ++
      WrittenType.lowered permits
  | .enum interfaces _ => WrittenType.lowered interfaces
  | .annotationType => []
  | .record parameters components interfaces =>
    parameters.map TypeParameter.node ++ components.map Parameter.node ++
      WrittenType.lowered interfaces

def BoundVariable.nodes (bound : BoundVariable) : List Node :=
  [bound.type.node.lowered] ++ [.name bound.nameSpan]

/-! ### Expressions, statements and members -/

def UnaryOperator.isPostfix : UnaryOperator → Bool
  | .postIncrement | .postDecrement => true
  | _ => false

/-- The members of an enum are read at its own level, those of other types one level deeper. -/
def TypeKind.loweredMembers (kind : TypeKind) (members : List Node) : List Node :=
  if kind = .enum then members else members.map Node.lowered

mutual

def Expression.node : Expression → Node
  | .literal _ span | .this _ span | .super span | .erroneous span =>
    ⟨.expression, false, span, []⟩
  | .name _ _ span => ⟨.expression, false, span, [.name span]⟩
  | .field target _ nameSpan _ span =>
    ⟨.expression, false, span, [target.node] ++ [.name nameSpan]⟩
  | .call target typeArguments _ nameSpan arguments _ span =>
    ⟨.expression, false, span,
      Expression.optional target ++ WrittenType.lowered typeArguments ++ [.name nameSpan] ++
        Expression.lowered arguments⟩
  | .binary _ left right span => ⟨.expression, false, span, [left.node] ++ [right.node.lowered]⟩
  | .unary operator operand span =>
    ⟨.expression, false, span, [if operator.isPostfix then operand.node else operand.node.lowered]⟩
  | .assignment _ target value span =>
    ⟨.expression, false, span, [target.node] ++ [value.node.lowered]⟩
  | .index array index span => ⟨.expression, false, span, [array.node] ++ [index.node.lowered]⟩
  | .cast type bounds operand span =>
    ⟨.expression, false, span,
      [type.node.lowered] ++ WrittenType.lowered bounds ++ [operand.node.lowered]⟩
  | .instanceOf operand type span =>
    ⟨.expression, false, span, [operand.node] ++ [type.node.lowered]⟩
  | .instanceOfPattern operand pattern span =>
    ⟨.expression, false, span, [operand.node] ++ [pattern.node]⟩
  | .conditional condition yes no span =>
    ⟨.expression, false, span, [condition.node] ++ [yes.node.lowered] ++ [no.node.lowered]⟩
  | .create outer type arguments body _ span =>
    ⟨.expression, false, span,
      Expression.optional outer ++ [type.node.lowered] ++ Expression.lowered arguments ++
        ClassBody.optional body⟩
  | .createArray element sizes _ initializer span =>
    ⟨.expression, false, span,
      [element.node.lowered] ++ Expression.lowered sizes ++ Expression.optionalLowered initializer⟩
  | .arrayInitializer elements span => ⟨.expression, false, span, Expression.lowered elements⟩
  | .lambda parameters body span =>
    ⟨.expression, false, span, parameters.map LambdaParameter.node ++ [body.node.lowered]⟩
  | .blockLambda parameters body span =>
    ⟨.expression, false, span, parameters.map LambdaParameter.node ++ [body.node]⟩
  | .methodReference target _ span => ⟨.expression, false, span, [target.node]⟩
  | .typeMethodReference target _ span => ⟨.expression, false, span, [target.node]⟩
  | .switch selector cases keywordSpan span =>
    ⟨.expression, false, span,
      [.leaf keywordSpan] ++ [selector.node.lowered] ++ SwitchCase.nodes cases⟩
  | .classLiteral type span => ⟨.expression, false, span, [type.node]⟩
  | .parenthesized inner span => ⟨.expression, false, span, [inner.node.lowered]⟩

def Expression.lowered : List Expression → List Node
  | [] => []
  | expression :: rest => expression.node.lowered :: Expression.lowered rest

def Expression.optional : Option Expression → List Node
  | none => []
  | some expression => [expression.node]

def Expression.optionalLowered : Option Expression → List Node
  | none => []
  | some expression => [expression.node.lowered]

def Block.node : Block → Node
  | ⟨statements, span⟩ => ⟨.other, false, span, Statement.nodes statements⟩

def Block.optional : Option Block → List Node
  | none => []
  | some block => [block.node]

def Statement.node : Statement → Node
  | .expression expression span => ⟨.other, false, span, [expression.node.lowered]⟩
  | .locals header declarations span =>
    ⟨.other, false, span,
      header.annotations.map AnnotationUse.node ++ [header.type.node.lowered] ++
        Declarator.nodes declarations⟩
  | .typeDeclaration declaration => declaration.node
  | .conditional condition yes no span =>
    ⟨.other, false, span,
      [condition.node.lowered] ++ [yes.node.lowered] ++ Statement.optionalLowered no⟩
  | .while condition body span =>
    ⟨.other, false, span, [condition.node.lowered] ++ [body.node.lowered]⟩
  | .doWhile body condition span =>
    ⟨.other, false, span, [body.node.lowered] ++ [condition.node.lowered]⟩
  | .for initial condition update body span =>
    ⟨.other, false, span,
      Statement.nodes initial ++ Expression.optionalLowered condition ++
        Expression.lowered update ++ [body.node.lowered]⟩
  | .forEach bound iterable body span =>
    ⟨.other, false, span, bound.nodes ++ [iterable.node.lowered] ++ [body.node.lowered]⟩
  | .switch selector cases keywordSpan span =>
    ⟨.other, false, span, [.leaf keywordSpan] ++ [selector.node.lowered] ++ SwitchCase.nodes cases⟩
  | .return value span => ⟨.other, false, span, Expression.optionalLowered value⟩
  | .yield value span | .throw value span => ⟨.other, false, span, [value.node.lowered]⟩
  | .try resources body catches finallyBlock span =>
    ⟨.other, false, span,
      Resource.nodes resources ++ [body.node] ++ CatchClause.nodes catches ++
        Block.optional finallyBlock⟩
  | .assert condition message span =>
    ⟨.other, false, span, [condition.node.lowered] ++ Expression.optionalLowered message⟩
  | .synchronized lock body span => ⟨.other, false, span, [lock.node.lowered] ++ [body.node]⟩
  | .labeled _ body span => ⟨.other, false, span, [body.node.lowered]⟩
  | .block body => body.node
  | .break _ span | .continue _ span | .empty span => .leaf span

def Statement.nodes : List Statement → List Node
  | [] => []
  | statement :: rest => statement.node :: Statement.nodes rest

def Statement.optionalLowered : Option Statement → List Node
  | none => []
  | some statement => [statement.node.lowered]

def Declarator.node : Declarator → Node
  | ⟨header, initializer⟩ =>
    ⟨.other, false, header.span, [.name header.nameSpan] ++ Expression.optionalLowered initializer⟩

def Declarator.nodes : List Declarator → List Node
  | [] => []
  | declarator :: rest => declarator.node :: Declarator.nodes rest

def Resource.node : Resource → Node
  | .declared bound initializer span =>
    ⟨.other, false, span, bound.nodes ++ [initializer.node.lowered]⟩
  | .expression expression span => ⟨.other, false, span, [expression.node.lowered]⟩

def Resource.nodes : List Resource → List Node
  | [] => []
  | resource :: rest => resource.node :: Resource.nodes rest

def CatchClause.node : CatchClause → Node
  | ⟨parameter, alternatives, block, span⟩ =>
    ⟨.other, false, span, [parameter.node] ++ WrittenType.lowered alternatives ++ [block.node]⟩

def CatchClause.nodes : List CatchClause → List Node
  | [] => []
  | clause :: rest => clause.node :: CatchClause.nodes rest

def SwitchCase.node : SwitchCase → Node
  | .group labels statements span =>
    ⟨.other, false, span, SwitchLabel.nodes labels ++ Statement.nodes statements⟩
  | .valueRule label value span => ⟨.other, false, span, [label.node] ++ [value.node.lowered]⟩
  | .blockRule label block span => ⟨.other, false, span, [label.node] ++ [block.node]⟩
  | .throwRule label value throwSpan span =>
    ⟨.other, false, span, [label.node] ++ [⟨.other, false, throwSpan, [value.node.lowered]⟩]⟩

def SwitchCase.nodes : List SwitchCase → List Node
  | [] => []
  | switchCase :: rest => switchCase.node :: SwitchCase.nodes rest

def SwitchLabel.node : SwitchLabel → Node
  | ⟨elements, guard, span⟩ =>
    ⟨.other, false, span, CaseElement.nodes elements ++ Expression.optionalLowered guard⟩

def SwitchLabel.nodes : List SwitchLabel → List Node
  | [] => []
  | label :: rest => label.node :: SwitchLabel.nodes rest

def CaseElement.node : CaseElement → Node
  | .constant value => value.node
  | .pattern pattern => pattern.node
  | .null span | .default span => .leaf span

def CaseElement.nodes : List CaseElement → List Node
  | [] => []
  | element :: rest => element.node :: CaseElement.nodes rest

def ClassBody.node : ClassBody → Node
  | ⟨members, span⟩ => ⟨.body, false, span, (Member.nodes members).map Node.lowered⟩

def ClassBody.optional : Option ClassBody → List Node
  | none => []
  | some body => [body.node]

def Member.node : Member → Node
  | .field header initializer =>
    ⟨.other, false, header.span,
      header.annotations.map AnnotationUse.node ++ [header.type.node.lowered] ++
        [.name header.nameSpan] ++ Expression.optionalLowered initializer⟩
  | .method header body defaultValue =>
    ⟨.other, false, header.span,
      header.annotations.map AnnotationUse.node ++ header.typeParameters.map TypeParameter.node ++
        WrittenType.optionalLowered header.returnType ++ [.name header.nameSpan] ++
        header.parameters.map Parameter.node ++ WrittenType.lowered header.throws ++
        Expression.optional defaultValue ++ Block.optional body⟩
  | .constructor header call body =>
    ⟨.other, false, header.span,
      header.annotations.map AnnotationUse.node ++
        header.typeParameters.map TypeParameter.node ++ [.name header.nameSpan] ++
        header.parameters.map Parameter.node ++ WrittenType.lowered header.throws ++
        ConstructorCall.nodes call ++ [body.node]⟩
  | .initializer _ body span => ⟨.other, false, span, [body.node]⟩
  | .type declaration => declaration.node

def Member.nodes : List Member → List Node
  | [] => []
  | member :: rest => member.node :: Member.nodes rest

def ConstructorCall.nodes : ConstructorCall → List Node
  | .implicit => []
  | .this arguments span | .super arguments span =>
    [⟨.other, false, span, Expression.lowered arguments⟩]

def TypeDeclaration.node : TypeDeclaration → Node
  | ⟨header, constants, members⟩ =>
    ⟨.declaration header.shape.kind, false, header.span,
      header.annotations.map AnnotationUse.node ++ [.name header.nameSpan] ++
        header.shape.nodes ++ EnumConstant.nodes constants ++
        header.shape.kind.loweredMembers (Member.nodes members)⟩

def EnumConstant.node : EnumConstant → Node
  | ⟨header, arguments, body⟩ =>
    ⟨.other, false, header.span,
      header.annotations.map AnnotationUse.node ++ [.name header.nameSpan] ++
        Expression.lowered arguments ++ ClassBody.optional body⟩

def EnumConstant.nodes : List EnumConstant → List Node
  | [] => []
  | constant :: rest => constant.node :: EnumConstant.nodes rest

end

/-! ### Lists of nodes -/

theorem eq_map_of_cons {α : Type} {list : List α → List Node} {node : α → Node}
    (nil : list [] = []) (cons : ∀ first rest, list (first :: rest) = node first :: list rest)
    (elements : List α) : list elements = elements.map node := by
  induction elements with
  | nil => exact nil
  | cons first rest ih => rw [cons, ih, map_cons]

theorem TypeArgument.nodes_eq_map (arguments : List TypeArgument) :
    TypeArgument.nodes arguments = arguments.map TypeArgument.node :=
  eq_map_of_cons rfl (fun _ _ => rfl) arguments

theorem Pattern.lowered_eq_map (patterns : List Pattern) :
    Pattern.lowered patterns = patterns.map fun pattern => pattern.node.lowered :=
  eq_map_of_cons rfl (fun _ _ => rfl) patterns

theorem Expression.lowered_eq_map (expressions : List Expression) :
    Expression.lowered expressions = expressions.map fun expression => expression.node.lowered :=
  eq_map_of_cons rfl (fun _ _ => rfl) expressions

theorem Statement.nodes_eq_map (statements : List Statement) :
    Statement.nodes statements = statements.map Statement.node :=
  eq_map_of_cons rfl (fun _ _ => rfl) statements

theorem Declarator.nodes_eq_map (declarators : List Declarator) :
    Declarator.nodes declarators = declarators.map Declarator.node :=
  eq_map_of_cons rfl (fun _ _ => rfl) declarators

theorem Resource.nodes_eq_map (resources : List Resource) :
    Resource.nodes resources = resources.map Resource.node :=
  eq_map_of_cons rfl (fun _ _ => rfl) resources

theorem CatchClause.nodes_eq_map (clauses : List CatchClause) :
    CatchClause.nodes clauses = clauses.map CatchClause.node :=
  eq_map_of_cons rfl (fun _ _ => rfl) clauses

theorem SwitchCase.nodes_eq_map (cases : List SwitchCase) :
    SwitchCase.nodes cases = cases.map SwitchCase.node :=
  eq_map_of_cons rfl (fun _ _ => rfl) cases

theorem SwitchLabel.nodes_eq_map (labels : List SwitchLabel) :
    SwitchLabel.nodes labels = labels.map SwitchLabel.node :=
  eq_map_of_cons rfl (fun _ _ => rfl) labels

theorem CaseElement.nodes_eq_map (elements : List CaseElement) :
    CaseElement.nodes elements = elements.map CaseElement.node :=
  eq_map_of_cons rfl (fun _ _ => rfl) elements

theorem Member.nodes_eq_map (members : List Member) :
    Member.nodes members = members.map Member.node :=
  eq_map_of_cons rfl (fun _ _ => rfl) members

theorem EnumConstant.nodes_eq_map (constants : List EnumConstant) :
    EnumConstant.nodes constants = constants.map EnumConstant.node :=
  eq_map_of_cons rfl (fun _ _ => rfl) constants

/-! ### Nodes without landmarks -/

theorem AnnotationUse.landmarksOf_nodes (annotations : List AnnotationUse) :
    Node.landmarksOf (annotations.map AnnotationUse.node) = [] :=
  Node.landmarksOf_eq_nil (forall_mem_map.mpr fun _ _ => rfl)

mutual

@[simp]
theorem WrittenType.landmarks_node : ∀ type : WrittenType, type.node.landmarks = []
  | ⟨_, arguments, _, annotations, _, _⟩ => by
    show Node.landmarksOf (annotations.map AnnotationUse.node ++ TypeArgument.nodes arguments) = []
    rw [Node.landmarksOf_append, AnnotationUse.landmarksOf_nodes,
      TypeArgument.landmarksOf_nodes arguments, append_nil]

theorem TypeArgument.landmarks_node : ∀ argument : TypeArgument, argument.node.landmarks = []
  | .type written => (Node.landmarks_lowered _).trans written.landmarks_node
  | .wildcard _ => rfl
  | .bounded _ bound _ => by
    show bound.node.lowered.landmarks ++ [] = []
    rw [Node.landmarks_lowered, bound.landmarks_node, append_nil]

theorem TypeArgument.landmarksOf_nodes : ∀ arguments : List TypeArgument,
    Node.landmarksOf (TypeArgument.nodes arguments) = []
  | [] => rfl
  | argument :: rest => by
    show argument.node.landmarks ++ Node.landmarksOf (TypeArgument.nodes rest) = []
    rw [argument.landmarks_node, TypeArgument.landmarksOf_nodes rest, append_nil]

end

@[simp]
theorem WrittenType.landmarksOf_lowered (types : List WrittenType) :
    Node.landmarksOf (WrittenType.lowered types) = [] :=
  Node.landmarksOf_eq_nil (forall_mem_map.mpr fun type _ =>
    (Node.landmarks_lowered _).trans type.landmarks_node)

theorem WrittenType.landmarksOf_annotated (annotations : List AnnotationUse) (type : WrittenType) :
    Node.landmarksOf (annotations.map AnnotationUse.node ++ [type.node.lowered]) = [] := by
  rw [Node.landmarksOf_append, AnnotationUse.landmarksOf_nodes, Node.landmarksOf_singleton,
    Node.landmarks_lowered, type.landmarks_node, append_nil]

/-! ### The spans and sorts of nodes -/

@[simp]
theorem Pattern.span_node (pattern : Pattern) : pattern.node.span = pattern.span := by
  cases pattern <;> rfl

@[simp]
theorem Expression.span_node (expression : Expression) :
    expression.node.span = expression.span := by
  cases expression <;> rfl

@[simp]
theorem WrittenType.sort_node (type : WrittenType) : type.node.sort = .other := by
  cases type
  rfl

@[simp]
theorem Expression.sort_node (expression : Expression) : expression.node.sort = .expression := by
  cases expression <;> rfl

@[simp]
theorem ClassBody.sort_node (body : ClassBody) : body.node.sort = .body := by
  cases body
  rfl

theorem Member.sort_node_ne_annotationUse (member : Member) :
    member.node.sort ≠ .annotationUse := by
  cases member with
  | type declaration =>
    cases declaration
    nofun
  | _ => nofun

@[simp]
theorem Block.span_node (block : Block) : block.node.span = block.span := by
  cases block
  rfl

@[simp]
theorem ClassBody.span_node (body : ClassBody) : body.node.span = body.span := by
  cases body
  rfl

/-! ### Units -/

def AnnotationArgument.expression : AnnotationArgument → Expression
  | .value given => given
  | .named _ given => given

def AnnotationArgument.node (argument : AnnotationArgument) : Node :=
  argument.expression.node

def PackageDeclaration.node (package : PackageDeclaration) : Node :=
  ⟨.other, false, package.span, package.annotations.map AnnotationUse.node⟩

def ImportDeclaration.node (declaration : ImportDeclaration) : Node :=
  .leaf declaration.span

def CompilationUnit.node (unit : CompilationUnit) : Node :=
  ⟨.other, false, unit.span,
    unit.package.toList.map PackageDeclaration.node ++ unit.imports.map ImportDeclaration.node ++
      unit.types.map TypeDeclaration.node⟩

end JavaFrontEnd
