/-
The expressions of a tree. A walk over a tree gathers what a function finds at each expression: an
expression comes before its parts, and these come in the order in which they are read. The arguments
of annotations are kept apart from the tree and are not gone through.
-/

import JavaFrontEnd.Tree

namespace JavaFrontEnd

def Expression.id? : Expression → Option Nat
  | .name _ id _ | .field _ _ _ id _ | .call _ _ _ _ _ id _ | .create _ _ _ _ id _ => some id
  | _ => none

namespace Gather

/-- What is gathered at each expression, and at each `do`, `for` and `switch` statement. -/
structure Rule (β : Type) where
  expression : Expression → List β
  branching : Statement → List β := fun _ => []

variable {β : Type} (own : Rule β)

mutual

def ofDeclaration : TypeDeclaration → List β
  | ⟨_, constants, members⟩ => ofConstants constants ++ ofMembers members

def ofConstant : EnumConstant → List β
  | ⟨_, arguments, body⟩ => ofExpressions arguments ++ ofOptionalBody body

def ofConstants : List EnumConstant → List β
  | [] => []
  | constant :: rest => ofConstant constant ++ ofConstants rest

def ofBody : ClassBody → List β
  | ⟨members, _⟩ => ofMembers members

def ofOptionalBody : Option ClassBody → List β
  | none => []
  | some body => ofBody body

def ofMembers : List Member → List β
  | [] => []
  | member :: rest => ofMember member ++ ofMembers rest

def ofMember : Member → List β
  | .type declaration => ofDeclaration declaration
  | .field _ initializer => ofOptional initializer
  | .method _ body defaultValue => ofOptional defaultValue ++ ofOptionalBlock body
  | .constructor _ call body => ofCall call ++ ofBlock body
  | .initializer _ body _ => ofBlock body

def ofCall : ConstructorCall → List β
  | .implicit => []
  | .this arguments _ | .super arguments _ => ofExpressions arguments

def ofExpressions : List Expression → List β
  | [] => []
  | expression :: rest => ofExpression expression ++ ofExpressions rest

def ofOptional : Option Expression → List β
  | none => []
  | some expression => ofExpression expression

def ofExpression : Expression → List β
  | whole@(.field target ..) => own.expression whole ++ ofExpression target
  | whole@(.call target _ _ _ arguments _ _) =>
    own.expression whole ++ (ofOptional target ++ ofExpressions arguments)
  | whole@(.binary _ left right _) =>
    own.expression whole ++ (ofExpression left ++ ofExpression right)
  | whole@(.unary _ operand _) => own.expression whole ++ ofExpression operand
  | whole@(.assignment _ target value _) =>
    own.expression whole ++ (ofExpression target ++ ofExpression value)
  | whole@(.index array index _) =>
    own.expression whole ++ (ofExpression array ++ ofExpression index)
  | whole@(.cast _ _ operand _) => own.expression whole ++ ofExpression operand
  | whole@(.instanceOf operand _ _) => own.expression whole ++ ofExpression operand
  | whole@(.instanceOfPattern operand _ _) => own.expression whole ++ ofExpression operand
  | whole@(.conditional condition yes no _) =>
    own.expression whole ++ (ofExpression condition ++ ofExpression yes ++ ofExpression no)
  | whole@(.create outer _ arguments body _ _) =>
    own.expression whole ++ (ofOptional outer ++ (ofExpressions arguments ++ ofOptionalBody body))
  | whole@(.createArray _ sizes _ initializer _) =>
    own.expression whole ++ (ofExpressions sizes ++ ofOptional initializer)
  | whole@(.arrayInitializer elements _) => own.expression whole ++ ofExpressions elements
  | whole@(.lambda _ body _) => own.expression whole ++ ofExpression body
  | whole@(.blockLambda _ body _) => own.expression whole ++ ofBlock body
  | whole@(.methodReference target _ _) => own.expression whole ++ ofExpression target
  | whole@(.switch selector cases _ _) =>
    own.expression whole ++ (ofExpression selector ++ ofCases cases)
  | whole@(.parenthesized inner _) => own.expression whole ++ ofExpression inner
  | whole@(.literal ..) | whole@(.name ..) | whole@(.typeMethodReference ..) | whole@(.this ..)
  | whole@(.super _) | whole@(.classLiteral ..) | whole@(.erroneous _) => own.expression whole

def ofBlock : Block → List β
  | ⟨statements, _⟩ => ofStatements statements

def ofOptionalBlock : Option Block → List β
  | none => []
  | some block => ofBlock block

def ofStatements : List Statement → List β
  | [] => []
  | statement :: rest => ofStatement statement ++ ofStatements rest

def ofOptionalStatement : Option Statement → List β
  | none => []
  | some statement => ofStatement statement

def ofStatement : Statement → List β
  | .typeDeclaration declaration => ofDeclaration declaration
  | .expression expression _ => ofExpression expression
  | .locals _ declarations _ => ofDeclarators declarations
  | .conditional condition yes no _ =>
    ofExpression condition ++ ofStatement yes ++ ofOptionalStatement no
  | .while condition body _ => ofExpression condition ++ ofStatement body
  | whole@(.doWhile body condition _) =>
    own.branching whole ++ (ofStatement body ++ ofExpression condition)
  | whole@(.for initial condition update body _) =>
    own.branching whole ++
      (ofStatements initial ++ ofOptional condition ++ ofExpressions update ++ ofStatement body)
  | .forEach _ iterable body _ => ofExpression iterable ++ ofStatement body
  | whole@(.switch selector cases _ _) =>
    own.branching whole ++ (ofExpression selector ++ ofCases cases)
  | .return value _ => ofOptional value
  | .yield value _ | .throw value _ => ofExpression value
  | .try resources body catches finallyBlock _ =>
    ofResources resources ++ ofBlock body ++ ofCatches catches ++ ofOptionalBlock finallyBlock
  | .assert condition message _ => ofExpression condition ++ ofOptional message
  | .synchronized lock body _ => ofExpression lock ++ ofBlock body
  | .labeled _ body _ => ofStatement body
  | .block body => ofBlock body
  | .break .. | .continue .. | .empty _ => []

def ofDeclarator : Declarator → List β
  | ⟨_, initializer⟩ => ofOptional initializer

def ofDeclarators : List Declarator → List β
  | [] => []
  | declarator :: rest => ofDeclarator declarator ++ ofDeclarators rest

def ofResource : Resource → List β
  | .declared _ initializer _ => ofExpression initializer
  | .expression expression _ => ofExpression expression

def ofResources : List Resource → List β
  | [] => []
  | resource :: rest => ofResource resource ++ ofResources rest

def ofCatch : CatchClause → List β
  | ⟨_, _, block, _⟩ => ofBlock block

def ofCatches : List CatchClause → List β
  | [] => []
  | clause :: rest => ofCatch clause ++ ofCatches rest

def ofCase : SwitchCase → List β
  | .group labels statements _ => ofLabels labels ++ ofStatements statements
  | .valueRule label value _ => ofLabel label ++ ofExpression value
  | .blockRule label block _ => ofLabel label ++ ofBlock block
  | .throwRule label value _ _ => ofLabel label ++ ofExpression value

def ofCases : List SwitchCase → List β
  | [] => []
  | case :: rest => ofCase case ++ ofCases rest

def ofLabel : SwitchLabel → List β
  | ⟨elements, guard, _⟩ => ofElements elements ++ ofOptional guard

def ofLabels : List SwitchLabel → List β
  | [] => []
  | label :: rest => ofLabel label ++ ofLabels rest

def ofElement : CaseElement → List β
  | .constant value => ofExpression value
  | .pattern _ | .null _ | .default _ => []

def ofElements : List CaseElement → List β
  | [] => []
  | element :: rest => ofElement element ++ ofElements rest

end

def ofUnit (unit : CompilationUnit) : List β :=
  unit.types.flatMap (ofDeclaration own)

def itself : Rule Expression where
  expression := fun expression => [expression]

end Gather

/-- The numbers of expressions. -/
def Expression.ids : Gather.Rule Nat where
  expression := fun expression => expression.id?.toList

def CompilationUnit.expressions (unit : CompilationUnit) : List Expression :=
  Gather.ofUnit Gather.itself unit

/-! ### What is gathered and the list of all expressions -/

namespace Gather

variable {β : Type} {find : Expression → List β}

/-- What was gathered is what a function finds at some expressions, one after the other. -/
def From (find : Expression → List β) (gathered : List β) (expressions : List Expression) :
    Prop :=
  gathered = expressions.flatMap find

namespace From

variable {gathered more : List β} {expressions others : List Expression}

theorem nothing : From find [] [] :=
  rfl

theorem one (expression : Expression) : From find (find expression) [expression] :=
  (List.flatMap_singleton find expression).symm

theorem append (first : From find gathered expressions) (second : From find more others) :
    From find (gathered ++ more) (expressions ++ others) := by
  unfold From at *
  rw [List.flatMap_append, first, second]

end From

/-- A walk gathers what a function finds at the expressions that the same walk lists. -/
abbrev Traces {τ : Type} (find : Expression → List β)
    (walk : {γ : Type} → Rule γ → τ → List γ) (tree : τ) : Prop :=
  From find (walk { expression := find } tree) (walk itself tree)

-- The induction follows the walk: the parts of a tree are gathered one after the other.
theorem traces_ofDeclaration (declaration : TypeDeclaration) :
    Traces find ofDeclaration declaration := by
  apply ofDeclaration.induct
    (Traces find ofDeclaration) (Traces find ofMembers) (Traces find ofMember) (Traces find ofBlock)
    (Traces find ofStatements) (Traces find ofStatement) (Traces find ofOptionalBlock)
    (Traces find ofCatches) (Traces find ofCatch) (Traces find ofResources) (Traces find ofResource)
    (Traces find ofExpression) (Traces find ofCases) (Traces find ofCase) (Traces find ofLabel)
    (Traces find ofOptional) (Traces find ofElements) (Traces find ofElement) (Traces find ofLabels)
    (Traces find ofOptionalBody) (Traces find ofBody) (Traces find ofExpressions)
    (Traces find ofOptionalStatement) (Traces find ofDeclarators) (Traces find ofDeclarator)
    (Traces find ofCall) (Traces find ofConstants) (Traces find ofConstant)
  all_goals
    intros
    repeat' first | assumption | exact From.nothing | exact From.one _ | apply From.append

theorem ofUnit_eq (find : Expression → List β) (unit : CompilationUnit) :
    ofUnit { expression := find } unit = unit.expressions.flatMap find := by
  unfold ofUnit CompilationUnit.expressions ofUnit
  rw [List.flatMap_assoc]
  exact congrArg unit.types.flatMap (funext traces_ofDeclaration)

theorem ofUnit_ids (unit : CompilationUnit) :
    ofUnit Expression.ids unit = unit.expressions.flatMap fun expression =>
      expression.id?.toList :=
  ofUnit_eq _ unit

end Gather

end JavaFrontEnd
