/-
Whether execution can come to the end of a statement. The answer is conservative: what cannot be
told counts as able to complete. A loop whose condition always holds ends only by a `break` that
leaves it, and a labelled statement also by a `break` with its label.
-/

import JavaFrontEnd.Constant

namespace JavaFrontEnd

/-! ### Statements inside statements -/

def SwitchCase.statements : SwitchCase → List Statement
  | .group _ statements _ => statements
  | .blockRule _ block _ => block.statements
  | .valueRule .. | .throwRule .. => []

def Statement.children : Statement → List Statement
  | .conditional _ yes no _ => yes :: no.toList
  | .while _ body _ | .doWhile body _ _ | .forEach _ _ body _ | .labeled _ body _ => [body]
  | .for initial _ _ body _ => initial ++ [body]
  | .block body | .synchronized _ body _ => body.statements
  | .try _ body catches finallyBlock _ =>
    body.statements ++ catches.flatMap (fun clause => clause.block.statements) ++
      finallyBlock.toList.flatMap Block.statements
  | .switch _ cases _ _ => cases.flatMap SwitchCase.statements
  | _ => []

/-! ### Labels and breaks -/

mutual

def Statement.labels : Statement → List String
  | .labeled label body _ => label :: body.labels
  | .conditional _ yes no _ => yes.labels ++ labelsOfOption no
  | .while _ body _ | .doWhile body _ _ | .forEach _ _ body _ => body.labels
  | .for initial _ _ body _ => labelsOfAll initial ++ body.labels
  | .block body | .synchronized _ body _ => body.labels
  | .try _ body catches finallyBlock _ =>
    body.labels ++ labelsOfCatches catches ++ labelsOfBlockOption finallyBlock
  | .switch _ cases _ _ => labelsOfCases cases
  | _ => []

def Block.labels : Block → List String
  | ⟨statements, _⟩ => labelsOfAll statements

def labelsOfOption : Option Statement → List String
  | none => []
  | some statement => statement.labels

def labelsOfBlockOption : Option Block → List String
  | none => []
  | some block => block.labels

def labelsOfAll : List Statement → List String
  | [] => []
  | statement :: rest => statement.labels ++ labelsOfAll rest

def CatchClause.labels : CatchClause → List String
  | ⟨_, _, block, _⟩ => block.labels

def labelsOfCatches : List CatchClause → List String
  | [] => []
  | clause :: rest => clause.labels ++ labelsOfCatches rest

def SwitchCase.innerLabels : SwitchCase → List String
  | .group _ statements _ => labelsOfAll statements
  | .blockRule _ block _ => block.labels
  | .valueRule .. | .throwRule .. => []

def labelsOfCases : List SwitchCase → List String
  | [] => []
  | case :: rest => case.innerLabels ++ labelsOfCases rest

end

mutual

/-- Some `break` inside a statement satisfies a test. The test is given the label of the `break`
and the number of loops and switches, inside the statement, that surround it. -/
def Statement.anyBreak (test : Option String → Nat → Bool) (depth : Nat) : Statement → Bool
  | .break label _ => test label depth
  | .labeled _ body _ => body.anyBreak test depth
  | .conditional _ yes no _ => yes.anyBreak test depth || anyBreakOfOption test depth no
  | .while _ body _ | .doWhile body _ _ | .for _ _ _ body _ | .forEach _ _ body _ =>
    body.anyBreak test (depth + 1)
  | .block body | .synchronized _ body _ => body.anyBreak test depth
  | .try _ body catches finallyBlock _ =>
    body.anyBreak test depth || anyBreakOfCatches test depth catches ||
      anyBreakOfBlockOption test depth finallyBlock
  | .switch _ cases _ _ => anyBreakOfCases test (depth + 1) cases
  | _ => false

def Block.anyBreak (test : Option String → Nat → Bool) (depth : Nat) : Block → Bool
  | ⟨statements, _⟩ => anyBreakOfAll test depth statements

def anyBreakOfOption (test : Option String → Nat → Bool) (depth : Nat) : Option Statement → Bool
  | none => false
  | some statement => statement.anyBreak test depth

def anyBreakOfBlockOption (test : Option String → Nat → Bool) (depth : Nat) : Option Block → Bool
  | none => false
  | some block => block.anyBreak test depth

def anyBreakOfAll (test : Option String → Nat → Bool) (depth : Nat) : List Statement → Bool
  | [] => false
  | statement :: rest => statement.anyBreak test depth || anyBreakOfAll test depth rest

def CatchClause.anyBreak (test : Option String → Nat → Bool) (depth : Nat) : CatchClause → Bool
  | ⟨_, _, block, _⟩ => block.anyBreak test depth

def anyBreakOfCatches (test : Option String → Nat → Bool) (depth : Nat) :
    List CatchClause → Bool
  | [] => false
  | clause :: rest => clause.anyBreak test depth || anyBreakOfCatches test depth rest

def SwitchCase.anyBreak (test : Option String → Nat → Bool) (depth : Nat) : SwitchCase → Bool
  | .group _ statements _ => anyBreakOfAll test depth statements
  | .blockRule _ block _ => block.anyBreak test depth
  | .valueRule .. | .throwRule .. => false

def anyBreakOfCases (test : Option String → Nat → Bool) (depth : Nat) : List SwitchCase → Bool
  | [] => false
  | case :: rest => case.anyBreak test depth || anyBreakOfCases test depth rest

end

/-- A statement contains a `break` that leaves the loop or switch whose body it is: one without a
label that no inner loop or switch catches, or one with a label that is not declared inside. -/
def Statement.hasExitingBreak (statement : Statement) : Bool :=
  let inner := statement.labels
  statement.anyBreak (fun label depth =>
    match label with
    | some name => !inner.contains name
    | none => depth == 0) 0

def Statement.breaksTo (statement : Statement) (label : String) : Bool :=
  statement.anyBreak (fun named _ => named == some label) 0

def SwitchCase.hasExitingBreak (case : SwitchCase) : Bool :=
  case.statements.any Statement.hasExitingBreak

/-! ### Completion -/

mutual

def Statement.canComplete : Statement → Bool
  | .return .. | .throw .. | .break .. | .continue .. | .yield .. => false
  | .block body | .synchronized _ body _ => body.canComplete
  | .conditional _ yes (some no) _ => yes.canComplete || no.canComplete
  | .while condition body _ => !condition.isAlwaysTrue || body.hasExitingBreak
  | .doWhile body condition _ =>
    body.canComplete && !condition.isAlwaysTrue || body.hasExitingBreak
  | .for _ condition _ body _ =>
    !(condition.map Expression.isAlwaysTrue).getD true || body.hasExitingBreak
  | .labeled label body _ => body.canComplete || body.breaksTo label
  | .try _ body catches (some finallyBlock) _ =>
    finallyBlock.canComplete && (body.canComplete || anyCatchCompletes catches)
  | .try _ body catches none _ => body.canComplete || anyCatchCompletes catches
  | .switch _ cases _ _ =>
    !SwitchCase.anyDefault cases && !SwitchCase.anyPattern cases ||
      cases.any SwitchCase.hasExitingBreak ||
      if cases.any SwitchCase.isRule then anyCaseCompletes cases else lastGroupCompletes cases
  | _ => true

def Block.canComplete : Block → Bool
  | ⟨statements, _⟩ => allComplete statements

def allComplete : List Statement → Bool
  | [] => true
  | statement :: rest => statement.canComplete && allComplete rest

def CatchClause.canComplete : CatchClause → Bool
  | ⟨_, _, block, _⟩ => block.canComplete

def anyCatchCompletes : List CatchClause → Bool
  | [] => false
  | clause :: rest => clause.canComplete || anyCatchCompletes rest

def SwitchCase.canComplete : SwitchCase → Bool
  | .group _ statements _ => allComplete statements
  | .valueRule .. => true
  | .blockRule _ block _ => block.canComplete
  | .throwRule .. => false

def anyCaseCompletes : List SwitchCase → Bool
  | [] => false
  | case :: rest => case.canComplete || anyCaseCompletes rest

def lastGroupCompletes : List SwitchCase → Bool
  | [] => true
  | [case] => case.canComplete
  | _ :: rest => lastGroupCompletes rest

end

end JavaFrontEnd
