/-
The productions for declarations, statements, switches and units are admitted by every discipline,
and with them the whole grammar (`unitParts_admitted`).
-/

import JavaFrontEnd.Proofs.Parsing.AdmittedExpressions

namespace JavaFrontEnd.Grammar

open scoped List
open Gather Expression

variable {rules : Discipline} {self : Recursion}

instance lists_ofMembers : Lists (ofMember ids) (ofMembers ids) :=
  ⟨rfl, fun _ _ => rfl⟩

instance lists_ofConstants : Lists (ofConstant ids) (ofConstants ids) :=
  ⟨rfl, fun _ _ => rfl⟩

instance lists_ofStatements : Lists (ofStatement ids) (ofStatements ids) :=
  ⟨rfl, fun _ _ => rfl⟩

instance lists_ofDeclarators : Lists (ofDeclarator ids) (ofDeclarators ids) :=
  ⟨rfl, fun _ _ => rfl⟩

instance lists_ofElements : Lists (ofElement ids) (ofElements ids) :=
  ⟨rfl, fun _ _ => rfl⟩

instance lists_ofLabels : Lists (ofLabel ids) (ofLabels ids) :=
  ⟨rfl, fun _ _ => rfl⟩

instance lists_ofCases : Lists (ofCase ids) (ofCases ids) :=
  ⟨rfl, fun _ _ => rfl⟩

instance : Lists (ofResource ids) (ofResources ids) :=
  ⟨rfl, fun _ _ => rfl⟩

instance lists_ofCatches : Lists (ofCatch ids) (ofCatches ids) :=
  ⟨rfl, fun _ _ => rfl⟩

instance perhaps_ofOptionalBlock : Perhaps (ofBlock ids) (ofOptionalBlock ids) :=
  ⟨rfl, fun _ => rfl⟩

instance : Perhaps (ofStatement ids) (ofOptionalStatement ids) :=
  ⟨rfl, fun _ => rfl⟩

/-! ### Where to go on after a failure -/

section Failures

instance : rules.Plain skipToConstant := by
  refine .iterate fun _ => ⟨.past fun {_} => ?_⟩
  split <;> exact .yielded

instance : rules.Plain skipToMember :=
  .iterate fun _ => ⟨.inspect rfl fun _ => .ite .yielded (.ite .yielded (.ite .yielded .yielded))⟩

instance : rules.Plain skipToStatement := by
  refine .iterate fun _ => ⟨.inspect rfl fun _ => ?_⟩
  split <;> exact .yielded

instance : rules.Plain skipToLabel := by
  unfold skipToLabel
  infer_instance

instance : rules.Plain skipToDeclaration := by
  refine .iterate fun _ => ⟨.past fun {_} => ?_⟩
  split <;> exact .yielded

instance : rules.Plain endStatement :=
  ⟨.past <| .ite .plain (.inspect rfl fun _ => .ite .yielded .yielded)⟩

instance (construct : String) : rules.Plain (closingBrace construct) := by
  unfold closingBrace
  infer_instance

end Failures

section Productions

open List

variable [admitted : Fact (rules.AdmitsAll self)] (owner : String) (span nameSpan start : Span)
  (kind : BodyKind) (before : List CaseElement)

/-! ### Members -/

omit admitted in
theorem splitConstructorCall_subperm (body : Block) : ofCall ids (splitConstructorCall body).1 ++
      ofBlock ids (splitConstructorCall body).2 <+~ ofBlock ids body := by
  unfold splitConstructorCall
  split
  · rename_i isFirst
    obtain ⟨statements, span⟩ := body
    cases isFirst
    split
    · exact (sublist_append_right [_] _).subperm
    · split
      · exact (sublist_append_right [_] _).subperm
      · exact .refl _
  · exact .refl _

instance (name : String) : rules.Plain (checkConstructorName owner name span) := by
  unfold checkConstructorName
  infer_instance

instance (opening : MemberStart) :
    rules.Yields (constructorMember self owner opening) (ofMember ids) := by
  refine ⟨.past <| .past <| .past <| .past <| .having fun {body} => ?_⟩
  have parts := splitConstructorCall_subperm body
  refine .past <| .ite ?_ (.pure parts)
  exact .pure ((sublist_append_right _ _).subperm.trans parts)

instance (opening : MemberStart) : rules.Yields (compactConstructor self opening) (ofMember ids) :=
  ⟨.past <| .having .built⟩

instance : rules.Yields (defaultValueOf self kind) (ofOptional ids) :=
  ⟨.ite .yielded .plain⟩

instance : rules.Yields (methodBody self) (ofOptionalBlock ids) :=
  ⟨.past <| .ite (.having fun {body} => .pure (perhaps_ofOptionalBlock.subperm body))
    (.past .plain)⟩

instance (opening : MemberStart) (returnType : Option WrittenType) (name : String) : rules.Yields
      (methodMember self kind opening returnType name nameSpan) (ofMember ids) :=
  ⟨.past <| .past <| .past <| .having <| .having <| .past .built⟩

instance (opening : MemberStart) (type : WrittenType) (name : String × Span) :
    rules.Yields (fieldMember self opening type name) (ofMember ids) :=
  ⟨.past <| .having <| .past .built⟩

theorem fieldTurn_admitted (opening : MemberStart) (type : WrittenType)
    (found : List Member × String × Span) : rules.Admits (ofMembers ids found.1)
      (Turn.carried (fun found => ofMembers ids found.1) (ofMembers ids))
      (fieldTurn self opening type found) := by
  refine .having fun {field} => .past <| .ite (.past fun {_} => ?_) ?_
  · exact .pure (lists_ofMembers.cons_subperm field found.1)
  · exact .pure (lists_ofMembers.reverse_cons_subperm field found.1)

instance (opening : MemberStart) (type : WrittenType) (name : String) :
    rules.Yields (fieldMembers self opening type name nameSpan) (ofMembers ids) :=
  ⟨.andThen (.iterate (fun found => ofMembers ids found.1)
    (fieldTurn_admitted opening type) ([], name, nameSpan)) fun _ => .past .built⟩

instance : rules.Plain (resultType self) := by
  unfold resultType
  infer_instance

instance (opening : MemberStart) :
    rules.Yields (typedMembers self kind opening) (ofMembers ids) := by
  refine ⟨.past fun {type} => .past <| .past <| .ite (.having fun {method} => ?_) ?_⟩
  · exact .pure (lists_ofMembers.cons_subperm method [])
  · cases type with
    | none => exact reject_admitted _ _
    | some type => exact .yielded

/-! ### Types -/

omit admitted in
theorem declare_subperm (opening : TypeStart) (name : String) (shape : TypeShape)
    (body : ClassBody) : ofDeclaration ids (opening.declare name nameSpan shape body) <+~
      [] ++ ofBody ids body := by
  obtain ⟨members, span⟩ := body
  exact .refl _

instance (opening : TypeStart) : rules.Yields (classDeclaration self opening) (ofDeclaration ids) :=
  ⟨.past <| .past <| .past <| .past <| .past <| .past <| .having <| .pure (declare_subperm ..)⟩

instance (opening : TypeStart) :
    rules.Yields (interfaceDeclaration self opening) (ofDeclaration ids) :=
  ⟨.past <| .past <| .past <| .past <| .past <| .having <| .pure (declare_subperm ..)⟩

instance (opening : TypeStart) :
    rules.Yields (annotationDeclaration self opening) (ofDeclaration ids) :=
  ⟨.past <| .past <| .past <| .past <| .having <| .pure (declare_subperm ..)⟩

instance (opening : TypeStart) :
    rules.Yields (recordDeclaration self opening) (ofDeclaration ids) :=
  ⟨.past <| .past <| .past <| .past <| .past <| .past <| .having <| .pure (declare_subperm ..)⟩

instance : rules.Yields (constantArguments self) (ofExpressions ids) :=
  ⟨.past <| .ite .yielded .plain⟩

instance : rules.Yields (enumConstant self) (ofConstant ids) :=
  ⟨.past <| .past <| .past <| .past <| .having <| .having <| .past .built⟩

theorem constantStep_admitted (constants : List EnumConstant) :
    rules.Admits (ofConstants ids constants)
      (Turn.carried (ofConstants ids) fun found => ofConstants ids found.1)
      (constantStep self constants) := by
  have done := lists_ofConstants.reverse_subperm constants
  refine .past <| .ite (.pure done) (.past <| .ite (.pure done) ?_)
  refine .past <| .ite (.pure done) (.having fun {outcome} => ?_)
  cases outcome with
  | none => exact .pure (sublist_append_left _ _).subperm
  | some constant =>
    have again := lists_ofConstants.cons_subperm constant constants
    have ends := lists_ofConstants.reverse_cons_subperm constant constants
    refine .past <| .ite (.pure again) (.past <| .ite (.pure ends) ?_)
    refine .past <| .ite (.pure ends) (.past <| .past fun {_} => ?_)
    exact .past <| .ite (.pure again) (.past <| .pure again)

instance : rules.Yields (enumConstants self) fun found => ofConstants ids found.1 := by
  refine ⟨.past <| .iterate (ofConstants ids) (fun constants => ?_) []⟩
  have done := lists_ofConstants.reverse_subperm constants
  exact .past <| .ite (.pure done) (constantStep_admitted constants)

instance : rules.Plain enumEnd := by
  refine ⟨.having fun {closing} => ?_⟩
  cases closing <;> exact .yielded

instance (name : String) (terminated : Bool) :
    rules.Yields (enumMembers self name terminated) (ofMembers ids) :=
  ⟨.ite .yielded .plain⟩

instance (opening : TypeStart) : rules.Yields (enumDeclaration self opening) (ofDeclaration ids) :=
  ⟨.past <| .past <| .past <| .past <| .having <| .having <| .past .built⟩

instance (opening : TypeStart) :
    rules.Yields (typeDeclaration? self opening) (optional (ofDeclaration ids)) := by
  refine ⟨.past <| .ite (.having .built) ?_⟩
  refine .past <| .ite (.having .built) (.past <| .past fun {_} => ?_)
  refine .ite (.having .built) (.past <| .past fun {_} => ?_)
  exact .ite (.having .built) (.past <| .ite (.having .built) .plain)

/-! ### Bodies -/

instance (static : Bool) : rules.Yields (initializer self static start) (ofMembers ids) :=
  ⟨.having <| .pure (lists_ofMembers.cons_subperm _ [])⟩

instance (opening : TypeStart) :
    rules.Yields (otherMembers self owner kind opening) (ofMembers ids) := by
  refine ⟨.past <| .past <| .past <| .ite (.having fun {member} => ?_) ?_⟩
  · exact .pure (lists_ofMembers.cons_subperm member [])
  · refine .past <| .past <| .ite (.having fun {member} => ?_) .yielded
    exact .pure (lists_ofMembers.cons_subperm member [])

instance : rules.Yields (bodyMembers self owner kind) (ofMembers ids) := by
  refine ⟨.past <| .past <| .ite .yielded (.past <| .past fun {_} => ?_)⟩
  refine .ite .yielded (.past <| .having fun {declared} => ?_)
  cases declared with
  | none => exact .yielded
  | some declaration => exact .pure (lists_ofMembers.cons_subperm _ [])

instance : rules.Yields (members self owner kind) (ofMembers ids) := by
  refine ⟨.iterate (ofMembers ids) (fun found => ?_) []⟩
  have done := lists_ofMembers.reverse_subperm found
  refine .past <| .past <| .ite (.pure done) ?_
  refine .past <| .ite (.pure done) (.past <| .ite .built (.having fun {outcome} => ?_))
  cases outcome with
  | none => exact .pure (sublist_append_left _ _).subperm
  | some next => exact .pure (lists_ofMembers.reverse_append_subperm next found)

/-! ### Local declarations and blocks -/

instance (construct : String) :
    rules.Yields (parenthesizedCondition self construct) (ofExpression ids) :=
  ⟨.past <| .having <| .past .built⟩

instance (name : String × Span) : rules.Yields (declarator self name) (ofDeclarator ids) :=
  ⟨.past <| .having <| .past .built⟩

instance (name : String) : rules.Yields (declarators self name nameSpan) (ofDeclarators ids) := by
  refine ⟨.iterate (fun found => ofDeclarators ids found.1) (fun found => ?_) ([], name, nameSpan)⟩
  refine .having fun {next} => .past <| .ite (.past fun {_} => ?_) ?_
  · exact .pure (lists_ofDeclarators.cons_subperm next found.1)
  · exact .pure (lists_ofDeclarators.reverse_cons_subperm next found.1)

instance (opening : TypeStart) : rules.Yields (localDeclaration self opening) (ofStatement ids) :=
  ⟨.past <| .past <| .having <| .past .built⟩

instance (opening : TypeStart) : rules.Yields (localStatement self opening) (ofStatement ids) :=
  ⟨.having <| .past .built⟩

instance (keyword : Token) : rules.Plain (noteLocalType keyword) := by
  unfold noteLocalType
  infer_instance

instance : rules.Yields (modifiedStatement self start) (ofStatement ids) := by
  refine ⟨.past <| .past <| .having fun {declared} => ?_⟩
  cases declared with
  | none => exact .yielded
  | some declaration => exact .past .built

omit admitted in
theorem yieldFollows_congr {one two : Configuration}
    (same : one.allows .switchExpressions = two.allows .switchExpressions) (tokens : List Token) :
    Lookahead.yieldFollows one.level tokens = Lookahead.yieldFollows two.level tokens := by
  have filtered : ∀ word : Option ContextualKeyword,
      (word.filter (fun keyword => one.level.allows keyword.feature) == some .yield) =
        (word.filter (fun keyword => two.level.allows keyword.feature) == some .yield) := by
    intro word
    cases word with
    | none => rfl
    | some keyword =>
      cases keyword with
      | yield =>
        have sameLevel : one.level.allows .switchExpressions =
          two.level.allows .switchExpressions := same
        simp only [Option.filter_some, ContextualKeyword.feature, sameLevel]
      | _ =>
        simp only [Option.filter_some]
        split <;> split <;> rfl
  cases tokens with
  | nil => rfl
  | cons word rest =>
    simp only [Lookahead.yieldFollows, Token.contextualKeyword?]
    split
    · rw [filtered]
    · rfl

instance : rules.Plain yieldFollows := by
  refine ⟨rules.byLevel (fun one two same => ?_) fun _ => .yielded⟩
  exact congrArg lookahead (funext (yieldFollows_congr same))

instance : rules.Yields (blockStatement self) (ofStatement ids) :=
  ⟨.past <| .past <| .past <| .ite .yielded .yielded⟩

instance (stop : List Token → Bool) :
    rules.Yields (statementsUntil self stop) (ofStatements ids) := by
  refine ⟨.iterate (ofStatements ids) (fun found => ?_) []⟩
  have done := lists_ofStatements.reverse_subperm found
  refine .past <| .past <| .past <| .ite (.pure done) ?_
  refine .past <| .ite (.pure done) (.having fun {outcome} => ?_)
  cases outcome with
  | none => exact .pure (sublist_append_left _ _).subperm
  | some next => exact .pure (lists_ofStatements.cons_subperm next found)

instance : rules.Yields (block self) (ofBlock ids) :=
  ⟨.past <| .having <| .past .built⟩

/-! ### Labels of switches -/

instance (problem : LabelProblem) : rules.Plain (labelProblem problem span) :=
  ⟨labelProblem_eq_tell problem span ▸ rules.tell _⟩

instance : rules.Plain (noteDefault span) := by
  have noted : rules.Plain (Parser.modify fun state =>
      { state with labels := { state.labels with hasDefault := true } }) :=
    ⟨rules.change {}⟩
  exact ⟨.inspect rfl fun state => .ite (.past .yielded) .yielded⟩

instance (arrow : Bool) : rules.Plain (noteArrow arrow span) := by
  refine ⟨.inspect rfl fun state => ?_⟩
  split
  · exact rules.change {}
  · exact .yielded

instance : rules.Yields (defaultElement before) (ofElement ids) := by
  refine ⟨.past fun {_} => ?_⟩
  split
  · exact .past .plain
  · exact .past <| .past .plain

instance : rules.Yields (patternElement self before) (ofElement ids) :=
  ⟨.past <| .past <| .ite (.past .plain) (.ite (.past .plain) .plain)⟩

instance : rules.Yields (constantElement self before) (ofElement ids) := by
  refine ⟨.having fun {value} => ?_⟩
  have rest : rules.Admits ([] ++ ofExpression ids value) (ofElement ids) (do
      match before with
      | [.constant _] => needFeature .multiConstantCaseLabels value.span
      | _ => pure ()
      pure (.constant value)) := by
    split
    · exact .past .built
    · exact .built
  exact .ite (.past <| rest) rest

instance : rules.Yields (caseElement self before) (ofElement ids) :=
  ⟨.past <| .ite .yielded (.past <| .past <| .past <| .ite (.past <| .past .plain) .yielded)⟩

instance : rules.Yields (caseElements self) (ofElements ids) := by
  refine ⟨.iterate (ofElements ids) (fun found => .having fun {element} => ?_) []⟩
  have added : ofElements ids (found ++ [element]) <+~
      ofElements ids found ++ ofElement ids element := by
    refine (lists_ofElements.append_subperm found [element]).trans ?_
    rw [lists_ofElements.cons, lists_ofElements.nil, append_nil]
  exact .past <| .ite (.pure added) (.pure added)

instance (elements : List CaseElement) : rules.Yields (guardOf self elements) (ofOptional ids) :=
  ⟨.past <| .past <| .ite
    (.past <| .having fun {guard} => .pure (perhaps_ofOptional.subperm guard)) .plain⟩

instance : rules.Yields (labelParts self)
    fun found => ofElements ids found.1 ++ ofOptional ids found.2 :=
  ⟨.past <| .ite (.past <| .past .plain) (.past <| .having <| .having .built)⟩

instance : rules.Plain labelEnd := by
  unfold labelEnd
  infer_instance

instance : rules.Yields (switchLabel self) fun label => ofLabel ids label.1 :=
  ⟨.past <| .having <| .past <| .past <| .past .built⟩

/-! ### Cases of switches -/

instance : rules.Yields (thrownValue self) fun found => ofExpression ids found.1 :=
  ⟨.past <| .having <| .past <| .past .built⟩

theorem switchRule_admitted (label : SwitchLabel) :
    rules.Admits (ofLabel ids label) (ofCase ids) (switchRule self start label) :=
  .past <| .ite (.having <| .past .built) (.past <| .ite (.having <| .past .built)
      (.having <| .past <| .past .built))

theorem switchGroup_admitted (first : SwitchLabel) :
    rules.Admits (ofLabel ids first) (ofCase ids) (switchGroup self start first) := by
  have labels : rules.Admits (ofLabels ids [first]) (ofLabels ids) (furtherLabels self first) := by
    refine .iterate (ofLabels ids) (fun found => .past <| .ite ?_ ?_) [first]
    · exact .having fun {label} => .pure (lists_ofLabels.cons_subperm label.1 found)
    · exact .pure (lists_ofLabels.reverse_subperm found)
  rw [← append_nil (ofLabel ids first)]
  exact labels.passing fun found => .having <| .past .built

instance : rules.Yields (switchCase self) (ofCase ids) :=
  ⟨.past <| .having <| .ite (switchRule_admitted _ _) (switchGroup_admitted _ _)⟩

instance : rules.Plain (strayStatement self) :=
  ⟨.inspect rfl fun _ => .past <| .having <| .inspect rfl fun _ => .ite .yielded .plain⟩

instance : rules.Yields (switchCases self) (ofCases ids) := by
  refine ⟨.iterate (ofCases ids) (fun found => ?_) []⟩
  have done := lists_ofCases.reverse_subperm found
  refine .past <| .past <| .ite (.pure done) ?_
  refine .past <| .ite (.pure done) (.past <| .ite ?_ (.past .built))
  refine .having fun {outcome} => ?_
  cases outcome with
  | none => exact .pure (sublist_append_left _ _).subperm
  | some next => exact .pure (lists_ofCases.cons_subperm next found)

instance : rules.Yields (switchParts self) SwitchParts.numbers :=
  ⟨.past <| .past <| .having <| .past <| .past <| .having <| .past .built⟩

/-! ### Statements -/

instance : rules.Yields (ifStatement self) (ofStatement ids) :=
  ⟨.past <| .having <| .having <| .having <| .past .built⟩

instance : rules.Yields (whileStatement self) (ofStatement ids) :=
  ⟨.past <| .having <| .having <| .past .built⟩

instance : rules.Yields (doStatement self) (ofStatement ids) :=
  ⟨.past <| .having <| .past <| .having <| .past <| .past <| .built⟩

theorem forRest_admitted (initial : List Statement) :
    rules.Admits (ofStatements ids initial) (ofStatement ids) (forRest self start initial) :=
  .past <| .having <| .past <| .having <| .past <| .having <| .past .built

instance (bound : BoundVariable) : rules.Yields (forEachRest self start bound) (ofStatement ids) :=
  ⟨.past <| .past <| .having <| .past <| .having <| .past .built⟩

instance : rules.Yields (forDeclared self start) (ofStatement ids) := by
  refine ⟨.past <| .past <| .past <| .past <| .past fun {_} => ?_⟩
  refine .ite .yielded (.having fun {declarations} => .past fun {_} => ?_)
  rw [nil_append, ← append_nil (ofDeclarators ids declarations)]
  exact forRest_admitted start [.locals _ declarations _]

omit admitted in
theorem ofStatements_expressions (values : List Expression) :
    ofStatements ids (values.map fun value => .expression value value.span) =
      ofExpressions ids values := by
  induction values with
  | nil => rfl
  | cons value rest ih =>
    exact congrArg (ofExpression ids value ++ ·) ih

instance : rules.Yields (forStatement self) (ofStatement ids) := by
  refine ⟨.past <| .past <| .past <| .past <| .past fun {_} => ?_⟩
  refine .ite .yielded (.past <| .ite (forRest_admitted _ []) (.having fun {initial} => ?_))
  rw [← ofStatements_expressions]
  exact forRest_admitted _ _

instance : rules.Yields (resource self) (ofResource ids) :=
  ⟨.past <| .past <| .past <| .ite (.past <| .past <| .past <| .past <| .having <| .past .built)
    (.having .built)⟩

instance : rules.Yields (resources self) (ofResources ids) :=
  ⟨.past <| .ite (.having <| .past .built) .plain⟩

instance : rules.Plain (alternatives self) := by
  unfold alternatives
  infer_instance

instance : rules.Plain (catchParameter self) := by
  unfold catchParameter
  infer_instance

instance : rules.Yields (catchClause self) (ofCatch ids) :=
  ⟨.past <| .past <| .past <| .past <| .having .built⟩

instance : rules.Yields (catchClauses self) (ofCatches ids) := by
  refine ⟨.iterate (ofCatches ids) (fun found => .past <| .ite ?_ ?_) []⟩
  · exact .having fun {next} => .pure (lists_ofCatches.cons_subperm next found)
  · exact .pure (lists_ofCatches.reverse_subperm found)

instance : rules.Yields (tryStatement self) (ofStatement ids) :=
  ⟨.past <| .having <| .having <| .having <| .having <| .ite
    (.past <| .past <| .past .built) (.past .built)⟩

instance : rules.Plain jumpLabel := by
  unfold jumpLabel
  infer_instance

theorem wordStatement_admitted (build : Expression → Span → Statement) (same : ∀ value span,
      ofStatement ids (build value span) = ofExpression ids value) :
    rules.Admits [] (ofStatement ids) (wordStatement self build) :=
  .past <| .having fun {value} => .past <| .past <| .built (same value _)

instance : rules.Yields (returnStatement self) (ofStatement ids) :=
  ⟨.past <| .having <| .past <| .past .built⟩

instance : rules.Yields (synchronizedStatement self) (ofStatement ids) :=
  ⟨.past <| .having <| .having <| .past .built⟩

instance : rules.Yields (assertStatement self) (ofStatement ids) :=
  ⟨.past <| .having <| .having <| .past <| .past .built⟩

instance : rules.Yields (expressionStatement self) (ofStatement ids) :=
  ⟨.past <| .having <| .past <| .past .built⟩

instance : rules.Yields (labeledStatement self) (ofStatement ids) :=
  ⟨.past <| .past <| .past <| .having <| .past .built⟩

instance : rules.Yields (identifierStatement self) (ofStatement ids) :=
  ⟨.past <| .ite .yielded (.past <| .ite (wordStatement_admitted _ fun _ _ => rfl) .yielded)⟩

instance : rules.Yields strayToken (ofStatement ids) :=
  ⟨.past <| .past <| .past .fail⟩

instance : rules.Yields (statement self) (ofStatement ids) := by
  refine ⟨.past <| .past fun {_} => ?_⟩
  split
  · exact .having .built
  · exact .past .plain
  iterate 4 exact .yielded
  · exact .having .built
  · exact .yielded
  iterate 2 exact .past <| .past .plain
  · exact wordStatement_admitted _ fun _ _ => rfl
  all_goals exact .yielded

end Productions

/-! ### The circle of the grammar -/

theorem production_admitted [Fact (rules.AdmitsAll self)] : rules.AdmitsAll (production self) := by
  intro nonterminal
  cases nonterminal with
  | annotationValue => exact .past .plain
  | _ =>
    dsimp only [production, Nonterminal.numbers]
    exact .yielded

theorem levels_admitted (count : Nat) : rules.AdmitsAll (levels count) := by
  induction count with
  | zero => exact fun _ => .past <| reject_admitted _ _
  | succ count ih =>
    have : Fact (rules.AdmitsAll (levels count)) := ⟨ih⟩
    exact production_admitted

instance : Fact (rules.AdmitsAll recursion) :=
  ⟨fun nonterminal => rules.byBound fun bound => levels_admitted bound nonterminal⟩

/-! ### Units -/

instance : rules.Plain importedName := by
  unfold importedName
  infer_instance

instance (start : Span) : rules.Plain (importRest start) :=
  ⟨.past <| .ite .yielded .yielded⟩

instance : rules.Plain importDeclaration := by
  unfold importDeclaration
  infer_instance

instance : rules.Plain imports := by
  refine .iterate fun _ => ⟨.past <| .ite (.having fun {outcome} => ?_) .plain⟩
  cases outcome <;> exact .yielded

section Units

variable [admitted : Fact (rules.AdmitsAll self)]

instance : rules.Plain (packageDeclaration self) := by
  unfold packageDeclaration
  infer_instance

instance : rules.Plain (optionalPackage self) := by
  refine ⟨.past <| .past <| .past <| .ite (.having fun {outcome} => ?_) .plain⟩
  cases outcome <;> exact .yielded

instance : rules.Yields (topLevelType? self) (optional (ofDeclaration ids)) := by
  refine ⟨.past <| .past <| .having fun {declared} => ?_⟩
  cases declared with
  | none => exact .past <| .ite .plain (reject_admitted _ _)
  | some declaration => exact .built

instance : rules.Yields (topLevelType self) (ofDeclaration ids) := by
  refine ⟨.having fun {declared} => ?_⟩
  cases declared with
  | none => exact .fail
  | some declaration => exact .built

instance : rules.Yields (topLevelTypes self) (List.flatMap (ofDeclaration ids)) := by
  have lists : Lists (ofDeclaration ids) (List.flatMap (ofDeclaration ids)) :=
    ⟨rfl, fun _ _ => List.flatMap_cons⟩
  refine ⟨.iterate (List.flatMap (ofDeclaration ids)) (fun found => ?_) []⟩
  have done := lists.reverse_subperm found
  refine .past <| .ite (.pure done) (.past <| .ite (.pure done) ?_)
  refine .past <| .ite .built (.having fun {outcome} => ?_)
  cases outcome with
  | none => exact .pure (List.sublist_append_left _ _).subperm
  | some next => exact .pure (lists.cons_subperm next found)

end Units

abbrev UnitRun : Type :=
  Option (Option PackageDeclaration × List ImportDeclaration × List TypeDeclaration × Span) × State

def UnitRun.result (tokens : List Token) (run : UnitRun) : CompilationUnit × List Diagnostic :=
  match run with
  | (some (package, imports, types, span), final) =>
    ({ package, imports, types, span, annotationArguments := final.annotationArguments },
      final.found.reverse)
  | (none, final) =>
    ({ package := none, imports := [], types := [], span := (State.initial tokens).current.span,
        annotationArguments := final.annotationArguments },
      final.found.reverse)

def runOver (config : Configuration) (tokens : List Token) : UnitRun :=
  unitParts recursion ⟨config, boundFor tokens.length⟩ (State.initial tokens)

theorem ofTokens_eq_result (config : Configuration) (tokens : List Token) :
    CompilationUnit.ofTokens config tokens = (runOver config tokens).result tokens :=
  rfl

theorem unitParts_admitted (rules : Discipline) :
    rules.Admits [] (fun parts => parts.2.2.1.flatMap (ofDeclaration ids)) (unitParts recursion) :=
  .past <| .past <| .past <| .having <| .past .built

/-! ### Literals without a value -/

/-- A parser is spoilt only by a literal that was ahead of it. -/
def sparing : Discipline where
  Admits _ _ parser := ∀ env state, (parser env state).2.Spoilt → state.Spoilt
  weaken _ spares := spares
  pure _ _ _ := id
  bind {_ _ _ _ _ _ parser _} first second env state := by
    have spares := first env state
    show (Parser.bind _ _ env state).2.Spoilt → _
    unfold Parser.bind
    generalize parser env state = run at spares ⊢
    rcases run with ⟨_ | value, between⟩
    · exact spares
    · exact spares ∘ second value env between
  fail _ _ := id
  attempt {_ _ _ parser} first env state := by
    have spares := first env state
    unfold Parser.attempt
    generalize parser env state = run at spares ⊢
    rcases run with ⟨_ | value, between⟩ <;> exact spares
  inspect _ second env state := second state env state
  change silent _ state := silent.spoilt state
  framed enters leaves _ first env state isSpoilt :=
    enters.spoilt state (first env _ ((leaves state).spoilt _ isSpoilt))
  tell _ _ _ := id
  freshId second env state := second state.nextId env { state with nextId := state.nextId + 1 }
  byLevel _ second env state := second env.configuration env state
  byBound second env state := second env.bound env state

end JavaFrontEnd.Grammar
