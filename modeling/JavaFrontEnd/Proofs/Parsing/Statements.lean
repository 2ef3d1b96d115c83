/-
Statements keep to the course of a parse.
-/

import JavaFrontEnd.Proofs.Parsing.Declarations

namespace JavaFrontEnd.Grammar

open List

/-! Local declarations and blocks keep to the course of a parse. The loop over the statements of a
block goes on after a statement that fails; the brace before it pays for its turns. -/

section

variable {terms : Terms} {env : Environment} {state : State} {opening : Opening}
  {before : Bool} {gathered : List Node} {self : Recursion}

/-! ### Ends and beginnings of statements -/

instance : Movable false terms skipToStatement := by
  refine .start fun held => held.loop (fun _ => []) fun _ state held => .read rfl ?_
  split
  case h_4 isSemicolon =>
    exact held.advance (isSemicolon ▸ nofun) fun _ held => .done held.forget
  case h_5 =>
    refine .ite (fun _ => .done held) fun _ => held.advance (by assumption) fun passes held => ?_
    exact .turning passes.less (.again held.forget)
  all_goals exact .done held

section Ends

variable [terms.Fallible]

instance : Movable false terms endStatement := by
  refine .start fun held => held.accept nofun (fun _ held => .pure held.forget) fun _ => ?_
  refine .of_holds fun ready => .read rfl (.ite (fun _ => ?_) fun _ => ?_)
  · refine held.moves (violation_moves ready.current) fun _ _ held => ?_
    refine held.advanceAny fun held => held.advanceAny fun held => ?_
    exact .pure held
  · refine held.moves reportMissing_moves fun _ told held => ?_
    exact .ite (fun _ => .pure held) fun _ => fail_obeys told

variable [self.Sound]

instance {construct : String} : Readable true terms (parenthesizedCondition self construct)
    fun value => [value.node.lowered] := by
  refine .start fun held => held.expect nofun fun _ held => ?_
  refine held.past fun condition held => ?_
  exact held.ended

/-! ### Local declarations -/

theorem declarator_gathers {name : String × Span}
    (held : Gathered terms.scope true ⟨name.2, consumed⟩ state [.name name.2]) :
    Gathers true terms env ⟨name.2, consumed⟩ state (declarator self name)
      fun found => [found.node] := by
  refine held.over fun extra held => ?_
  refine held.reads (Reads.optionalAfter nofun) fun initializer _ held => ?_
  exact held.close

theorem declarators_gathers (held : Gathered terms.scope true opening state [.name nameSpan])
    (own : Gathered terms.scope true ⟨nameSpan, consumed⟩ state [.name nameSpan]) :
    Gathers true terms env opening state (declarators self name nameSpan) Declarator.nodes := by
  suffices gathers : Gathers true terms env opening state (declarators self name nameSpan)
      (fun found => found.map Declarator.node) from
    gathers.mono fun found _ listed => (Declarator.nodes_eq_map found).symm ▸ listed
  refine .iterate (fun found state =>
    Gathered terms.scope true opening state
      (found.1.reverse.map Declarator.node ++ [.name found.2.2]) ∧
    ∃ consumed, Gathered terms.scope true ⟨found.2.2, consumed⟩ state [.name found.2.2]) ?_
    ⟨held, consumed, own⟩
  rintro ⟨found, name⟩ state ⟨held, consumed, own⟩
  refine (declarator_gathers own).bind fun next leads new => .of_holds fun ready => ?_
  have held := held.kept ready leads rfl
  have listed := (held.recloseName new).snoc
  refine listed.accept (by simp) (fun passes listed => ?_) fun _ => .done listed
  refine listed.names fun {last} name less own listed => ?_
  have further : state.consumed < last.consumed :=
    Nat.lt_of_le_of_lt leads.forward (Nat.lt_trans passes.less less)
  exact .turning further (.again ⟨listed, _, own⟩)

theorem localDeclaration_gathers {start : TypeStart}
    (held : Gathered terms.scope before opening state (start.annotations.map AnnotationUse.node))
    (isStart : start.start = opening.span) :
    Gathers true terms env opening state (localDeclaration self start)
      fun statement => [statement.node] := by
  obtain ⟨_, modifiers, annotations⟩ := start
  cases isStart
  refine held.past fun type held => ?_
  refine held.names fun name _ new held => ?_
  refine Obeys.bind (declarators_gathers held.right new)
    fun declarations leads new => .of_holds fun ready => ?_
  have held := held.kept ready leads rfl
  have held := held.left.appendAside new (.inl (WrittenType.landmarksOf_annotated annotations type))
  exact held.close

theorem localStatement_gathers {start : TypeStart}
    (held : Gathered terms.scope before opening state (start.annotations.map AnnotationUse.node))
    (isStart : start.start = opening.span) :
    Gathers true terms env opening state (localStatement self start)
      fun statement => [statement.node] := by
  refine Obeys.bind (localDeclaration_gathers held isStart) fun declaration _ held => ?_
  exact held.ended

omit [terms.Fallible] in
theorem noteLocalType_moves {keyword : Token} (knows : terms.scope.Knows keyword.span) :
    Moves false terms env state (noteLocalType keyword) fun _ _ => True := by
  refine .ite (fun _ => ?_) fun _ => .pure ⟨by simp, trivial⟩
  exact (needFeature_moves knows).mono fun _ _ _ => ⟨by simp, trivial⟩

theorem modifiedStatement_reads :
    Reads true terms env state (modifiedStatement self state.current.span)
      fun statement => [statement.node] := by
  refine .start fun held => held.past fun found held => ?_
  refine .of_holds fun ready => .read rfl ?_
  refine Obeys.bind (typeDeclaration?_obeys ⟨state.current.span, found.1, found.2⟩ held rfl) ?_
  rintro _ (_ | declaration) _ ⟨isSome, isNone⟩
  · cases isNone rfl
    exact localStatement_gathers held rfl
  · exact (isSome declaration rfl).moves (noteLocalType_moves ready.current) fun _ _ held =>
      .pure held

instance : Readable true terms (blockStatement self) fun statement => [statement.node] := by
  refine .start fun {env state} held => ?_
  have plain : Reads true terms env state self.statement fun statement => [statement.node] :=
    Readable.reads.mono fun statement _ held => Gathered.raised [statement.node] held
  refine .read rfl (.read rfl (.read rfl (.ite (fun _ => ?_) fun _ => ?_)))
  · exact modifiedStatement_reads
  refine .read rfl (.ite (fun _ => plain) fun _ => .read rfl (.read rfl (.ite (fun _ => ?_) ?_)))
  · exact localStatement_gathers held rfl
  · exact fun _ => plain

end Ends

/-! ### Blocks -/

theorem statementTurn_obeys [self.Sound] {found : List Statement}
    (held : Gathered terms.counting.scope before opening state (found.reverse.map Statement.node)) :
    GathersTurn before before terms.counting env opening state
      (statementTurn self stop found) (·.reverse.map Statement.node) (·.map Statement.node) := by
  refine .read rfl (.read rfl (.read rfl (.ite (fun _ => .done held) fun isOther => ?_)))
  have isNoEnd := State.ne_endOfInput isOther
  refine held.count isNoEnd (fun _ _ held => .done held) fun held => ?_
  refine held.reads (Reads.recovering isNoEnd Readable.reads) fun next new held => ?_
  have less := new.advanced rfl
  cases next with
  | none =>
    have listed := held.left
    exact .pure ⟨less, less, listed.weaken⟩
  | some next => exact .pure ⟨less, less, held.snoc.weaken⟩

instance [self.Sound] {stop : List Token → Bool} :
    Readable false terms.counting (statementsUntil self stop) Statement.nodes := by
  refine .start fun held =>
    Reads.congr (fun statements => (Statement.nodes_eq_map statements).symm) ?_
  exact held.loop (fun found => found.reverse.map Statement.node)
    fun found state held => statementTurn_obeys held

theorem closingBrace_moves :
    Moves false terms env state (closingBrace construct) fun stop after =>
      stop = after.last.span := by
  refine .of_holds fun ready => .check (fun isBrace => ?_) fun _ => .read rfl ?_
  · refine advance_obeys.bind ?_
    rintro _ _ _ ⟨rfl, rfl⟩
    have last := (ready.passes (by simp [isBrace])).last
    exact .pure ⟨by simp, congrArg Token.span last.symm⟩
  · refine (violation_moves ready.last).bind fun _ _ yields => .pure ⟨by simp, ?_⟩
    exact congrArg Token.span yields.2.1.last.symm

instance block_reads [terms.Fallible] [self.Sound] :
    Readable true terms (block self) fun block => [block.node] := by
  refine .start fun held => held.expectOpened nofun fun _ held => ?_
  refine held.past fun statements held => ?_
  refine held.moves closingBrace_moves fun stop isStop held => .pure ?_
  rw [isStop]
  exact held.enclosed rfl

end

/-! Switches keep to the course of a parse. The loop over the cases of a switch goes on after a case
that fails, and drops statements that stand where a label should be. -/

variable {terms : Terms} {env : Environment} {state : State} {opening : Opening}
  {before : Bool} {self : Recursion}

/-! ### Labels -/

theorem labelProblem_moves {span : Span} (knows : terms.scope.Knows span) :
    Moves false terms env state (labelProblem problem span) fun _ _ => True :=
  Obeys.mono (report_moves knows rfl) fun _ _ _ => ⟨by simp, trivial⟩

theorem noteLabels_obeys {labels : State → LabelState} :
    Obeys (course terms) env state
      (Parser.modify fun state => { state with labels := labels state }) fun _ _ => True :=
  (modify_moves ⟨rfl, rfl, rfl, rfl, rfl, rfl, rfl, rfl⟩ rfl rfl rfl).mono fun _ _ _ => trivial

theorem noteDefault_moves {span : Span} (knows : terms.scope.Knows span) :
    Moves false terms env state (noteDefault span) fun _ _ => True := by
  suffices obeys : Obeys (course terms) env state (noteDefault span) fun _ _ => True from
    obeys.mono fun _ _ _ => ⟨by simp, trivial⟩
  refine .read rfl ?_
  extract_lets rest
  have finish : ∀ {after}, Obeys (course terms) env after (rest ()) fun _ _ => True :=
    noteLabels_obeys
  exact .ite (fun _ => (labelProblem_moves knows).bind fun _ _ _ => finish) fun _ => finish

theorem noteArrow_moves {span : Span} (knows : terms.scope.Knows span) :
    Moves false terms env state (noteArrow arrow span) fun _ _ => True := by
  refine .read rfl ?_
  split
  · exact noteLabels_obeys.mono fun _ _ _ => ⟨by simp, trivial⟩
  · refine .ite (fun _ => ?_) fun _ => .pure ⟨by simp, trivial⟩
    exact (violation_moves knows).mono fun _ _ _ => ⟨by simp, trivial⟩

section Labels

variable [terms.Fallible]

omit [terms.Fallible] in
theorem defaultElement_reads {found : List CaseElement}
    (isNoEnd : state.current.kind ≠ .endOfInput) :
    Reads true terms env state (defaultElement found) fun element => [element.node] := by
  refine .start fun held => held.advance isNoEnd fun _ held => ?_
  extract_lets span rest
  have finish : ∀ {after}, Gathered terms.scope true state.opening after [] →
      Gathers true terms env state.opening after (rest ()) fun element => [element.node] :=
    fun held => held.moves (noteDefault_moves held.knows) fun _ _ held => .pure <| held.opener rfl
  split
  · exact finish held
  · exact held.moves (labelProblem_moves held.knows) fun _ _ held => finish held

variable [self.Sound]

instance {found : List CaseElement} :
    Readable true terms (patternElement self found) fun element => [element.node] := by
  refine .start fun held => held.past fun tested held => ?_
  have knows := held.knows_of_mem (mem_singleton_self _)
  rw [tested.span_node] at knows
  refine held.moves (needFeature_moves knows) fun _ _ held => ?_
  extract_lets rest
  refine .ite (fun _ => ?_) fun _ => held.perhaps (labelProblem_moves knows) fun held => ?_
  · exact held.moves (labelProblem_moves knows) fun _ _ held => .pure held
  · exact .pure held

instance {found : List CaseElement} :
    Readable true terms (constantElement self found) fun element => [element.node] := by
  refine .start fun held => held.past fun value held => ?_
  have knows := held.knows_of_mem (mem_singleton_self _)
  rw [value.span_node] at knows
  extract_lets rest check
  refine held.perhaps (labelProblem_moves knows) fun held => ?_
  dsimp only [check]
  split
  · exact held.moves (needFeature_moves knows) fun _ _ held => .pure held
  · exact .pure held

instance {found : List CaseElement} : Readable true terms (caseElement self found)
    fun element => [element.node] := by
  refine .start fun held => .read rfl (.ite (fun isDefault => ?_) fun _ => ?_)
  · exact defaultElement_reads (isDefault ▸ nofun)
  refine .read rfl (.read rfl (.read rfl (.ite (fun follows => ?_) fun _ => ?_)))
  · have isNull := eq_of_beq (Bool.and_eq_true_iff.mp follows).1
    refine held.advance (isNull ▸ nofun) fun _ held => ?_
    refine held.needs fun held => ?_
    exact .pure <| held.opener rfl
  · exact .read rfl (.ite (fun _ => Readable.reads) fun _ => Readable.reads)

instance : Readable true terms (caseElements self) CaseElement.nodes := by
  refine .start fun held =>
    Reads.congr (fun elements => (CaseElement.nodes_eq_map elements).symm) ?_
  refine held.loop (fun found => found.map CaseElement.node) fun found state held => ?_
  refine held.reads Readable.reads fun element new held => ?_
  extract_lets longer
  have listed := held
  rw [← map_singleton, ← map_append] at listed
  refine .turning (new.advanced rfl) (listed.accept nofun (fun _ listed => ?_) fun _ => ?_)
  · exact .again listed.forget
  · exact .done listed

instance {elements : List CaseElement} :
    Readable false terms (guardOf self elements) Expression.optionalLowered := by
  refine .start fun {_ state} held => .read rfl (.read rfl (.ite (fun follows => ?_) fun _ => ?_))
  · have isNoEnd : state.current.kind ≠ .endOfInput := by
      rcases Bool.or_eq_true_iff.mp (Bool.and_eq_true_iff.mp follows).2 with isAnd | isWord
      · exact eq_of_beq isAnd ▸ nofun
      · exact Token.ne_endOfInput_of_isWord isWord
    refine held.advance isNoEnd fun _ held => ?_
    refine held.past fun guard held => ?_
    exact .pure held.forget
  · exact .pure held

instance : Movable true terms labelEnd := by
  refine .start fun held => .check (fun isArrow => ?_) fun _ => ?_
  · refine held.advance (isArrow ▸ nofun) fun _ held => ?_
    exact held.needs fun held => .pure held
  · exact held.expect nofun fun _ held => .pure held

instance : Readable true terms (labelParts self)
    fun parts => CaseElement.nodes parts.1 ++ Expression.optionalLowered parts.2 := by
  refine .start fun held => .check (fun isDefault => ?_) fun _ => ?_
  · refine held.advance (isDefault ▸ nofun) fun _ held => ?_
    refine held.moves (noteDefault_moves held.knows) fun _ _ held => ?_
    exact .pure <| held.opener rfl
  · refine held.expect nofun fun _ held => ?_
    refine held.past fun elements held => ?_
    exact held.ending

instance : Readable true terms (switchLabel self) fun label => [label.1.node] := by
  refine .start fun held => .read rfl ?_
  refine held.past fun parts held => ?_
  refine held.over fun arrow held => ?_
  refine held.moves (noteArrow_moves held.knows) fun _ _ held => ?_
  exact held.close

/-! ### Cases -/

theorem thrownValue_reads (isNoEnd : state.current.kind ≠ .endOfInput) :
    Reads true terms env state (thrownValue self) fun thrown =>
      [⟨.other, false, thrown.2, [thrown.1.node.lowered]⟩] := by
  refine .start fun held => held.advance isNoEnd fun _ held => ?_
  refine held.past fun value held => ?_
  exact held.closed

variable (self) in
theorem switchRule_gathers {label : SwitchLabel}
    (held : Gathered terms.scope true opening state [label.node]) :
    Gathers true terms env opening state (switchRule self opening.span label)
      fun found => [found.node] := by
  refine .check (fun _ => ?_) fun _ => .check (fun isThrow => ?_) fun _ => ?_
  · exact held.closing
  · refine held.reads (thrownValue_reads (isThrow ▸ nofun)) fun thrown _ held => ?_
    exact held.close
  · refine held.past fun value held => ?_
    exact held.closed

theorem furtherLabels_gathers {first : SwitchLabel}
    (held : Gathered terms.scope true opening state [first.node]) :
    Gathers true terms env opening state (furtherLabels self first) SwitchLabel.nodes := by
  suffices gathers : Gathers true terms env opening state (furtherLabels self first)
      (fun labels => labels.map SwitchLabel.node) from
    gathers.mono fun labels _ listed => (SwitchLabel.nodes_eq_map labels).symm ▸ listed
  refine Gathered.loop (fun found => found.reverse.map SwitchLabel.node) held
    fun found state held => ?_
  refine .read rfl (.ite (fun _ => ?_) fun _ => .done held)
  refine held.reads Readable.reads fun label new held => ?_
  exact .turning (new.advanced rfl) (.again held.snoc)

variable (self) in
theorem switchGroup_gathers {first : SwitchLabel}
    (held : Gathered terms.counting.scope true opening state [first.node]) :
    Gathers true terms.counting env opening state (switchGroup self opening.span first)
      fun found => [found.node] := by
  refine Obeys.bind (furtherLabels_gathers held) fun labels _ held => ?_
  exact held.closing

instance : Readable true terms (switchCase self) fun found => [found.node] := by
  refine .start fun held => .read rfl ?_
  refine held.readsOpened Readable.reads fun label _ held => .ite (fun _ => ?_) ?_
  · exact (switchRule_gathers self held :)
  · exact fun _ => (switchGroup_gathers self held :)

end Labels

instance : Movable false terms skipToLabel := by
  refine .start fun held => held.loop (fun _ => []) fun depth state held => .read rfl ?_
  refine .ite (fun _ => .done held) fun isNoEnd => ?_
  have isNoEnd := mt beq_iff_eq.mpr isNoEnd
  refine .ite (fun _ => ?_) fun _ => .ite (fun _ => .done held) fun _ => ?_
  · exact held.advance isNoEnd fun passes held => .turning passes.less (.again held.forget)
  · exact held.advance isNoEnd fun passes held => .turning passes.less (.again held.forget)

theorem strayStatement_moves [self.Sound] (isNoEnd : state.current.kind ≠ .endOfInput) :
    Moves true terms env state (strayStatement self) fun _ _ => True := by
  refine Moves.of_reads <| .start fun held => .of_holds fun ready => .read rfl ?_
  refine held.moves (violation_moves ready.current) fun {told} _ aside held => ?_
  have goes : ∀ {after}, Course terms env told after → Gathers true terms env state.opening after
        (Parser.get >>= fun now =>
          if now.consumed = state.consumed then advance >>= fun _ => pure () else pure ())
        fun _ => [] := by
    intro after leads
    refine .of_holds fun ready => .read rfl (.ite (fun isSame => ?_) fun isOther => ?_)
    · have held := held.kept ready leads rfl
      have isNoEnd := leads.awake (isSame.trans aside.1.consumed.symm)
        (aside.1.current.symm ▸ isNoEnd)
      exact held.advance isNoEnd fun _ held => .pure held
    · have less : told.consumed < after.consumed :=
        Nat.lt_of_le_of_ne leads.forward fun same => isOther (same ▸ aside.1.consumed)
      exact .pure <| held.passed ready leads rfl less
  exact .attempt Readable.reads (fun _ leads _ => goes leads) goes

theorem caseTurn_obeys [self.Sound] {found : List SwitchCase}
    (held : Gathered terms.counting.scope before opening state
      (found.reverse.map SwitchCase.node)) :
    GathersTurn before before terms.counting env opening state (caseTurn self found)
      (·.reverse.map SwitchCase.node) (·.map SwitchCase.node) := by
  refine .read rfl (.read rfl (.ite (fun _ => .done held) fun isOther => ?_))
  have isNoEnd := State.ne_endOfInput isOther
  refine held.count isNoEnd (fun _ _ held => .done held) fun held => ?_
  refine .read rfl (.ite (fun _ => ?_) fun _ => ?_)
  · refine held.reads (Reads.recovering isNoEnd Readable.reads) fun next new held => ?_
    have less := new.advanced rfl
    cases next with
    | none =>
      have listed := held.left
      exact .pure ⟨less, less, listed.weaken⟩
    | some next => exact .pure ⟨less, less, held.snoc.weaken⟩
  · have stray : Moves true terms.counting.saving.surely env state.counted
        (strayStatement self) fun _ _ => True := strayStatement_moves isNoEnd
    refine stray.bind fun _ leads yields => ?_
    have less := yields.1 rfl
    refine .of_holds fun ready => .pure ⟨less, less, ?_⟩
    exact held.kept ready leads rfl

instance [self.Sound] : Readable false terms.counting (switchCases self) SwitchCase.nodes := by
  refine .start fun held => Reads.congr (fun cases => (SwitchCase.nodes_eq_map cases).symm) ?_
  exact held.loop (fun found => found.reverse.map SwitchCase.node)
    fun found state held => caseTurn_obeys held

instance switchParts_reads [terms.Fallible] [self.Sound] :
    Readable true terms (switchParts self) fun parts => [parts.node] := by
  refine .start fun {_ state} held => held.expectOpened nofun fun {after} _ held => ?_
  have held : Gathered terms.counting.scope true state.opening after [.leaf state.current.span] :=
    held.opener rfl
  refine held.expect nofun fun _ held => ?_
  refine held.past fun selector held => ?_
  refine held.expect nofun fun _ held => held.expect nofun fun _ held => ?_
  refine held.past fun cases held => ?_
  refine held.moves closingBrace_moves fun stop isStop held => .pure ?_
  rw [isStop]
  exact held.enclosed rfl

end JavaFrontEnd.Grammar

namespace JavaFrontEnd

open List

theorem Expression.holds_alone (value : Expression) :
    value.node.lowered.Holds ⟨.other, false, value.span, [value.node.lowered]⟩ := by
  have isSpan : value.node.lowered.span = value.span := value.span_node
  rw [← isSpan]
  refine .rebuilt rfl (fun part isPart => .inr (mem_singleton.mp isPart ▸ .refl _)) ?_
  rw [Node.landmarksOf_singleton]

theorem Expression.landmarks_alone (values : List Expression) :
    Node.landmarksOf (values.map fun value => (Statement.expression value value.span).node) <+
      Node.landmarksOf (Expression.lowered values) := by
  induction values with
  | nil => exact .slnil
  | cons value rest ih =>
    exact value.holds_alone.landmarks.append ih

namespace Grammar

variable {terms : Terms} [terms.Fallible] {env : Environment} {state : State}
  {opening : Opening} {before : Bool} {self : Recursion} [self.Sound]

/-! ### Conditions and loops -/

instance : Readable true terms (ifStatement self) fun statement => [statement.node] := by
  refine .start fun held => held.expect nofun fun _ held => ?_
  refine held.past fun condition held => ?_
  refine held.past fun yes held => ?_
  refine held.reads (Reads.optionalAfter nofun) fun no _ held => ?_
  exact held.close

variable (self) in
theorem forRest_gathers (held : Gathered terms.scope true opening state (Statement.nodes initial)) :
    Gathers true terms env opening state (forRest self opening.span initial)
      fun statement => [statement.node] := by
  refine held.expect (by simp) fun _ held => ?_
  refine held.past fun condition held => ?_
  refine held.expect (by simp) fun _ held => ?_
  refine held.past fun update held => ?_
  refine held.expect (by simp) fun _ held => ?_
  exact held.closing

theorem forEachRest_gathers {bound : BoundVariable}
    (held : Gathered terms.scope true opening state bound.nodes)
    (isNoEnd : state.current.kind ≠ .endOfInput) :
    Gathers true terms env opening state (forEachRest self opening.span bound)
      fun statement => [statement.node] := by
  refine .of_holds fun ready => held.advance isNoEnd fun _ held => ?_
  refine held.moves (needFeature_moves ready.current) fun _ _ held => ?_
  refine held.past fun iterable held => ?_
  refine held.expect (by simp) fun _ held => ?_
  exact held.closing

variable (self) in
/-- The variable of a loop is first gathered with what comes before it. If it turns out to be a
declaration of its own, this begins with the modifiers. -/
theorem forDeclared_gathers (held : Gathered terms.scope true opening state []) :
    Gathers true terms env opening state (forDeclared self opening.span)
      fun statement => [statement.node] := by
  refine .of_holds fun ready => .read rfl ?_
  have own := Gathered.start ready
  refine Reads.andThen Readable.reads fun found _ along => ?_
  have own := along own
  have whole := along held
  refine Reads.andThen Readable.reads fun type _ along => ?_
  have own := along own
  have whole := along whole
  refine identifier_andThen fun name new along => ?_
  have own := along own
  have whole := along whole
  refine .check (fun isColon => ?_) fun _ => ?_
  · refine forEachRest_gathers (whole.sublist ?_) (by simp [isColon])
    exact .append_right (sublist_append_right _ _) _
  · refine Obeys.bind (declarators_gathers own.right new)
      fun declarations leads listed => .of_holds fun ready => .read rfl ?_
    have own := own.kept ready leads rfl
    have own := own.left.appendAside listed (.inl (WrittenType.landmarksOf_annotated found.2 type))
    have whole := whole.kept ready leads rfl
    exact forRest_gathers self (held.widen (own.enclosed rfl) whole.clear)

instance : Readable true terms (forStatement self) fun statement => [statement.node] := by
  refine .start fun {_ state} held => held.expect nofun fun _ held => ?_
  refine held.expect nofun fun {after} _ held => ?_
  refine .read rfl (.read rfl (.read rfl (.ite (fun _ => ?_) fun _ => .check (fun _ => ?_) ?_)))
  · exact (forDeclared_gathers self held :)
  · have none : Gathered terms.scope true state.opening after (Statement.nodes []) := held
    exact (forRest_gathers self none :)
  intro _
  refine held.past fun {after} initial held => ?_
  have initially : Gathered terms.scope true state.opening after
      (Statement.nodes (initial.map fun value => .expression value value.span)) := by
    rw [Statement.nodes_eq_map, map_map]
    refine held.holding (forall_mem_map.mpr fun value isValue =>
      ⟨value.node.lowered, ?_, value.holds_alone⟩) ?_
    · rw [Expression.lowered_eq_map]
      exact mem_append_right _ (mem_map_of_mem isValue)
    · exact Expression.landmarks_alone initial
  exact (forRest_gathers self initially :)

/-! ### Statements with blocks -/

instance : Readable true terms (resource self) fun resource => [resource.node] := by
  refine .start fun held => .read rfl (.read rfl (.read rfl (.ite (fun _ => ?_) fun _ => ?_)))
  · refine held.past fun found held => ?_
    refine held.clear.past fun type held => ?_
    refine held.names fun name _ _ held => held.expect nofun fun _ held => ?_
    exact held.closing
  · refine held.past fun value held => .pure ?_
    exact held.giveWay value.holds_alone

instance : Listed (fun resource => [Resource.node resource]) Resource.nodes :=
  ⟨fun found => (Resource.nodes_eq_map found).trans map_eq_flatMap⟩

instance : Readable false terms (resources self) Resource.nodes := by
  refine .start fun held => held.accept nofun (fun _ held => ?_) fun _ => .pure held
  refine held.reads (Reads.separatedUntil nofun) fun found _ held => ?_
  exact held.expect nofun fun _ held => .pure held.forget

instance : Readable false terms (alternatives self) WrittenType.lowered := by
  refine .start fun held => held.loop (fun found =>
    found.reverse.map fun type => type.node.lowered) fun found state held => ?_
  refine held.accept nofun (fun passes held => ?_) fun _ => .done held
  refine .turning passes.less ?_
  refine held.past fun type held => ?_
  exact .again held.snoc.forget

instance : Readable true terms (catchParameter self)
    fun caught => [caught.1.node] ++ WrittenType.lowered caught.2 := by
  refine .start fun held => .read rfl ?_
  refine held.past fun found held => ?_
  refine held.past fun type held => ?_
  refine held.past fun {after} others held => ?_
  refine identifier_andThen fun name new along => .pure ?_
  have whole := held.upTo .other new rfl
  have kept : (found.2.map AnnotationUse.node ++ [type.node.lowered] ++
      [.name after.current.span]) <+ ([] ++ found.2.map AnnotationUse.node ++ [type.node.lowered] ++
        WrittenType.lowered others ++ [.name after.current.span]) :=
    .append_right (sublist_append_left _ _) _
  have parameter := whole.rebuilt .other
    (found.2.map AnnotationUse.node ++ [type.node.lowered] ++ [.name after.current.span])
    (mem_singleton_self _) rfl (fun part isPart => .inl (kept.subset isPart)) ?_
  · exact parameter.appendAside (along held).left.right (.inr (WrittenType.landmarksOf_lowered _))
  · exact (Node.landmarksOf_sublist kept).trans
      (@Node.landmarksOf_parts_sublist ⟨.other, false, _, _⟩ nofun)

theorem catchClause_reads (isNoEnd : state.current.kind ≠ .endOfInput) :
    Reads true terms env state (catchClause self) fun clause => [clause.node] := by
  refine .start fun held => held.advance isNoEnd fun _ held => ?_
  refine held.expect nofun fun _ held => ?_
  refine held.past fun caught held => ?_
  refine held.expect nofun fun _ held => ?_
  refine held.reads Readable.reads fun block new _ => .pure ?_
  have whole := held.upTo .other new rfl
  rwa [block.span_node] at whole

instance : Readable false terms (catchClauses self) CatchClause.nodes := by
  refine .start fun held => Reads.congr (fun clauses => (CatchClause.nodes_eq_map clauses).symm) ?_
  refine held.loop (fun found => found.reverse.map CatchClause.node)
    fun found state held => .check (fun isCatch => ?_) fun _ => .done held
  refine held.reads (catchClause_reads (isCatch ▸ nofun)) fun clause new held => ?_
  exact .turning (new.advanced rfl) (.again held.snoc.forget)

instance : Readable true terms (tryStatement self) fun statement => [statement.node] := by
  refine .start fun held => held.expect nofun fun _ held => ?_
  refine held.past fun resources held => ?_
  refine held.past fun body held => ?_
  refine held.past fun catches held => ?_
  refine held.reads (Reads.optionalAfter nofun) fun finallyBlock _ held => ?_
  extract_lets rest
  refine held.perhapsLast violation_moves fun held => ?_
  exact held.close

/-! ### Simple statements -/

instance : Readable true terms (labeledStatement self) fun statement => [statement.node] := by
  refine .start fun held => .read rfl ?_
  refine held.names fun name _ _ held => held.clear.advanceAny fun held => ?_
  exact held.closing

instance : Readable true terms (expressionStatement self) fun statement => [statement.node] := by
  refine .start fun held => .read rfl ?_
  refine held.past fun value held => ?_
  exact held.closed

/-! ### Statements that open with a word -/

section Words

variable (isNoEnd : state.current.kind ≠ .endOfInput)
include isNoEnd

theorem whileStatement_reads : Reads true terms env state (whileStatement self)
    fun statement => [statement.node] := by
  refine .start fun held => held.advance isNoEnd fun _ held => ?_
  refine held.past fun condition held => ?_
  exact held.closing

theorem doStatement_reads : Reads true terms env state (doStatement self)
    fun statement => [statement.node] := by
  refine .start fun held => held.advance isNoEnd fun _ held => ?_
  refine held.past fun body held => ?_
  refine held.expect nofun fun _ held => ?_
  refine held.past fun condition held => ?_
  exact held.closed

theorem synchronizedStatement_reads :
    Reads true terms env state (synchronizedStatement self) fun statement => [statement.node] := by
  refine .start fun held => held.advance isNoEnd fun _ held => ?_
  refine held.past fun lock held => ?_
  exact held.closing

theorem jumpLabel_moves : Moves true terms env state jumpLabel fun _ _ => True := by
  refine Moves.of_reads <| .start fun held => held.advance isNoEnd fun _ held => ?_
  refine held.past fun label held => ?_
  exact held.ended

theorem wordStatement_reads (isBuilt : ∀ value span,
      (build value span).node = ⟨.other, false, span, [value.node.lowered]⟩) :
    Reads true terms env state (wordStatement self build) fun statement => [statement.node] := by
  refine .start fun held => held.advance isNoEnd fun _ held => ?_
  refine held.past fun value held => ?_
  exact held.closed rfl fun _ _ => congrArg (fun node => [node]) (isBuilt value _)

theorem returnStatement_reads : Reads true terms env state (returnStatement self)
    fun statement => [statement.node] := by
  refine .start fun held => held.advance isNoEnd fun _ held => ?_
  refine held.past fun value held => ?_
  exact held.closed

theorem assertStatement_reads : Reads true terms env state (assertStatement self)
    fun statement => [statement.node] := by
  refine .start fun held => held.advance isNoEnd fun _ held => ?_
  refine held.past fun condition held => ?_
  refine held.reads (Reads.optionalAfter (by simp)) fun message _ held => ?_
  exact held.closed

theorem identifierStatement_reads : Reads true terms env state (identifierStatement self)
    fun statement => [statement.node] := by
  refine .read rfl (.ite (fun _ => ?_) fun _ => .read rfl (.ite (fun _ => ?_) fun _ => ?_))
  · exact Readable.reads
  · exact wordStatement_reads isNoEnd fun _ _ => rfl
  · exact Readable.reads

end Words

instance : Readable true terms strayToken fun statement => [statement.node] := by
  refine ⟨.of_holds fun ready => .read rfl ?_⟩
  refine (violation_moves ready.current).bind fun _ _ yields => ?_
  exact advance_obeys.bind fun _ leads _ => fail_obeys (yields.2.2.later leads.reported)

instance statement_reads :
    Readable true terms (statement self) fun statement => [statement.node] := by
  refine .start fun held => .read rfl (.read rfl ?_)
  split
  case h_1 => exact held.ending
  case h_2 isKind =>
    exact held.advance (isKind ▸ nofun) fun _ held => .pure <| held.opener rfl
  case h_3 => exact Readable.reads
  case h_4 isKind => exact whileStatement_reads (isKind ▸ nofun)
  case h_5 isKind => exact doStatement_reads (isKind ▸ nofun)
  case h_6 => exact Readable.reads
  case h_7 => exact held.ending
  case h_8 isKind => exact returnStatement_reads (isKind ▸ nofun)
  case h_9 isKind =>
    exact held.moves (jumpLabel_moves (isKind ▸ nofun)) fun _ _ held => held.close
  case h_10 isKind =>
    exact held.moves (jumpLabel_moves (isKind ▸ nofun)) fun _ _ held => held.close
  case h_11 isKind => exact wordStatement_reads (isKind ▸ nofun) fun _ _ => rfl
  case h_12 => exact Readable.reads
  case h_13 isKind => exact synchronizedStatement_reads (isKind ▸ nofun)
  case h_14 isKind => exact assertStatement_reads (isKind ▸ nofun)
  case h_15 isKind => exact identifierStatement_reads (isKind ▸ nofun)
  case h_23 => exact Readable.reads
  all_goals exact Readable.reads

end Grammar

end JavaFrontEnd
