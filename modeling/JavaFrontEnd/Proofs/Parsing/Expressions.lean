/-
Expressions keep to the course of a parse. What follows an expression makes it part of a larger
one, which begins where the first began; productions of that kind are given the expression and
gather from its span on.
-/

import JavaFrontEnd.Proofs.Parsing.Types

namespace JavaFrontEnd.Grammar

open List

variable {terms : Terms} {env : Environment} {state after : State} {scope : Scope}
  {opening : Opening} {before moved : Bool} {gathered nodes : List Node} {α β : Type}
  {self : Recursion} {consumed : Nat} {target : Expression} {values : α → List Node}

/-! ### Trees that end with an expression, and trees that begin with one -/

theorem Gathered.upToExpression (held : Gathered scope true opening state nodes)
    {last : Expression} (new : Gathered scope true state.opening after [last.node.lowered]) :
    Gathered scope true opening after
      [⟨.expression, false, opening.span.cover last.span, nodes ++ [last.node.lowered]⟩] := by
  rw [← last.span_node]
  exact held.upTo _ new rfl

theorem Gathered.followed (held : Gathered terms.scope true opening state [target.node])
    (gathers : Gathered terms.scope false ⟨target.span, state.consumed⟩ state [target.node] →
      Gathers moved terms env ⟨target.span, state.consumed⟩ state parser values) :
    Moves moved terms env state parser fun value after =>
      Gathered terms.scope true opening after (values value) := by
  intro ready
  have reopened := held.reopen (mem_singleton_self _)
  rw [target.span_node] at reopened
  have outcome := gathers reopened ready
  refine { outcome with yields := fun value isValue => ?_ }
  have new := outcome.yields value isValue
  refine ⟨new.advanced, ?_⟩
  rw [← target.span_node] at new
  exact held.reclose (mem_singleton_self _) new (held.kept outcome.holds outcome.leads rfl)

theorem Gathered.following (held : Gathered terms.scope true opening state [target.node])
    (gathers : Gathered terms.scope false ⟨target.span, state.consumed⟩ state [target.node] →
      Gathers false terms env ⟨target.span, state.consumed⟩ state parser values) :
    Gathers true terms env opening state parser values :=
  (held.followed gathers).mono fun _ _ yields => yields.2

theorem Gathered.follows [terms.Fallible] {goal : Expression → State → Prop}
    (held : Gathered terms.scope true opening state [target.node]) (deepens : terms.deepens = true)
    (gathers : ∀ {after}, after.current = state.current → terms.scope.floor + 1 ≤ after.depth →
      Gathered terms.scope false ⟨target.span, after.consumed⟩ after [target.node] → Gathers true
      terms env ⟨target.span, after.consumed⟩ after part fun value => [value.node]) :
    Obeys (course terms) env state
      (do Grammar.link; let next ← part; pure (Turn.again next : Turn Expression Expression))
      fun outcome after => outcome.Meets (fun next => state.consumed < after.consumed ∧
          Gathered terms.scope true opening after [next.node]) (goal · after) := by
  refine held.link deepens fun current consumed isDeep held => ?_
  refine (held.followed (gathers current isDeep)).bind fun next _ yields => .pure ?_
  exact ⟨consumed ▸ yields.1 rfl, yields.2⟩

/-! ### Class bodies -/

/-- The members of a class body need one more level. Its opening brace counts as a name. -/
theorem Gathered.body {members : List Member} {span : Span}
    (held : Gathered scope true opening state
      ([.name opening.span] ++ (Member.nodes members).map Node.lowered))
    (isOpen : scope.floor < maxDepth) (isSpan : span = opening.span.cover state.last.span) :
    Gathered scope true opening state [(⟨members, span⟩ : ClassBody).node] := by
  have fits := fun part isPart => held.fits part (mem_append_right _ isPart)
  refine held.enclosed_of_fits isSpan (fun _ => mem_append_right _) (fun text isText => ?_)
    (.intro held.room (fun _ => ⟨isOpen, ?_⟩) fits)
  · have isStart : span.start.offset = opening.span.start.offset := by
      rw [isSpan]
      exact (held.offsets_enclosed isText).1
    show (span.start.offset :: Node.landmarksOf _).Sublist _
    rw [isStart]
    exact .refl _
  · exact forall_mem_map.mpr fun _ _ => .inl rfl

section

variable [terms.Fallible] [sound : self.Sound] {type : WrittenType}

instance : Listed (fun value => [(Expression.node value).lowered]) Expression.lowered :=
  ⟨fun values => (Expression.lowered_eq_map values).trans map_eq_flatMap⟩

instance {owner : String} {kind : BodyKind} :
    Readable true terms (self.classBody owner kind) fun body => [body.node] := by
  refine .start fun held => held.expectOpened nofun fun _ held => ?_
  refine Obeys.bind (Obeys.nested fun _ => Recursion.Sound.reads _ fun _ => rfl) ?_
  rintro after members leads ⟨isOpen, new⟩
  refine .of_holds fun ready => ?_
  have held := held.name.widen new (held.name.later ready leads rfl new.advanced)
  refine .check (fun isBrace => ?_) fun _ => .read rfl ?_
  · refine held.advance (isBrace ▸ nofun) fun passes held => .pure ?_
    exact held.body isOpen (by rw [passes.last]; rfl)
  · refine held.moves (violation_moves ready.last) fun _ yields held => .pure ?_
    exact held.body isOpen (by rw [yields.1.last]; rfl)

/-! ### Arguments and creations -/

instance : Readable true terms (arguments self) Expression.lowered := by
  refine .start fun held => held.expect nofun fun _ held => ?_
  refine held.accept nofun (fun _ held => .pure held) fun _ => ?_
  refine held.past fun found held => ?_
  exact held.ended

instance : Readable true terms (variableInitializer self) fun value => [value.node.lowered] :=
  ⟨.check (fun _ => Readable.reads) fun _ => Readable.reads⟩

instance arrayInitializer_reads : Readable true terms (arrayInitializer self)
    fun value => [value.node] := by
  refine .start fun held => held.expect nofun fun _ held => ?_
  refine held.reads (Reads.separatedUntil nofun) fun elements _ held => ?_
  exact held.expect nofun fun _ held => held.close

instance : Readable false terms (arraySizes self) Expression.lowered := by
  refine .start fun held => Reads.congr (fun sizes => (Expression.lowered_eq_map sizes).symm) ?_
  refine held.loop (fun sizes => sizes.reverse.map fun size => size.node.lowered)
    fun sizes state held => ?_
  refine .read rfl (.read rfl (.ite (fun follows => ?_) fun _ => .pure held))
  have isBracket := eq_of_beq (Bool.and_eq_true_iff.mp follows).1
  refine held.advance (isBracket ▸ nofun) fun passes held => .turning passes.less ?_
  refine held.past fun size held => ?_
  exact held.expect nofun fun _ held => .again held.snoc.forget

section Created

variable (self) (held : Gathered terms.scope true opening state [type.node.lowered])
include held

theorem filledArray_gathers :
    Gathers true terms env opening state (filledArray self opening.span type)
      fun value => [value.node] := by
  refine held.reads Readable.reads fun elements new _ => .pure ?_
  cases type
  exact held.upToExpression new

theorem sizedArray_gathers :
    Gathers true terms env opening state (sizedArray self opening.span type)
      fun value => [value.node] := by
  refine held.past fun sizes held => ?_
  refine held.over fun extra held => ?_
  exact held.closing

theorem createdObject_gathers :
    Gathers true terms env opening state (createdObject self opening.span type)
      fun value => [value.node] := by
  refine held.past fun arguments held => ?_
  refine held.past fun body held => ?_
  exact held.closed

end Created

instance : Movable false terms (droppedTypeArguments self) := by
  refine ⟨.check (fun _ => ?_) fun _ => .pure ⟨nofun, trivial⟩⟩
  exact Readable.reads.bind fun _ _ _ => .pure ⟨nofun, trivial⟩

instance : Readable true terms (creation self) fun value => [value.node] := by
  refine .start fun held => held.expect nofun fun _ held => ?_
  refine held.over fun _ held => ?_
  refine held.past fun type held => ?_
  refine .ite (fun _ => ?_) fun _ => .check (fun _ => ?_) fun _ => ?_
  · exact (filledArray_gathers self held :)
  · exact (sizedArray_gathers self held :)
  · exact (createdObject_gathers self held :)

/-! ### Lambda expressions and method references -/

instance : Readable true terms (lambdaParameter self) fun parameter => [parameter.node] := by
  refine .start fun held => .read rfl (.read rfl (.read rfl (.read rfl ?_)))
  refine .ite (fun _ => ?_) fun _ => ?_
  · exact held.names fun name _ _ held => .pure <| held.named rfl
  refine held.over fun _ held => ?_
  refine held.past fun type held => ?_
  refine held.over fun variadic held => ?_
  refine held.names fun name _ new _ => ?_
  have parameter := held.upTo .other new rfl
  refine parameter.over fun extra parameter => .pure ?_
  cases type
  exact parameter

instance : Readable true terms (lambdaParameters self)
    fun parameters => parameters.map LambdaParameter.node := by
  refine .start fun held => held.accept nofun (fun _ held => ?_) fun _ => ?_
  · refine held.past fun parameters held => ?_
    exact held.ended
  · exact held.names fun name _ _ held => .pure <| held.named rfl

instance : Readable true terms (lambda self) fun value => [value.node] := by
  refine .start fun held => .read rfl ?_
  refine held.past fun parameters held => ?_
  refine .of_holds fun ready => held.expect nofun fun _ held => ?_
  refine held.moves (needFeature_moves ready.current) fun _ _ held => ?_
  refine .check (fun _ => ?_) fun _ => ?_
  · exact held.closing
  · exact held.closing

omit [terms.Fallible] in
theorem needMethodReferences_moves (knows : terms.scope.Knows colons) :
    Moves false terms env state (needMethodReferences colons) fun _ after => Aside state after := by
  refine .read rfl (.ite (fun _ => report_moves knows rfl) fun _ => .pure ?_)
  exact ⟨nofun, .refl state⟩

instance : Readable true terms (referencedMethod self) fun _ => [] := by
  refine .start fun held => held.expect nofun fun _ held => ?_
  refine held.moves (needMethodReferences_moves held.knows) fun _ _ held => ?_
  refine held.over fun _ held => ?_
  refine held.accept nofun (fun _ held => .pure held) fun _ => ?_
  exact held.names fun name _ _ held => .pure held.clear

theorem typeSuffix_gathers (consumed : Nat)
    (held : Gathered terms.scope before ⟨type.span, consumed⟩ state [type.node]) :
    Gathers true terms env ⟨type.span, consumed⟩ state (typeSuffix self type)
      fun value => [value.node] := by
  refine .read rfl (.read rfl (.ite (fun follows => ?_) fun _ => .check (fun _ => ?_) fun _ => ?_))
  · obtain ⟨isDot, isClass⟩ := Bool.and_eq_true_iff.mp follows
    refine held.advance (by simp [eq_of_beq isDot]) fun {after} passes held => ?_
    have isNoEnd : after.current.kind ≠ .endOfInput := by
      have kind : after.current.kind = .class := (passes.kinds 0).trans (eq_of_beq isClass)
      rw [kind]
      simp
    refine held.advance isNoEnd fun passes held => .pure ?_
    rw [← passes.last]
    exact held.enclosed rfl
  · refine held.over fun name held => ?_
    exact held.close
  · exact reportMissing_fails

/-! ### Primaries -/

variable (self) in
theorem unqualifiedCall_gathers
    (held : Gathered terms.scope true opening state [.name opening.span]) :
    Gathers true terms env opening state (unqualifiedCall self name opening.span)
      fun value => [value.node] := by
  refine held.past fun arguments held => ?_
  exact held.closed

instance : Readable true terms (nameOrCall self) fun value => [value.node] := by
  refine .start fun held => held.names fun name _ _ held => .check (fun _ => ?_) fun _ => ?_
  · exact (unqualifiedCall_gathers self held :)
  · refine held.over fun id held => ?_
    exact .pure <| held.named rfl

theorem selfReference_reads (isNoEnd : state.current.kind ≠ .endOfInput)
    (isAlone : ∀ span, (alone span).node = ⟨.expression, false, span, []⟩) :
    Reads true terms env state (selfReference self word alone) fun value => [value.node] := by
  refine .start fun held => held.advance isNoEnd fun _ held => ?_
  refine .check (fun _ => ?_) fun _ => .pure ?_
  · exact (unqualifiedCall_gathers self held.name :)
  · show Gathered _ _ _ _ [(alone state.current.span).node]
    rw [isAlone]
    exact held.opener rfl

theorem parenthesized_reads (isNoEnd : state.current.kind ≠ .endOfInput) :
    Reads true terms env state (parenthesized self) fun value => [value.node] := by
  refine .start fun held => held.advance isNoEnd fun _ held => ?_
  refine held.past fun inner held => ?_
  exact held.expect nofun fun _ held => held.close

instance : Readable true terms (switchExpression self) fun value => [value.node] := by
  refine .start fun held => .read rfl ?_
  refine held.needs fun held => ?_
  refine held.past fun parts held => ?_
  refine .pure <| held.rebuilt _ _ (mem_singleton_self parts.node) rfl (fun _ => .inl) ?_
  exact @Node.landmarksOf_parts_sublist parts.node nofun

omit [terms.Fallible] in
theorem literal_reads (isNoEnd : state.current.kind ≠ .endOfInput) :
    Reads true terms env state literal fun value => [value.node] := by
  refine .start fun held => held.advance isNoEnd fun _ held => ?_
  refine held.moves (modify_moves ⟨rfl, rfl, rfl, rfl, rfl, rfl, rfl, rfl⟩ rfl rfl rfl)
    fun _ _ held => ?_
  extract_lets rest
  refine held.perhaps (needFeature_moves held.knows) fun held => ?_
  exact .pure <| held.opener rfl

theorem primitiveSuffix_reads (isNoEnd : state.current.kind ≠ .endOfInput) :
    Reads true terms env state (primitiveSuffix self) fun value => [value.node] := by
  refine .start fun held => held.advance isNoEnd fun _ held => ?_
  refine held.over fun extra held => ?_
  exact typeSuffix_gathers state.consumed (held.opener rfl)

theorem missingExpression_fails : Obeys (course terms) env state missingExpression goal := by
  refine .of_holds fun ready => .read rfl ?_
  split
  case h_7 => exact reject_obeys ready.current
  all_goals exact reject_obeys ready.last

instance : Readable true terms (primary self) fun value => [value.node] := by
  refine ⟨.read rfl (.ite (fun isLiteral => ?_) fun _ => .ite (fun isPrimitive => ?_) fun _ => ?_)⟩
  · refine literal_reads fun isEnd => ?_
    rw [isEnd] at isLiteral
    cases isLiteral
  · refine primitiveSuffix_reads fun isEnd => ?_
    rw [isEnd] at isPrimitive
    cases isPrimitive
  split
  next isThis => exact selfReference_reads (isThis ▸ nofun) fun _ => rfl
  next isSuper => exact selfReference_reads (isSuper ▸ nofun) fun _ => rfl
  next => exact Readable.reads
  next isParen =>
    exact .ite (fun _ => Readable.reads) fun _ => parenthesized_reads (isParen ▸ nofun)
  next => exact Readable.reads
  next => exact .ite (fun _ => Readable.reads) fun _ => Readable.reads
  next => exact .ite (fun _ => Readable.reads) fun _ => Readable.reads
  next => exact missingExpression_fails

/-! ### What follows a primary -/

theorem targetCall_gathers
    (held : Gathered terms.scope true ⟨target.span, consumed⟩ state ([target.node] ++
      WrittenType.lowered types ++ [.name nameSpan])) :
    Gathers true terms env ⟨target.span, consumed⟩ state
      (targetCall self target types name nameSpan) fun value => [value.node] := by
  refine held.past fun arguments held => .read rfl ?_
  have call : Gathered _ _ _ _ [⟨.expression, false, _, _⟩] := held.enclosed rfl
  exact call.ended

omit [terms.Fallible] in
theorem ne_annotation_of_mem_created {arguments : List Expression}
    (isPart : part ∈ [type.node.lowered] ++ Expression.lowered arguments ++
      ClassBody.optional body) : part.sort ≠ .annotationUse := by
  rcases mem_append.mp isPart with isPart | isBody
  · rcases mem_cons.mp isPart with rfl | isArgument
    · simp
    · rw [Expression.lowered_eq_map] at isArgument
      obtain ⟨argument, _, rfl⟩ := mem_map.mp isArgument
      simp
  · cases body with
    | none => cases isBody
    | some body =>
      cases mem_singleton.mp isBody
      simp

section Target

variable (held : Gathered terms.scope true ⟨target.span, consumed⟩ state [target.node])
include held

theorem genericCall_gathers :
    Gathers true terms env ⟨target.span, consumed⟩ state (genericCall self target)
      fun value => [value.node] := by
  refine held.past fun found held => ?_
  refine held.names fun name _ _ held => targetCall_gathers (held.subset ?_ ?_)
  case refine_2 => simp [TypeArgument.landmarksOf_nodes]
  refine append_subset.mpr ⟨append_subset.mpr ⟨?_, ?_⟩, subset_append_right _ _⟩
  · exact fun _ isNode => mem_append_left _ (mem_append_left _ isNode)
  · -- a type that is kept is an argument of the call
    refine forall_mem_map.mpr fun type isType => ?_
    obtain ⟨argument, isArgument, isKept⟩ := mem_filterMap.mp isType
    have isNode : type.node.lowered ∈ TypeArgument.nodes found.1 := by
      rw [TypeArgument.nodes_eq_map]
      refine mem_map.mpr ⟨argument, isArgument, ?_⟩
      cases argument with
      | type given =>
        cases isKept
        rfl
      | _ => cases isKept
    exact mem_append_left _ (mem_append_right _ isNode)

theorem innerCreation_gathers :
    Gathers true terms env ⟨target.span, consumed⟩ state (innerCreation self target)
      fun value => [value.node] := by
  refine held.reads Readable.reads fun {after} created new joined => ?_
  split
  next outer type arguments body id span =>
    -- the parts of the creation become parts of the new node, after the target
    have whole := held.upTo .expression new rfl
    refine .pure <| whole.rebuilt _ _ (mem_singleton_self _) rfl ?_ ?_
    · rintro part (_ | ⟨_, isPart⟩)
      · exact .inl mem_cons_self
      refine .inr (.trans (.part (mem_append_right _ (mem_singleton_self _)) nofun nofun)
        (.part ?_ nofun (ne_annotation_of_mem_created isPart)))
      cases outer with
      | none => exact isPart
      | some outer => exact mem_cons_of_mem _ isPart
    · refine .append_left ?_ _
      show _ <+ Node.landmarksOf (_ ++ _ ++ _ ++ _) ++ []
      rw [append_nil, append_assoc, append_assoc, Node.landmarksOf_append]
      exact sublist_append_right _ _
  next => exact .pure joined.right

theorem selection_gathers :
    Gathers true terms env ⟨target.span, consumed⟩ state (selection self target)
      fun value => [value.node] := by
  refine .read rfl ?_
  have word : ∀ {after}, Passes state after →
      Gathered terms.scope (true || true) ⟨target.span, consumed⟩ after [target.node] →
      Gathered terms.scope true ⟨target.span, consumed⟩ after
        [⟨.expression, false, target.span.cover state.current.span, []⟩] := by
    intro after passes held
    rw [← passes.last]
    exact held.clear.enclosed rfl
  split
  next => exact innerCreation_gathers held
  next isThis =>
    refine held.advance (isThis ▸ nofun) fun passes held => .pure ?_
    exact word passes held
  next isClass =>
    refine held.advance (isClass ▸ nofun) fun passes held => .pure ?_
    have type := held.rebuilt .other [] (mem_singleton_self _) rfl nofun (nil_sublist _)
    rw [target.span_node] at type
    rw [← passes.last]
    exact type.enclosed rfl
  next isSuper =>
    refine held.advance (isSuper ▸ nofun) fun passes held => .pure ?_
    exact word passes held
  next => exact genericCall_gathers held
  next =>
    refine held.names fun name _ new joined => .check (fun _ => ?_) fun _ => ?_
    · exact targetCall_gathers joined
    · have field := held.upTo .expression new rfl
      exact field.ended

end Target

theorem arrayTypeSuffix_gathers
    (held : Gathered terms.scope before ⟨target.span, consumed⟩ state [target.node]) :
    Gathers true terms env ⟨target.span, consumed⟩ state (arrayTypeSuffix self target)
      fun value => [value.node] := by
  have type := held.rebuilt .other [] (mem_singleton_self _) rfl nofun (nil_sublist _)
  rw [target.span_node] at type
  unfold arrayTypeSuffix
  split
  · refine type.over fun extra type => ?_
    exact typeSuffix_gathers consumed type
  · refine .of_holds fun ready => .read rfl (reject_obeys fun text isText => ?_)
    have stand := (ready.located text isText).stand
    unfold State.tokens at stand
    cases isFollowing : state.following with
    | nil => exact (stand _ mem_cons_self).isTrue
    | cons next rest =>
      rw [isFollowing] at stand
      exact (stand next (mem_cons_of_mem _ mem_cons_self)).isTrue

theorem element_gathers (isNoEnd : state.current.kind ≠ .endOfInput)
    (held : Gathered terms.scope before ⟨target.span, consumed⟩ state [target.node]) :
    Gathers true terms env ⟨target.span, consumed⟩ state (element self target)
      fun value => [value.node] := by
  refine held.advance isNoEnd fun _ held => ?_
  refine held.past fun index held => ?_
  exact held.expect nofun fun _ held => held.close

theorem chainPart_gathers
    (held : Gathered terms.scope false ⟨target.span, consumed⟩ state [target.node]) :
    Gathers true terms env ⟨target.span, consumed⟩ state (chainPart self target)
      fun value => [value.node] := by
  refine .read rfl ?_
  split
  next isDot =>
    exact held.advance (by simp [isDot]) fun _ held => selection_gathers held
  next isBracket =>
    refine .read rfl (.ite (fun _ => arrayTypeSuffix_gathers held) fun _ => ?_)
    exact element_gathers (by simp [isBracket]) held
  next isIncrement =>
    refine held.advance (by simp [isIncrement]) fun passes held => .pure ?_
    rw [← passes.last]
    exact held.enclosed rfl
  next isDecrement =>
    refine held.advance (by simp [isDecrement]) fun passes held => .pure ?_
    rw [← passes.last]
    exact held.enclosed rfl
  next =>
    exact held.closed

instance : Readable true terms (chain self) fun value => [value.node] := by
  refine ⟨.chained <| .start fun held => ?_⟩
  refine held.past fun first held => ?_
  refine held.loop (fun target => [target.node]) fun target state held => ?_
  refine .read rfl (.ite (fun _ => ?_) fun _ => .done held)
  exact held.follows rfl fun _ _ held => chainPart_gathers held

/-! ### Operations -/

instance : Readable true terms (cast self) fun value => [value.node] := by
  refine .start fun held => held.expect nofun fun _ held => ?_
  refine held.past fun type held => ?_
  refine held.past fun bounds held => ?_
  refine held.expect nofun fun _ held => ?_
  exact held.reads Readable.reads fun operand new _ => .pure <| held.upToExpression new

omit [terms.Fallible] in
theorem prefixOperator?_eq_some (isPrefix : prefixOperator? kind = some operator) :
    kind ≠ .endOfInput ∧ operator.isPostfix = false := by
  unfold prefixOperator? at isPrefix
  split at isPrefix <;> cases isPrefix <;> exact ⟨nofun, rfl⟩

instance unary_reads : Readable true terms (unary self) fun value => [value.node] := by
  refine .start fun held => .read rfl ?_
  split
  next operator isPrefix =>
    obtain ⟨isNoEnd, isNoPostfix⟩ := prefixOperator?_eq_some isPrefix
    refine held.advance isNoEnd fun _ held => ?_
    refine held.reads Readable.reads fun operand new _ => .pure ?_
    show Gathered _ _ _ _ [⟨.expression, false, _,
      [if operator.isPostfix = true then operand.node else operand.node.lowered]⟩]
    rw [isNoPostfix]
    exact held.upToExpression new
  next =>
    exact .read rfl (.ite (fun _ => Readable.reads) fun _ => Readable.reads)

theorem instanceTest_gathers {operand : Expression}
    (held : Gathered terms.scope before ⟨operand.span, consumed⟩ state [operand.node]) :
    Gathers true terms env ⟨operand.span, consumed⟩ state (instanceTest self operand)
      fun value => [value.node] := by
  refine held.expect nofun fun _ held => .read rfl ?_
  refine .ite (fun _ => ?_) fun _ => ?_
  · refine held.reads Readable.reads fun tested new held => ?_
    have knows := new.knows_of_mem (mem_singleton_self _)
    rw [tested.span_node] at knows
    refine held.moves (needFeature_moves knows) fun _ _ held => ?_
    exact held.close
  · exact held.closing

theorem operationPart_gathers {left : Expression} (isNoEnd : state.current.kind ≠ .endOfInput)
    (isDeep : terms.scope.floor + 1 ≤ state.depth)
    (held : Gathered terms.scope before ⟨left.span, consumed⟩ state [left.node]) :
    Gathers true terms env ⟨left.span, consumed⟩ state (operationPart self operator left)
      fun value => [value.node] := by
  refine held.advance isNoEnd fun passes held => ?_
  refine held.reads (Reads.deeper (passes.depth.symm ▸ isDeep) (sound.reads (.operation _) nofun))
    fun right new _ => .pure ?_
  exact held.upToExpression new

omit [terms.Fallible] in
theorem ne_endOfInput_of_binaryOperator? {operator : BinaryOperator}
    (isOperator : binaryOperator? kind = some operator) : kind ≠ .endOfInput := by
  rintro rfl
  cases isOperator

instance operation_reads {least : Nat} : Readable true terms (operation self least)
    fun value => [value.node] := by
  refine ⟨.chained <| .start fun held => ?_⟩
  refine held.past fun first held => ?_
  refine held.loop (fun left => [left.node]) fun left state held => ?_
  refine .read rfl (.ite (fun _ => ?_) fun _ => ?_)
  · exact held.follows rfl fun _ _ held => instanceTest_gathers held
  split
  next operator isOperator =>
    refine .ite (fun _ => .done held) fun _ => held.follows rfl fun current isDeep held => ?_
    refine operationPart_gathers ?_ isDeep held
    rw [current]
    exact ne_endOfInput_of_binaryOperator? isOperator
  next => exact .done held

instance conditional_reads : Readable true terms (conditional self) fun value => [value.node] := by
  refine .start fun held => held.past fun condition held => ?_
  refine held.following fun held => held.accept nofun (fun _ held => ?_) fun _ => ?_
  · refine held.past fun yes held => ?_
    refine held.expect nofun fun _ held => ?_
    refine held.reads Readable.reads fun no new _ => .pure ?_
    exact (held.upToExpression new).forget
  · exact .pure held

omit [terms.Fallible] in
theorem ne_endOfInput_of_assignmentOperator?
    (isOperator : assignmentOperator? kind = some operator) : kind ≠ .endOfInput := by
  rintro rfl
  cases isOperator

instance expression_reads : Readable true terms (expression self) fun value => [value.node] := by
  refine .start fun held => held.past fun target held => ?_
  refine held.following fun held => .read rfl ?_
  split
  next operator isOperator =>
    refine held.advance (ne_endOfInput_of_assignmentOperator? isOperator) fun _ held => ?_
    refine held.reads Readable.reads fun value new _ => .pure ?_
    exact (held.upToExpression new).forget
  next => exact .pure held

end

end JavaFrontEnd.Grammar
