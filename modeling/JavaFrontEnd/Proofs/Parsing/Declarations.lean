/-
Declarations of types and members keep to the course of a parse. A declaration that has a class body
needs one more level for its members, which shows in its depth; an enum reads its members at its own
level.
-/

import JavaFrontEnd.Proofs.Parsing.Expressions

namespace JavaFrontEnd.Grammar

open List

variable {terms : Terms} {env : Environment} {state after : State} {scope : Scope}
  {opening : Opening} {before : Bool} {self : Recursion}

/-! ### Skipping -/

instance : Movable false terms skipToConstant := by
  refine .start fun held => held.loop (fun _ => []) fun _ state held => .read rfl ?_
  split
  case h_5 =>
    exact held.advance (by assumption) fun passes held => .turning passes.less (.again held.forget)
  all_goals exact .done held

instance : Movable false terms skipToMember := by
  refine .start fun held => held.loop (fun _ => []) fun depth state held => .read rfl ?_
  refine .ite (fun _ => .done held) fun isNoEnd => ?_
  have isNoEnd := mt beq_iff_eq.mpr isNoEnd
  refine .ite (fun _ => ?_) fun _ => .ite (fun _ => ?_) fun _ => ?_
  · exact held.advance isNoEnd fun passes held => .turning passes.less (.again held.forget)
  · refine .ite (fun _ => .done held) fun _ => ?_
    refine held.advance isNoEnd fun passes held => .turning passes.less ?_
    exact .ite (fun _ => .done held.forget) fun _ => .again held.forget
  refine .ite (fun _ => ?_) fun _ => .ite (fun _ => .done held) fun _ => ?_
  · exact held.advance isNoEnd fun passes held => .done held.forget
  · exact held.advance isNoEnd fun passes held => .turning passes.less (.again held.forget)

/-! ### Members -/

def MemberStart.nodes (start : MemberStart) : List Node :=
  start.annotations.map AnnotationUse.node ++ start.typeParameters.map TypeParameter.node

theorem splitConstructorCall_holds (body : Block) :
    (∀ node ∈ ConstructorCall.nodes (splitConstructorCall body).1 ++
      [(splitConstructorCall body).2.node], body.node.Holds node) ∧
    Node.landmarksOf (ConstructorCall.nodes (splitConstructorCall body).1 ++
      [(splitConstructorCall body).2.node]) <+ body.node.landmarks := by
  have alone : ∀ block : Block, Node.landmarksOf [block.node] <+ block.node.landmarks := by
    intro block
    rw [Node.landmarksOf_singleton]
  obtain ⟨statements, span⟩ := body
  unfold splitConstructorCall
  dsimp only
  split
  next types name nameSpan arguments id callSpan statementSpan rest =>
    have apart : ∀ {first : Statement} {call : Node}, first.node.sort ≠ .annotationUse →
        first.node.Holds call →
        (∀ node ∈ [call] ++ [(⟨rest, span⟩ : Block).node],
          (⟨first :: rest, span⟩ : Block).node.Holds node) ∧
        Node.landmarksOf ([call] ++ [(⟨rest, span⟩ : Block).node]) <+
          (⟨first :: rest, span⟩ : Block).node.landmarks := by
      intro first call isNoMark holds
      refine ⟨forall_mem_cons.mpr ⟨.trans (.part mem_cons_self nofun isNoMark) holds,
        forall_mem_singleton.mpr (.rebuilt rfl (fun _ isPart => .inl ?_) ?_)⟩, ?_⟩
      · exact mem_cons_of_mem _ isPart
      · exact sublist_append_right _ _
      · rw [Node.landmarksOf_append, Node.landmarksOf_singleton, Node.landmarksOf_singleton]
        exact holds.landmarks.append_right _
    have call : (Statement.expression (.call none types name nameSpan arguments id callSpan)
        statementSpan).node.Holds ⟨.other, false, statementSpan, Expression.lowered arguments⟩ := by
      refine .rebuilt rfl (fun part isPart => .inr ?_) ?_
      · refine .trans (.part mem_cons_self nofun nofun) (.part (mem_append_right _ isPart) nofun ?_)
        rw [Expression.lowered_eq_map] at isPart
        obtain ⟨argument, _, rfl⟩ := mem_map.mp isPart
        simp
      · show _ <+ Node.landmarksOf (_ ++ _ ++ _ ++ _) ++ []
        rw [append_nil, Node.landmarksOf_append]
        exact sublist_append_right _ _
    split
    · exact apart nofun call
    · split
      · exact apart nofun call
      · exact ⟨forall_mem_singleton.mpr (.refl _), alone _⟩
  next => exact ⟨forall_mem_singleton.mpr (.refl _), alone _⟩

theorem checkConstructorName_moves (knows : terms.scope.Knows nameSpan) :
    Moves false terms env state (checkConstructorName owner name nameSpan) fun _ _ => True := by
  refine .ite (fun _ => ?_) fun _ => .pure ⟨by simp, trivial⟩
  exact (violation_moves knows).mono fun _ _ _ => ⟨by simp, trivial⟩

section Members

variable [terms.Fallible] [self.Sound] {start : MemberStart}

instance {kind : BodyKind} :
    Readable false terms (defaultValueOf self kind) Expression.optional := by
  refine .start fun held => .ite (fun _ => ?_) fun _ => .pure held
  exact Reads.optionalAfter nofun

instance : Readable true terms (methodBody self) Block.optional := by
  refine .start fun held => .check (fun _ => Readable.reads) fun _ => ?_
  exact held.expect nofun fun _ held => .pure held

theorem methodMember_gathers
    (held : Gathered terms.scope true opening state (start.nodes ++ WrittenType.optionalLowered
      returnType ++ [.name nameSpan])) (isStart : start.start = opening.span) :
    Gathers true terms env opening state
      (methodMember self kind start returnType name nameSpan) fun member => [member.node] := by
  obtain ⟨_, modifiers, annotations, typeParameters⟩ := start
  cases isStart
  refine held.past fun parameters held => ?_
  refine held.over fun extra held => ?_
  refine held.reads (typesAfter_reads nofun) fun throws _ held => ?_
  refine held.past fun defaultValue held => ?_
  refine held.past fun body held => ?_
  refine .read rfl (.pure ?_)
  cases returnType with
  | none => exact held.enclosed rfl
  | some type =>
    cases type
    exact held.enclosed rfl

theorem fieldMember_gathers {type : WrittenType} {name : String × Span}
    (header : Gathered terms.scope true opening state (start.annotations.map AnnotationUse.node ++
      [type.node.lowered]))
    (held : Gathered terms.scope true opening state (listed ++ [.name name.2]))
    (isStart : start.start = opening.span) :
    Gathers true terms env opening state (fieldMember self start type name)
      fun member => listed ++ [member.node] := by
  have isPlain := WrittenType.landmarksOf_annotated start.annotations type
  have held := held.exchange (header.appendAside held.right (.inl isPlain))
    (by rw [Node.landmarksOf_append, isPlain]; exact .refl _)
  refine held.over fun extra held => ?_
  refine held.reads (Reads.optionalAfter nofun) fun initializer _ held => ?_
  refine .read rfl (.pure ?_)
  rw [append_assoc] at held
  rw [isStart]
  cases type
  exact held.enclosedLast .other rfl

theorem fieldMembers_gathers {type : WrittenType}
    (header : Gathered terms.scope true opening state (start.annotations.map AnnotationUse.node ++
      [type.node.lowered])) (held : Gathered terms.scope true opening state [.name nameSpan])
    (isStart : start.start = opening.span) :
    Gathers true terms env opening state (fieldMembers self start type name nameSpan)
      Member.nodes := by
  have fields : Gathers true terms env opening state
      (iterate ([], name, nameSpan) (fieldTurn self start type))
      fun fields => fields.map Member.node := by
    refine .iterate (fun found state =>
      Gathered terms.scope true opening state
        (start.annotations.map AnnotationUse.node ++ [type.node.lowered]) ∧
      Gathered terms.scope true opening state
        (found.1.reverse.map Member.node ++ [.name found.2.2])) ?_ ⟨header, held⟩
    rintro ⟨fields, name⟩ state ⟨header, held⟩
    refine (fieldMember_gathers header held isStart).bind fun field leads listed => ?_
    refine .of_holds fun ready => ?_
    have header := header.kept ready leads rfl
    have listed := listed.snoc
    have both := header.appendAside listed
      (.inl (WrittenType.landmarksOf_annotated start.annotations type))
    refine both.accept (by simp) (fun passes both => ?_) fun _ => .done listed
    refine both.names fun {last} next less _ both => ?_
    have further : state.consumed < last.consumed :=
      Nat.lt_of_le_of_lt leads.forward (Nat.lt_trans passes.less less)
    rw [append_assoc] at both
    exact .turning further (.again ⟨both.left, both.right⟩)
  refine fields.bind fun {after} fields _ held => ?_
  have held : Gathered terms.scope true opening after (Member.nodes fields) :=
    (Member.nodes_eq_map fields).symm ▸ held
  exact held.ended

instance : Readable true terms (resultType self) WrittenType.optionalLowered := by
  refine .start fun held => held.accept nofun (fun _ held => .pure held) fun _ => ?_
  exact Readable.reads

variable (held : Gathered terms.scope before opening state start.nodes)
  (isStart : start.start = opening.span)
include held isStart

theorem constructorMember_gathers :
    Gathers true terms env opening state (constructorMember self owner start)
      fun member => [member.node] := by
  obtain ⟨_, modifiers, annotations, typeParameters⟩ := start
  cases isStart
  refine held.names fun name _ new held => ?_
  refine held.moves (checkConstructorName_moves new.knows) fun _ _ held => ?_
  refine held.past fun parameters held => ?_
  refine held.reads (typesAfter_reads nofun) fun throws _ held => ?_
  refine held.past fun block held => ?_
  obtain ⟨holds, landmarks⟩ := splitConstructorCall_holds block
  generalize splitConstructorCall block = parts at holds landmarks ⊢
  obtain ⟨call, body⟩ := parts
  have held := held.replaceLast holds landmarks
  refine .read rfl (.ite (fun _ => .pure ?_) fun _ => .pure ?_)
  · have parts := held.sublist (.append_left (sublist_append_right _ _) _)
    have whole : Gathered _ _ _ _ [⟨.other, false, _, _⟩] := parts.enclosed rfl
    simpa [Member.node, WrittenType.optionalLowered, WrittenType.lowered, Expression.optional,
      Block.optional, MemberStart.nodes] using whole
  · have whole : Gathered _ _ _ _ [⟨.other, false, _, _⟩] := held.enclosed rfl
    simpa [Member.node, MemberStart.nodes] using whole

theorem compactConstructor_gathers :
    Gathers true terms env opening state (compactConstructor self start)
      fun member => [member.node] := by
  obtain ⟨_, modifiers, annotations, typeParameters⟩ := start
  cases isStart
  refine held.names fun name _ _ held => ?_
  refine held.reads Readable.reads fun body new _ => .pure ?_
  have whole := held.upTo .other new rfl
  simpa [Member.node, MemberStart.nodes, WrittenType.lowered, ConstructorCall.nodes] using whole

theorem typedMembers_gathers :
    Gathers true terms env opening state (typedMembers self kind start) Member.nodes := by
  refine held.past fun type held => ?_
  refine held.names fun name _ new held => .check (fun _ => ?_) fun _ => ?_
  · exact (methodMember_gathers held isStart).bind fun member _ held => .pure held
  split
  next type =>
    refine fieldMembers_gathers (held.left.sublist ?_) held.right isStart
    exact .append_right (sublist_append_left _ _) _
  next => exact reject_obeys new.knows

end Members

/-! ### Types -/

theorem Gathered.declares {start : TypeStart} {name : String} {shape : TypeShape} {body : ClassBody}
    (held : Gathered scope true opening state nodes)
    (new : Gathered scope true state.opening after [body.node])
    (isHeader : nodes = start.annotations.map AnnotationUse.node ++ [.name nameSpan] ++ shape.nodes)
    (isOpen : shape.kind ≠ .enum) (isStart : start.start = opening.span) :
    Gathered scope true opening after [(start.declare name nameSpan shape body).node] := by
  have whole := held.upTo .other new rfl
  rw [body.span_node] at whole
  have isNode : (start.declare name nameSpan shape body).node =
      ⟨.declaration shape.kind, false, opening.span.cover body.span,
        nodes ++ (Member.nodes body.members).map Node.lowered⟩ := by
    simp [TypeStart.declare, TypeDeclaration.node, EnumConstant.nodes, TypeKind.loweredMembers,
      isOpen, isHeader, isStart]
  have isPlain : ∀ node ∈ nodes, node.Plain := by
    rw [isHeader]
    refine forall_mem_append.mpr ⟨forall_mem_append.mpr
      ⟨AnnotationUse.plain_nodes _, ?_⟩, shape.plain_nodes⟩
    exact forall_mem_singleton.mpr (.name nameSpan)
  rw [isNode]
  exact whole.giveWay (.declaration isPlain)

section Types

variable [terms.Fallible] [self.Sound]

instance : Readable false terms (constantArguments self) Expression.lowered := by
  refine .start fun held => .check (fun _ => ?_) fun _ => .pure held
  exact Readable.reads.mono fun _ _ held => held.forget

instance : Readable true terms (enumConstant self) fun constant => [constant.node] := by
  refine .start fun held => .read rfl ?_
  refine held.past fun found held => ?_
  refine held.names fun name _ _ held => .read rfl ?_
  refine held.past fun arguments held => ?_
  exact held.closing

omit [terms.Fallible] in
theorem constantStep_obeys {constants : List EnumConstant}
    (held : Gathered terms.saving.surely.scope before opening state
      (constants.reverse.map EnumConstant.node)) :
    GathersTurn before before terms.saving.surely env opening state
      (constantStep self constants) (·.reverse.map EnumConstant.node)
      (·.1.map EnumConstant.node) := by
  refine .check (fun _ => .done held) fun isNoEnd => ?_
  refine held.accept (by simp) (fun _ held => .done held.weaken) fun _ => ?_
  refine .check (fun _ => .done held) fun _ => ?_
  refine held.reads (Reads.recovering isNoEnd Readable.reads) fun {after} next new held => ?_
  have less := new.advanced rfl
  cases next with
  | none => exact .turning less (.again held.left.weaken)
  | some next =>
    have held : Gathered _ before opening after _ := held.snoc.weaken
    refine .turning less (held.accept (by simp) (fun _ held => .again held.weaken) fun _ => ?_)
    refine held.accept (by simp) (fun _ held => .done held.weaken) fun _ => ?_
    refine .check (fun _ => .done held) fun _ => .of_holds fun ready => .read rfl ?_
    refine held.moves (violation_moves ready.last) fun _ _ held => ?_
    refine .check (fun _ => .again held) fun _ => ?_
    refine held.over fun _ held => ?_
    exact .again held

/-- The brace before the constants pays for the last turn of the loop over them. -/
instance : Readable true terms.counting (enumConstants self)
    fun found => EnumConstant.nodes found.1 := by
  refine ⟨fun {env state} => Reads.congr (fun found => (EnumConstant.nodes_eq_map found.1).symm) ?_⟩
  refine .of_holds fun ready => Obeys.bindFrom expect_obeys ?_
  rintro _ _ readyAfter leads ⟨rfl, rfl, isBrace⟩
  have passes := ready.passes (isBrace ▸ nofun)
  have held := (Gathered.start ready).passed readyAfter leads rfl passes.less
  have credit : state.advance.steps + 1 + 2 * state.consumed ≤
      state.steps + 2 * state.advance.consumed := by
    have less := passes.less
    rw [passes.steps]
    omega
  exact Gathered.loopCounted (fun constants : List EnumConstant => (constants.reverse, false))
    (fun constants => constants.reverse.map EnumConstant.node)
    (fun found => found.1.map EnumConstant.node) (fun _ => rfl)
    (fun constants state held => constantStep_obeys held) env.bound []
    state.advance readyAfter leads credit held readyAfter.bounded

instance {name : String} {terminated : Bool} :
    Readable false terms.counting (enumMembers self name terminated) Member.nodes :=
  .start fun held => .ite (fun _ => Recursion.Sound.reads (.members _ _) fun _ => rfl)
    fun _ => .pure held

omit [terms.Fallible] in
theorem enumEnd_moves :
    Moves false terms env state enumEnd fun stop after => stop = after.last.span := by
  refine .of_holds fun ready => .attempt expect_obeys ?_ ?_
  · rintro after closing _ ⟨rfl, rfl, isBrace⟩
    have last := (ready.passes (by simp [isBrace])).last
    exact .pure ⟨by simp, congrArg Token.span last.symm⟩
  · exact fun _ => .of_eq_some rfl id (fun _ => Course.refl _ _ _) fun _ => ⟨by simp, rfl⟩

section Start

variable {start : TypeStart}
  (held : Gathered terms.scope before opening state (start.annotations.map AnnotationUse.node))
  (isStart : start.start = opening.span)
include held isStart

theorem classDeclaration_gathers :
    Gathers true terms env opening state (classDeclaration self start)
      fun declaration => [declaration.node] := by
  refine held.expect (by simp) fun _ held => held.names fun name _ _ held => ?_
  refine held.past fun parameters held => ?_
  refine held.reads (Reads.optionalAfter (by simp)) fun superclass _ held => ?_
  refine held.reads (typesAfter_reads (by simp)) fun interfaces _ held => ?_
  refine held.past fun permits held => ?_
  refine held.reads Readable.reads fun body new _ => .pure ?_
  exact held.declares new (by simp [TypeShape.nodes]) (by simp [TypeShape.kind]) isStart

theorem interfaceDeclaration_gathers :
    Gathers true terms env opening state (interfaceDeclaration self start)
      fun declaration => [declaration.node] := by
  refine held.expect (by simp) fun _ held => held.names fun name _ _ held => ?_
  refine held.past fun parameters held => ?_
  refine held.reads (typesAfter_reads (by simp)) fun interfaces _ held => ?_
  refine held.past fun permits held => ?_
  refine held.reads Readable.reads fun body new _ => .pure ?_
  exact held.declares new (by simp [TypeShape.nodes]) (by simp [TypeShape.kind]) isStart

theorem annotationDeclaration_gathers (isNoEnd : state.current.kind ≠ .endOfInput) :
    Gathers true terms env opening state (annotationDeclaration self start)
      fun declaration => [declaration.node] := by
  refine .of_holds fun ready => held.advance isNoEnd fun _ held => ?_
  refine held.moves (needFeature_moves ready.current) fun _ _ held => ?_
  refine held.expect nofun fun _ held => held.names fun name _ _ held => ?_
  refine held.reads Readable.reads fun body new _ => .pure ?_
  exact held.declares new (by simp [TypeShape.nodes]) nofun isStart

theorem recordDeclaration_gathers (isNoEnd : state.current.kind ≠ .endOfInput) :
    Gathers true terms env opening state (recordDeclaration self start)
      fun declaration => [declaration.node] := by
  refine .of_holds fun ready => held.advance isNoEnd fun _ held => ?_
  refine held.moves (needFeature_moves ready.current) fun _ _ held => ?_
  refine held.names fun name _ _ held => ?_
  refine held.past fun parameters held => ?_
  refine held.past fun components held => ?_
  refine held.reads (typesAfter_reads nofun) fun interfaces _ held => ?_
  refine held.reads Readable.reads fun body new _ => .pure ?_
  exact held.declares new (by simp [TypeShape.nodes]) nofun isStart

theorem enumDeclaration_gathers (isNoEnd : state.current.kind ≠ .endOfInput) :
    Gathers true terms env opening state (enumDeclaration self start)
      fun declaration => [declaration.node] := by
  obtain ⟨_, modifiers, annotations⟩ := start
  cases isStart
  refine .of_holds fun ready => held.advanceOpened isNoEnd fun _ held => ?_
  refine held.moves (needFeature_moves ready.current) fun _ _ held => ?_
  refine held.names fun name _ _ held => ?_
  refine held.reads (typesAfter_reads nofun) fun interfaces _ held => ?_
  refine held.past fun found held => ?_
  refine held.past fun members held => ?_
  refine held.moves enumEnd_moves fun stop isStop held => .pure ?_
  rw [isStop]
  exact held.enclosed rfl

variable (start) in
theorem typeDeclaration?_obeys :
    Obeys (course terms) env state (typeDeclaration? self start) fun found after =>
      (∀ declaration, found = some declaration →
        Gathered terms.scope true opening after [declaration.node]) ∧
      (found = none → after = state) := by
  have declared : ∀ {parser : Parser TypeDeclaration},
      Gathers true terms env opening state parser (fun declaration => [declaration.node]) →
      Obeys (course terms) env state (do let found ← parser; pure (some found)) fun found after =>
          (∀ declaration, found = some declaration →
            Gathered terms.scope true opening after [declaration.node]) ∧
          (found = none → after = state) := by
    refine fun gathers => gathers.bind fun found _ held => .pure ⟨?_, by simp⟩
    rintro _ ⟨⟩
    exact held
  refine .check (fun _ => ?_) fun _ => .check (fun _ => ?_) fun _ => ?_
  · exact declared (classDeclaration_gathers held isStart)
  · exact declared (interfaceDeclaration_gathers held isStart)
  refine .read rfl (.read rfl (.ite (fun follows => ?_) fun _ => ?_))
  · have isAt := eq_of_beq (Bool.and_eq_true_iff.mp follows).1
    exact declared (annotationDeclaration_gathers held isStart (by simp [isAt]))
  refine .read rfl (.read rfl (.ite (fun follows => ?_) fun _ => ?_))
  · refine declared (enumDeclaration_gathers held isStart ?_)
    rcases Bool.or_eq_true_iff.mp follows with isEnum | isWord
    · simp [eq_of_beq isEnum]
    · exact Token.ne_endOfInput_of_isWord (Bool.and_eq_true_iff.mp
        (Bool.and_eq_true_iff.mp isWord).1).1
  refine .read rfl (.ite (fun follows => ?_) fun _ => .pure ⟨by simp, fun _ => rfl⟩)
  refine declared (recordDeclaration_gathers held isStart ?_)
  exact Token.ne_endOfInput_of_isWord (Bool.and_eq_true_iff.mp
    (Bool.and_eq_true_iff.mp follows).1).1

/-! ### Bodies -/

theorem otherMembers_gathers :
    Gathers true terms env opening state (otherMembers self owner kind start) Member.nodes := by
  obtain ⟨_, modifiers, annotations⟩ := start
  refine held.past fun parameters held => ?_
  refine .read rfl (.read rfl (.ite (fun _ => ?_) fun _ => .read rfl (.read rfl (.ite ?_ ?_))))
  · refine Obeys.bind (constructorMember_gathers held isStart) fun member _ held => ?_
    exact .pure held
  · intro _
    refine Obeys.bind (compactConstructor_gathers held isStart) fun member _ held => ?_
    exact .pure held
  · exact fun _ => typedMembers_gathers held isStart

end Start

variable (self) in
theorem initializer_gathers (held : Gathered terms.scope before opening state [])
    (isStart : start = opening.span) :
    Gathers true terms env opening state (initializer self static start) Member.nodes := by
  cases isStart
  refine held.past fun body held => .pure ?_
  have whole := held.around .other rfl
  rw [body.span_node] at whole
  exact whole

instance {owner : String} {kind : BodyKind} :
    Readable true terms (bodyMembers self owner kind) Member.nodes := by
  refine .start fun {_ state} held =>
    .read rfl (.check (fun _ => initializer_gathers self held rfl) ?_)
  refine fun _ => .read rfl (.read rfl (.ite (fun follows => ?_) fun _ => ?_))
  · have isStatic := eq_of_beq (Bool.and_eq_true_iff.mp follows).1
    exact held.advance (isStatic ▸ nofun) fun _ held => initializer_gathers self held rfl
  refine held.past fun found held => ?_
  refine Obeys.bind (typeDeclaration?_obeys ⟨state.current.span, found.1, found.2⟩ held rfl) ?_
  rintro _ (_ | declaration) _ ⟨isSome, isNone⟩
  · cases isNone rfl
    exact otherMembers_gathers held rfl
  · exact .pure <| isSome declaration rfl

end Types

theorem memberTurn_obeys [self.Sound] {found : List Member}
    (held : Gathered terms.counting.scope false opening state (found.reverse.map Member.node)) :
    GathersTurn false false terms.counting env opening state
      (memberTurn self owner kind found) (·.reverse.map Member.node) (·.map Member.node) := by
  refine .read rfl (.read rfl (.ite (fun _ => .done held) fun isOther => ?_))
  have isNoEnd := State.ne_endOfInput isOther
  refine held.count isNoEnd (fun _ _ held => .done held) fun held => ?_
  refine held.accept nofun (fun passes held => ?_) fun _ => ?_
  · exact .pure ⟨passes.less, passes.less, held.forget⟩
  refine held.reads (Reads.recovering isNoEnd Readable.reads) fun {after} next new held => ?_
  have less := new.advanced rfl
  cases next with
  | none =>
    have listed := held.left
    exact .pure ⟨less, less, listed.forget⟩
  | some next =>
    have listed : Gathered terms.scope true opening after
        ((next.reverse ++ found).reverse.map Member.node) := by
      rw [reverse_append, reverse_reverse, map_append, ← Member.nodes_eq_map next]
      exact held
    exact .pure ⟨less, less, listed.forget⟩

instance members_reads [self.Sound] {owner : String} {kind : BodyKind} :
    Readable false terms.counting (members self owner kind) Member.nodes := by
  refine .start fun held => Reads.congr (fun members => (Member.nodes_eq_map members).symm) ?_
  exact held.loop (fun found => found.reverse.map Member.node)
    fun found state held => memberTurn_obeys held

end JavaFrontEnd.Grammar
