/-
Names, annotations, modifiers, types and patterns keep to the course of a parse, whatever the
parsers of the nonterminals are, as long as those do.
-/

import JavaFrontEnd.Proofs.Parsing.Combinators

namespace JavaFrontEnd.Grammar

open List

def SwitchParts.node (parts : SwitchParts) : Node :=
  (Statement.switch parts.selector parts.cases parts.keywordSpan parts.span).node

namespace Nonterminal

def nodes : (nonterminal : Nonterminal) → nonterminal.Result → List Node
  | .type, found => [found.node]
  | .annotationValue, span => [⟨.expression, false, span, []⟩]
  | .expression, found | .conditional, found | .operation _, found | .unary, found
  | .arrayInitializer, found => [Expression.node found]
  | .pattern, found => [found.node]
  | .block, found => [found.node]
  | .statement, found => [found.node]
  | .switch, found => [found.node]
  | .members _ _, found => Member.nodes found

/-- There may be no members in a body. -/
def moved : Nonterminal → Bool
  | .members _ _ => false
  | _ => true

end Nonterminal

/-- The parsers of the nonterminals keep to the course, on all terms on which parsers may fail.
The members of a body may use up all that their tokens pay for, since braces stand around them. -/
class Recursion.Sound (recursion : Recursion) : Prop where
  reads : ∀ (nonterminal : Nonterminal) {terms : Terms} [terms.Fallible] {env state},
    (nonterminal.moved = false → terms.counts = true) →
      Reads nonterminal.moved terms env state (recursion nonterminal) nonterminal.nodes

variable {terms : Terms} [terms.Fallible] {env : Environment} {state : State}
  {opening : Opening} {before : Bool} {gathered : List Node} {α β : Type} {self : Recursion}

/-! ### Parts that are read one level deeper -/

section Parts

variable [sound : self.Sound]
include sound

instance : Readable true terms self.writtenType fun type => [type.node.lowered] :=
  ⟨Reads.nested fun _ => sound.reads .type nofun⟩

instance : Readable true terms (nested (self .annotationValue))
    fun span => [(⟨.expression, false, span, []⟩ : Node).lowered] :=
  ⟨Reads.nested fun _ => sound.reads .annotationValue nofun⟩

instance : Readable true terms self.expression fun value => [value.node.lowered] :=
  ⟨Reads.nested fun _ => sound.reads .expression nofun⟩

instance : Readable true terms self.freeExpression fun value => [value.node.lowered] :=
  inferInstanceAs (Readable true terms (withLambdas true self.expression) _)

instance : Readable true terms (nested (self .conditional)) fun value => [value.node.lowered] :=
  ⟨Reads.nested fun _ => sound.reads .conditional nofun⟩

instance : Readable true terms self.operand fun value => [value.node.lowered] :=
  ⟨Reads.nested fun _ => sound.reads .unary nofun⟩

instance : Readable true terms (nested (self .pattern)) fun pattern => [pattern.node.lowered] :=
  ⟨Reads.nested fun _ => sound.reads .pattern nofun⟩

instance : Readable true terms self.arrayInitializer fun value => [value.node.lowered] :=
  ⟨Reads.nested fun _ => sound.reads .arrayInitializer nofun⟩

instance : Readable true terms self.statement fun statement => [statement.node.lowered] :=
  ⟨Reads.nested fun _ => sound.reads .statement nofun⟩

instance : Readable true terms self.block fun block => [block.node] :=
  ⟨sound.reads .block nofun⟩

instance : Readable true terms (self .switch) fun parts => [parts.node] :=
  ⟨sound.reads .switch nofun⟩

end Parts

variable {next : String × Span → Parser α} {goal : α → State → Prop}

/-! ### Parts that may be missing -/

instance : Optional (fun _ : α => []) fun _ => [] := ⟨rfl, fun _ => rfl⟩

instance : Optional (fun value => [Expression.node value]) Expression.optional :=
  ⟨rfl, fun _ => rfl⟩

instance : Optional (fun value => [(Expression.node value).lowered]) Expression.optionalLowered :=
  ⟨rfl, fun _ => rfl⟩

instance : Optional (fun type => [(WrittenType.node type).lowered]) WrittenType.optionalLowered :=
  ⟨rfl, fun _ => rfl⟩

instance : Optional (fun value => [(Statement.node value).lowered]) Statement.optionalLowered :=
  ⟨rfl, fun _ => rfl⟩

instance : Optional (fun block => [Block.node block]) Block.optional := ⟨rfl, fun _ => rfl⟩

instance : Optional (fun body => [ClassBody.node body]) ClassBody.optional := ⟨rfl, fun _ => rfl⟩

/-! ### Names -/

omit [terms.Fallible] in
theorem warnReserved_moves {token : Token} (knows : terms.scope.Knows token.span) :
    Moves false terms env state (warnReserved token) fun _ after => Aside state after := by
  refine .read rfl ?_
  split
  · exact report_moves knows rfl
  · exact .pure ⟨by simp, .refl state⟩

theorem identifier_obeys : Obeys (course terms) env state identifier
    fun name after => name.2 = state.current.span ∧ state.current.kind ≠ .endOfInput ∧
      Aside state.advance after := by
  refine .of_holds fun ready => .read rfl (.ite (fun isKind => ?_) fun _ => .ite (fun isKind => ?_)
    fun _ => reportMissing_fails)
  · refine advance_obeys.bind fun _ _ yields => ?_
    refine (warnReserved_moves ready.current).bind fun _ _ aside => .pure ?_
    exact ⟨rfl, isKind ▸ nofun, yields.2 ▸ aside.2⟩
  · refine advance_obeys.bind fun _ _ yields => ?_
    refine (violation_moves ready.current).bind fun _ _ aside => .pure ?_
    exact ⟨rfl, isKind ▸ nofun, yields.2 ▸ aside.2.1⟩

theorem identifier_andThen
    (second : ∀ {after} name,
      Gathered terms.scope true state.opening after [.name state.current.span] →
      Extends terms.scope true state after [.name state.current.span] →
        Obeys (course terms) env after (next (name, state.current.span)) goal) :
    Obeys (course terms) env state (identifier >>= next) goal := by
  refine .of_holds fun ready => identifier_obeys.bind ?_
  rintro after ⟨name, span⟩ leads ⟨rfl, isNoEnd, aside⟩
  refine .of_holds fun readyAfter => ?_
  have less : state.consumed < after.consumed := by
    rw [aside.consumed]
    exact (ready.jump isNoEnd).consumed_lt
  have new : Gathered terms.scope true state.opening after [.name state.current.span] :=
    ((Gathered.start ready).passed readyAfter leads rfl less).name
  exact second name new fun held => held.widen new (held.later readyAfter leads rfl fun _ => less)

theorem Gathered.names (held : Gathered terms.scope before opening state gathered)
    (second : ∀ {after} name, state.consumed < after.consumed →
      Gathered terms.scope true state.opening after [.name state.current.span] →
      Gathered terms.scope (true || before) opening after (gathered ++ [.name state.current.span]) →
          Obeys (course terms) env after (next (name, state.current.span)) goal) :
    Obeys (course terms) env state (identifier >>= next) goal :=
  identifier_andThen fun name new along => second name (new.advanced rfl) new (along held)

instance : Readable true terms identifier fun _ => [] := by
  refine ⟨fun ready => ?_⟩
  have outcome := identifier_obeys ready
  refine { outcome with yields := fun name isName => ?_ }
  obtain ⟨_, isNoEnd, aside⟩ := outcome.yields name isName
  refine (Gathered.start ready).passed outcome.holds outcome.leads rfl ?_
  rw [aside.consumed]
  exact (ready.jump isNoEnd).consumed_lt

instance : Readable true terms qualifiedName fun _ => [] := by
  refine .start fun held => held.names fun name _ _ held => ?_
  refine held.clear.loop (fun _ => []) fun name state held => ?_
  refine .read rfl (.ite (fun follows => ?_) fun _ => .pure held)
  have isDot := eq_of_beq (Bool.and_eq_true_iff.mp follows).1
  refine held.advance (isDot ▸ nofun) fun passes held => .turning passes.less ?_
  exact held.names fun part _ _ held => .pure held.clear

omit [terms.Fallible] in
instance : Movable false terms dimensions := by
  refine .start fun held => held.loop (fun _ => []) fun _ state held => ?_
  refine .read rfl (.read rfl (.ite (fun follows => ?_) fun _ => .pure held))
  have isBracket := eq_of_beq (Bool.and_eq_true_iff.mp follows).1
  refine held.advance (isBracket ▸ nofun) fun passes held => .turning passes.less ?_
  exact held.advanceAny fun held => .pure held.forget

/-! ### Annotations and modifiers -/

section Annotations

variable [self.Sound]

instance : Readable true terms (elementValue self) fun value => [value.node] := by
  refine .start fun held => .check (fun _ => ?_) fun _ => .check (fun _ => ?_) fun _ => ?_
  · refine Obeys.bind Readable.reads fun span _ held => ?_
    exact .pure <| Gathered.raised [⟨.expression, false, span, []⟩] held
  · exact Readable.reads.mono fun value _ held => Gathered.raised [value.node] held
  · exact Recursion.Sound.reads .conditional nofun

instance : Readable true terms (annotationArgument self) fun argument => [argument.node] := by
  refine .start fun held => .read rfl (.read rfl (.ite (fun _ => ?_) fun _ => ?_))
  · refine held.names fun name _ _ held => ?_
    refine held.clear.advanceAny fun held => ?_
    exact held.ending
  · exact held.ending

instance : Readable false terms (annotationArguments self)
    fun arguments => arguments.map AnnotationArgument.node := by
  refine .start fun held => held.accept nofun (fun _ held => ?_) fun _ => .pure held
  refine held.past fun arguments held => ?_
  exact held.expect nofun fun _ held => .pure held.forget

instance : Readable true terms (annotationParts self) fun parts =>
    parts.2.1.map AnnotationArgument.node ++ [⟨.annotationUse, false, parts.2.2, []⟩] := by
  refine .start fun held => held.expect nofun fun _ held => ?_
  refine held.needs fun held => ?_
  refine held.over fun name held => ?_
  refine held.past fun arguments held => ?_
  refine .read rfl (.pure ?_)
  exact held.appendAside (held.clear.enclosed rfl) (.inr rfl)

/-- An annotation has a node; its arguments are kept beside the tree. -/
instance : Readable true terms (annotationUse self) fun use => [use.node] := by
  refine ⟨Obeys.bind Readable.reads ?_⟩
  rintro after ⟨name, arguments, span⟩ - held
  have aside : Aside after { after with
      annotationArguments := after.annotationArguments.push arguments } :=
    ⟨rfl, rfl, rfl, rfl, rfl, rfl, rfl, rfl⟩
  refine .read rfl (.step rfl (fun ready => ?_) (fun _ => aside.course (suffix_refl _)) ?_)
  · refine aside.ready ready ready.listed (fun _ => .inl) ?_
    intro list isListed argument isArgument
    rw [Array.toList_push] at isListed
    rcases mem_append.mp isListed with isOld | isNew
    · exact .inl isOld
    · cases mem_singleton.mp isNew
      have isNode : argument.node ∈ arguments.map AnnotationArgument.node ++
          [⟨.annotationUse, false, span, []⟩] :=
        mem_append_left _ (mem_map_of_mem isArgument)
      exact .inr ⟨(held.fits _ isNode).mono (Nat.zero_le _),
        fun text isText => (held.region text isText).sound _ isNode⟩
  · refine .pure ?_
    exact (held.congr aside.tokens aside.previous aside.consumed).right

instance : Readable false terms (annotations self)
    fun annotations => annotations.map AnnotationUse.node := by
  refine .start fun held => held.loop
    (fun found => found.reverse.map AnnotationUse.node) fun found state held => ?_
  refine .read rfl (.ite (fun _ => ?_) fun _ => .pure held)
  refine held.reads Readable.reads fun next new held => ?_
  exact .turning (new.advanced rfl) (.again held.snoc.forget)

end Annotations

/-! ### Modifiers -/

theorem Token.ne_endOfInput_of_isWord {token : Token} (isWord : token.isWord word = true) :
    token.kind ≠ .endOfInput := by
  rw [eq_of_beq (Bool.and_eq_true_iff.mp isWord).1]
  nofun

theorem ne_endOfInput_of_modifierOf? (isModifier : modifierOf? kind = some found) :
    kind ≠ .endOfInput := by
  rintro rfl
  cases isModifier

theorem ne_endOfInput_of_sealedFollows (follows : Lookahead.sealedFollows state.tokens = true) :
    state.current.kind ≠ .endOfInput := by
  unfold State.tokens at follows
  cases isFollowing : state.following with
  | nil =>
    rw [isFollowing] at follows
    cases follows
  | cons next rest =>
    rw [isFollowing] at follows
    exact Token.ne_endOfInput_of_isWord (Bool.and_eq_true_iff.mp follows).1

theorem ne_endOfInput_of_nonSealedFollows
    (follows : Lookahead.nonSealedFollows state.tokens = true) :
    state.current.kind ≠ .endOfInput := by
  unfold State.tokens Lookahead.nonSealedFollows at follows
  split at follows
  next isTokens =>
    rw [(cons.inj isTokens).1]
    simp only [Bool.and_eq_true] at follows
    exact Token.ne_endOfInput_of_isWord follows.1.1.1.1
  next => cases follows

omit [terms.Fallible] in
theorem modifier_moves : Moves false terms env state modifier
    fun found _ => found.isSome = true → state.current.kind ≠ .endOfInput := by
  refine .of_holds fun ready => .read rfl ?_
  split
  next isModifier =>
    exact .read rfl (.ite (fun _ => .pure ⟨by simp, by simp⟩)
      fun _ => .pure ⟨by simp, fun _ => ne_endOfInput_of_modifierOf? isModifier⟩)
  next isModifier =>
    exact .read rfl (.read rfl (.ite (fun _ => .pure ⟨by simp, by simp⟩)
      fun _ => .pure ⟨by simp, fun _ => ne_endOfInput_of_modifierOf? isModifier⟩))
  next isModifier =>
    exact .pure ⟨by simp, fun _ => ne_endOfInput_of_modifierOf? isModifier⟩
  next =>
    refine .read rfl (.ite (fun follows => ?_) fun _ => .read rfl (.ite (fun follows => ?_) ?_))
    · refine (needFeature_moves ready.current).bind fun _ _ _ => .pure ?_
      exact ⟨by simp, fun _ => ne_endOfInput_of_sealedFollows follows⟩
    · refine advance_obeys.bind fun _ _ _ => advance_obeys.bind fun _ _ _ => ?_
      refine .of_holds fun readyAfter => .read rfl ?_
      refine (needFeature_moves (ready.current.cover readyAfter.current)).bind fun _ _ _ => .pure ?_
      exact ⟨by simp, fun _ => ne_endOfInput_of_nonSealedFollows follows⟩
    · exact fun _ => .pure ⟨by simp, by simp⟩

section Modifiers

variable [self.Sound]

instance : Readable false terms (modifiers self) fun found => found.2.map AnnotationUse.node := by
  refine .start fun held => held.loop
    (fun found => found.2.reverse.map AnnotationUse.node) fun found state held => ?_
  refine .read rfl (.ite (fun _ => ?_) fun _ => ?_)
  · refine held.reads Readable.reads fun next new held => ?_
    exact .turning (new.advanced rfl) (.again held.snoc.forget)
  refine modifier_moves.bind fun {after} next leads yields => .of_holds fun ready => ?_
  have held := held.kept ready leads rfl
  cases next with
  | none => exact .done held
  | some next =>
    -- the last token of a modifier is still under the cursor
    rcases Nat.lt_or_ge state.consumed after.consumed with less | unmoved
    · exact .turning less (held.advanceAny fun held => .again held)
    · have isNoEnd : after.current.kind ≠ .endOfInput :=
        leads.awake (Nat.le_antisymm unmoved leads.forward) (yields.2 rfl)
      refine held.advance isNoEnd fun passes held => ?_
      exact .turning (Nat.lt_of_le_of_lt leads.forward passes.less) (.again held.forget)

end Modifiers

variable {left : TokenKind × String}

/-! ### Types -/

theorem ne_endOfInput_of_isPrimitiveType {kind : TokenKind}
    (isPrimitive : kind.isPrimitiveType = true) : kind ≠ .endOfInput := by
  rintro rfl
  cases isPrimitive

theorem afterAngle?_eq_some (isLeft : afterAngle? kind = some left) :
    kind ≠ .endOfInput ∧ left.1 ≠ .endOfInput ∧ left.2.toList ≠ [] ∧
      ∀ rest, afterAngle? left.1 = some rest → left.2.toList = '>' :: rest.2.toList := by
  unfold afterAngle? at isLeft
  split at isLeft <;> cases isLeft
  all_goals
    refine ⟨nofun, nofun, nofun, fun rest isRest => ?_⟩
    cases isRest <;> rfl

theorem Stands.afterAngle (stands : Stands text token)
    (isLeft : afterAngle? token.kind = some left) :
    Stands text { token with
      kind := left.1, lexeme := left.2,
      span := ⟨⟨token.span.start.line, token.span.start.column + 1, token.span.start.offset + 1⟩,
        token.span.stop⟩ } := by
  obtain ⟨before, after, isText, isSpan⟩ := stands.cut
  rw [stands.angle left isLeft] at isText isSpan
  obtain ⟨_, _, isSolid, angle⟩ := afterAngle?_eq_some isLeft
  refine ⟨⟨before ++ ['>'], after, ?_, ?_⟩, angle, fun _ => isSolid⟩
  · simpa using isText
  · have moved : Location.after (before ++ ['>']) =
        ⟨(Location.after before).line, (Location.after before).column + 1,
          (Location.after before).offset + 1⟩ := by
      rw [← Location.advance_after]
      rfl
    rw [moved, isSpan, append_assoc]
    rfl

omit [terms.Fallible] in
theorem Ready.afterAngle (ready : Ready terms.scope env state)
    (isLeft : afterAngle? state.current.kind = some left)
    (isToken : token = { state.current with kind := left.1, lexeme := left.2, span :=
      ⟨⟨state.current.span.start.line, state.current.span.start.column + 1,
      state.current.span.start.offset + 1⟩, state.current.span.stop⟩ }) :
    Ready terms.scope env { state with current := token } ∧
      Course terms env state { state with current := token } := by
  obtain ⟨isNoEnd, isNoEndThen, _⟩ := afterAngle?_eq_some isLeft
  have front : state.front ≤ token.span.start.offset := by
    rw [isToken]
    exact Nat.le_succ _
  have stops : token.span.stop = state.current.span.stop := by
    rw [isToken]
  have reach : state.reach ≤ token.span.stop.offset := stops ▸ Nat.le_refl _
  -- a token that is no end mark has a next one
  obtain ⟨_, following, previous, _, _, _, _, _, _, _, _, _, _, _⟩ := state
  obtain _ | ⟨next, rest⟩ := following
  · exact absurd (Option.some.inj ready.ended) isNoEnd
  constructor
  · refine { ready with ended := ready.ended, located := fun text isText => ?_ }
    have located := ready.located text isText
    refine { located with
      stand := ?_, ordered := ?_, inner := ?_, previous := fun last isLast => ?_ }
    · rintro other (_ | ⟨_, isLater⟩)
      · rw [isToken]
        exact (located.stand _ mem_cons_self).afterAngle isLeft
      · exact located.stand other (mem_cons_of_mem _ isLater)
    · obtain ⟨order, later⟩ := isChain_cons_cons.mp located.ordered
      exact isChain_cons_cons.mpr ⟨stops ▸ order, later⟩
    · refine forall_mem_cons.mpr ⟨?_, (forall_mem_cons.mp located.inner).2⟩
      rwa [isToken]
    · obtain ⟨isTrue, order⟩ := located.previous last isLast
      exact ⟨isTrue, Nat.le_trans order front⟩
  · have kind : token.kind = left.1 := by
      rw [isToken]
    refine { Course.refl terms env _ with awake := ?_, onward := fun text isText => ?_ }
    · intro _ _
      rwa [kind]
    · refine
        { front, reach, lastFront := ?_, lastReach := ?_, begun := id,
          ahead := fun less => absurd less (Nat.lt_irrefl _)
          passed := fun less => absurd less (Nat.lt_irrefl _) }
      · cases previous with
        | none => exact front
        | some last => exact Nat.le_refl _
      · cases previous with
        | none => exact reach
        | some last => exact Nat.le_refl _

instance : Movable false terms closeAngle := by
  refine ⟨.of_holds fun ready => .read rfl (.ite (fun isAngle => ?_) fun _ => ?_)⟩
  · exact advance_obeys.bind fun _ _ _ => .pure ⟨nofun, trivial⟩
  split
  next isLeft =>
    obtain ⟨readyThen, course⟩ := ready.afterAngle isLeft rfl
    exact .of_eq_some rfl (fun _ => readyThen) (fun _ => course) fun _ => ⟨nofun, trivial⟩
  next => exact reportMissing_fails

section Types

variable [self.Sound]

instance : Readable true terms (typeArgument self) fun argument => [argument.node] := by
  refine .start fun held => held.over fun _ held => ?_
  refine held.tail <| .start fun held => .check (fun isQuestion => ?_) fun _ => ?_
  · refine held.advance (isQuestion ▸ nofun) fun _ held => ?_
    refine held.accept nofun (fun _ held => ?_) fun _ => ?_
    · exact held.closing
    refine held.accept nofun (fun _ held => ?_) fun _ => held.close
    exact held.closing
  · exact held.ending

instance : Listed (fun argument => [TypeArgument.node argument]) TypeArgument.nodes :=
  ⟨fun arguments => (TypeArgument.nodes_eq_map arguments).trans map_eq_flatMap⟩

instance : Readable true terms (typeArguments self) fun found => TypeArgument.nodes found.1 := by
  refine .start fun held => held.expect nofun fun _ held => ?_
  refine held.needs fun held => ?_
  refine held.accept nofun (fun _ held => .pure held) fun _ => ?_
  refine held.past fun arguments held => ?_
  exact held.ended

theorem laterArguments_gathers {found : List TypeArgument × Bool}
    (held : Gathered terms.scope true opening state (TypeArgument.nodes found.1)) :
    Gathers true terms env opening state (laterArguments self found)
      fun found => TypeArgument.nodes found.1 :=
  .check (fun _ => held.clear.tail Readable.reads) fun _ => .pure held

instance : Readable true terms (className self) fun found => TypeArgument.nodes found.2.1 := by
  refine .start fun held => held.names fun _ _ _ held => ?_
  refine held.clear.loop (fun found => TypeArgument.nodes found.2.1) fun found state held => ?_
  refine (laterArguments_gathers held).bind fun arguments leads held => ?_
  refine .read rfl (.ite (fun follows => ?_) fun _ => .pure held)
  have isDot := eq_of_beq (Bool.and_eq_true_iff.mp follows).1
  refine held.advance (isDot ▸ nofun) fun passes held => ?_
  refine .turning (Nat.lt_of_le_of_lt leads.forward passes.less) ?_
  exact held.names fun part _ _ held => .again held.left

instance : Readable true terms (typeName self) fun found => TypeArgument.nodes found.2.1 := by
  refine .start fun held => .read rfl (.ite (fun isPrimitive => ?_) fun _ => Readable.reads)
  refine held.advance (ne_endOfInput_of_isPrimitiveType isPrimitive) fun _ held => ?_
  exact .pure held

instance writtenType_reads : Readable true terms (writtenType self) fun type => [type.node] := by
  refine .start fun held => held.past fun annotations held => ?_
  refine .read rfl (.of_holds fun ready => ?_)
  refine Readable.reads.andThen fun parts inner along => ?_
  refine Movable.moves.andThen fun dimensions _ along' => .read rfl (.pure ?_)
  refine (along' (along held)).enclosedAfter .other (along' inner)
    (fun text isText => (held.region text isText).front) ?_ rfl
  exact forall_mem_map.mpr fun use _ => rfl

instance : Readable true terms (typeList self) WrittenType.lowered :=
  inferInstanceAs (Readable true terms (commaSeparated self.writtenType) _)

theorem typesAfter_reads (isNoEnd : word ≠ .endOfInput) :
    Reads false terms env state (typesAfter self word) WrittenType.lowered := by
  refine .start fun held => held.accept isNoEnd (fun _ held => ?_) fun _ => .pure held
  exact (held.tail Readable.reads).mono fun _ _ held => held.forget

instance : Readable false terms (furtherBounds self) WrittenType.lowered := by
  refine .start fun held => held.loop
    (fun bounds => bounds.reverse.map fun type => type.node.lowered)
    fun bounds state held => ?_
  refine held.accept nofun (fun passes held => ?_) fun _ => .pure held
  refine held.reads Readable.reads fun next new held => ?_
  exact .turning (Nat.lt_of_lt_of_le passes.less new.since) (.again held.snoc.forget)

instance : Readable false terms (typeBounds self) WrittenType.lowered := by
  refine .start fun held => held.accept nofun (fun _ held => ?_) fun _ => .pure held
  refine held.past fun first held => ?_
  refine held.past fun further held => ?_
  exact .pure held.forget

instance : Readable true terms (typeParameter self) fun parameter => [parameter.node] := by
  refine .start fun held => held.over fun _ held => ?_
  refine held.tail <| .start fun held => held.names fun name _ _ held => ?_
  refine held.clear.past fun bounds held => ?_
  exact held.close

instance : Readable false terms (typeParameters self)
    fun parameters => parameters.map TypeParameter.node := by
  refine .start fun held => .check (fun isLess => ?_) fun _ => .pure held
  refine held.advance (isLess ▸ nofun) fun _ held => ?_
  refine held.needs fun held => ?_
  refine held.past fun parameters held => ?_
  refine held.over fun _ held => ?_
  exact .pure held.forget

instance : Readable false terms (permittedTypes self) WrittenType.lowered := by
  refine .start fun held => .read rfl (.ite (fun isWord => ?_) fun _ => .pure held)
  refine held.advance (Token.ne_endOfInput_of_isWord isWord) fun _ held => ?_
  refine held.needs fun held => ?_
  exact (held.tail Readable.reads).mono fun _ _ held => held.forget

end Types

/-! ### Parameters and patterns -/

omit [terms.Fallible] in
instance : Movable false terms variadicMark := by
  refine ⟨.of_holds fun ready => .check (fun _ => ?_) fun _ => .pure ⟨nofun, trivial⟩⟩
  refine advance_obeys.bind fun token _ yields => ?_
  obtain ⟨rfl, rfl⟩ := yields
  exact (needFeature_moves ready.current).bind fun _ _ _ => .pure ⟨nofun, trivial⟩

section Parameters

variable [self.Sound]

instance : Readable true terms (formalParameter self)
    fun parameter => parameter.toList.map Parameter.node := by
  refine .start fun held => .read rfl ?_
  refine held.past fun found held => ?_
  refine held.past fun type held => ?_
  refine held.over fun variadic held => ?_
  refine held.accept nofun (fun _ held => .pure held.clear) fun _ => ?_
  refine held.names fun name _ _ held => ?_
  refine held.over fun extra held => ?_
  cases type
  exact held.close

instance : Listed (fun parameter : Option Parameter => parameter.toList.map Parameter.node)
    fun parameters => (parameters.filterMap id).map Parameter.node where
  eq_flatMap parameters := by
    rw [filterMap_eq_flatMap_toList, map_flatMap]
    rfl

instance : Readable true terms (formalParameters self)
    fun parameters => parameters.map Parameter.node := by
  refine .start fun held => held.expect nofun fun _ held => ?_
  refine held.accept nofun (fun _ held => .pure held) fun _ => ?_
  refine held.past fun parameters held => ?_
  exact held.ended

instance : Listed (fun pattern => [(Pattern.node pattern).lowered]) Pattern.lowered :=
  ⟨fun patterns => (Pattern.lowered_eq_map patterns).trans map_eq_flatMap⟩

instance pattern_reads : Readable true terms (pattern self) fun pattern => [pattern.node] := by
  refine .start fun held => .read rfl ?_
  refine held.over fun found held => ?_
  refine held.past fun type held => ?_
  refine .check (fun isParen => ?_) fun _ => ?_
  · refine .of_holds fun ready => ?_
    refine held.advance (isParen ▸ nofun) fun _ held => ?_
    refine held.moves (needFeature_moves (held.knows.cover ready.current)) fun _ _ held => ?_
    refine held.past fun components held => ?_
    exact held.expect nofun fun _ held => held.close
  · exact held.names fun name _ new _ => .pure <| held.upTo _ new rfl

end Parameters

end JavaFrontEnd.Grammar
