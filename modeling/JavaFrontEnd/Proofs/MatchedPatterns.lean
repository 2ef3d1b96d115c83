/-
The pattern variables that a condition leaves behind. A condition is evaluated from left to right
and no further than its outcome is known; a pattern may match or not, and of all other expressions
nothing is known. The variables that are kept for an outcome are those of the patterns which have
matched whenever the condition comes out so, if casts pass outcomes on; otherwise those behind casts
are kept although nothing is known about them (`Expression.matched_of_certain`).
-/

import JavaFrontEnd.Proofs.Resolution.Walk

namespace JavaFrontEnd

def TypePattern.isNamed (pattern : TypePattern) : Bool :=
  pattern.name != "_"

/-- The variables with a name that have a value once a pattern has matched. -/
def Pattern.variables (pattern : Pattern) : List TypePattern :=
  pattern.bindings.filter TypePattern.isNamed

namespace Expression

/-- The form of the expression says how its outcome is found. -/
def isCondition : Expression → Bool
  | .binary .logicalAnd .. | .binary .logicalOr .. | .unary .not .. | .conditional .. => true
  | .parenthesized .. | .cast .. | .instanceOfPattern .. => true
  | _ => false

/-- An expression may come out as true or false, after patterns with some variables have matched
in it. Casts pass the outcome of their operand on, or nothing is known about them. -/
inductive Evaluates (passesCasts : Bool) : Expression → Bool → List TypePattern → Prop
  | andFalse {span} (isFalse : Evaluates passesCasts left false matched) :
    Evaluates passesCasts (.binary .logicalAnd left right span) false matched
  | andTrue {span} (isTrue : Evaluates passesCasts left true matched)
      (isRight : Evaluates passesCasts right outcome more) :
    Evaluates passesCasts (.binary .logicalAnd left right span) outcome (matched ++ more)
  | orTrue {span} (isTrue : Evaluates passesCasts left true matched) :
    Evaluates passesCasts (.binary .logicalOr left right span) true matched
  | orFalse {span} (isFalse : Evaluates passesCasts left false matched)
    (isRight : Evaluates passesCasts right outcome more) :
    Evaluates passesCasts (.binary .logicalOr left right span) outcome (matched ++ more)
  | not {span} (isOperand : Evaluates passesCasts operand outcome matched) :
    Evaluates passesCasts (.unary .not operand span) (!outcome) matched
  | conditional {span} (isAnswer : Evaluates passesCasts condition answer matched)
    (isBranch : Evaluates passesCasts (if answer then yes else no) outcome more) :
    Evaluates passesCasts (.conditional condition yes no span) outcome (matched ++ more)
  | parenthesized {span} (isOperand : Evaluates passesCasts operand outcome matched) :
    Evaluates passesCasts (.parenthesized operand span) outcome matched
  | cast {type span} (passes : passesCasts = true)
    (isOperand : Evaluates passesCasts operand outcome matched) :
    Evaluates passesCasts (.cast type bounds operand span) outcome matched
  | unknownCast {type span} (isUnknown : passesCasts = false) :
    Evaluates passesCasts (.cast type bounds operand span) outcome []
  | fits {span} :
    Evaluates passesCasts (.instanceOfPattern operand pattern span) true pattern.variables
  | fails {span} : Evaluates passesCasts (.instanceOfPattern operand pattern span) false []
  | other {expression} (isOther : isCondition expression = false) :
    Evaluates passesCasts expression outcome []

/-- The variables of the patterns that must have matched if an expression comes out as it does. -/
def certain : Expression → Bool → List TypePattern
  | .binary .logicalAnd left right _, true => left.certain true ++ right.certain true
  | .binary .logicalOr left right _, false => left.certain false ++ right.certain false
  | .unary .not operand _, outcome => operand.certain !outcome
  | .parenthesized inner _, outcome | .cast _ _ inner _, outcome => inner.certain outcome
  | .instanceOfPattern _ pattern _, true => pattern.variables
  | _, _ => []

theorem certain_of_not_isCondition {expression : Expression}
    (isOther : expression.isCondition = false) (outcome : Bool) :
    expression.certain outcome = [] := by
  unfold certain
  split <;> first | rfl | cases isOther

/-- Those of the variables that are kept for an outcome whose patterns stand behind a cast. -/
def behindCasts : Expression → Bool → List TypePattern
  | .binary .logicalAnd left right _, true => left.behindCasts true ++ right.behindCasts true
  | .binary .logicalOr left right _, false => left.behindCasts false ++ right.behindCasts false
  | .unary .not operand _, outcome => operand.behindCasts !outcome
  | .parenthesized inner _, outcome => inner.behindCasts outcome
  | .cast _ _ inner _, outcome => inner.certain outcome
  | _, _ => []

theorem matched_of_either {passesCasts : Bool}
    {kept more matched matchedToo behind behindToo : List TypePattern}
    (first : ∀ pattern ∈ kept, pattern ∈ matched ∨ passesCasts = false ∧ pattern ∈ behind)
    (second : ∀ pattern ∈ more, pattern ∈ matchedToo ∨ passesCasts = false ∧ pattern ∈ behindToo) :
    ∀ pattern ∈ kept ++ more, pattern ∈ matched ++ matchedToo ∨
      passesCasts = false ∧ pattern ∈ behind ++ behindToo := by
  intro pattern isKept
  simp only [List.mem_append] at isKept ⊢
  rcases isKept with isKept | isKept
  · rcases first pattern isKept with isMatched | ⟨isUnknown, isBehind⟩
    · exact .inl (.inl isMatched)
    · exact .inr ⟨isUnknown, .inl isBehind⟩
  · rcases second pattern isKept with isMatched | ⟨isUnknown, isBehind⟩
    · exact .inl (.inr isMatched)
    · exact .inr ⟨isUnknown, .inr isBehind⟩

/-- In every evaluation with an outcome the patterns have matched whose variables are kept for it,
apart from those behind casts about which nothing is known. -/
theorem matched_of_certain {passesCasts : Bool} {expression : Expression} {outcome : Bool}
    {matched : List TypePattern} (evaluates : Evaluates passesCasts expression outcome matched) :
    ∀ pattern ∈ expression.certain outcome,
      pattern ∈ matched ∨ passesCasts = false ∧ pattern ∈ expression.behindCasts outcome := by
  induction evaluates with
  | andFalse | orTrue | conditional | fails => exact fun _ isKept => absurd isKept List.not_mem_nil
  | @andTrue _ _ _ outcome _ _ _ _ inLeft inRight =>
    intro pattern isKept
    cases outcome with
    | false => exact absurd isKept List.not_mem_nil
    | true => exact matched_of_either inLeft inRight pattern isKept
  | @orFalse _ _ _ outcome _ _ _ _ inLeft inRight =>
    intro pattern isKept
    cases outcome with
    | false => exact matched_of_either inLeft inRight pattern isKept
    | true => exact absurd isKept List.not_mem_nil
  | @not _ outcome _ _ _ inOperand =>
    show ∀ pattern ∈ certain _ (! !outcome), pattern ∈ _ ∨ _ ∧ pattern ∈ behindCasts _ (! !outcome)
    rwa [Bool.not_not]
  | parenthesized _ inInner => exact inInner
  | cast passes _ inInner =>
    intro pattern isKept
    rcases inInner pattern isKept with isMatched | ⟨isUnknown, -⟩
    · exact .inl isMatched
    · exact absurd (passes.symm.trans isUnknown) (by decide)
  | unknownCast isUnknown => exact fun _ isKept => .inr ⟨isUnknown, isKept⟩
  | fits => exact fun _ isKept => .inl isKept
  | other isOther =>
    rw [certain_of_not_isCondition isOther]
    exact fun _ isKept => absurd isKept List.not_mem_nil

end Expression

def PatternFlow.when (flow : PatternFlow) : Bool → List SymbolId
  | true => flow.whenTrue
  | false => flow.whenFalse

def Bindings.DeclaresAs (bindings : Bindings) (pattern : TypePattern) (symbol : SymbolId) : Prop :=
  bindings.Declares symbol fun name offset =>
    name = pattern.name ∧ offset = pattern.nameSpan.start.offset

namespace Binder

open Bindings (Keeps)
open List (Forall₂)

section Steps

variable {α β γ : Type} {place : Place} {step : Binder α} {next : α → Binder β}
  {kept : α → List SymbolId} {keptLater : β → List SymbolId} {declared more : List TypePattern}

/-- The symbols that a step keeps are those of pattern variables with some declarations. -/
def Yields (kept : α → List SymbolId) (step : Binder α) (declared : List TypePattern) : Prop :=
  ∀ state, Forall₂ (step.run state).2.bindings.DeclaresAs declared (kept (step.run state).1)

theorem Yields.past (second : ∀ value, Yields keptLater (next value) declared) :
    Yields keptLater (step >>= next) declared :=
  fun _ => second _ _

theorem Yields.both {result : α → β → γ} {keptBoth : γ → List SymbolId}
    (first : Yields kept step declared) (second : ∀ value, Yields keptLater (next value) more)
    (keeps : ∀ value state, Keeps state.bindings ((next value).run state).2.bindings)
    (isResult : ∀ value later, keptBoth (result value later) = kept value ++ keptLater later) :
    Yields keptBoth (do
      let value ← step
      let later ← next value
      return result value later) (declared ++ more) := by
  intro state
  have inFirst := (first state).imp fun _ symbol => keeps (step.run state).1 _ symbol _
  exact isResult _ _ ▸ List.rel_append inFirst (second _ _)

theorem exists_withSymbols (place : Place) (symbols : List SymbolId) (inside : Place → Binder α)
    (state : BinderState) : ∃ inner before, before.bindings.symbols = state.bindings.symbols ∧
      ((withSymbols place symbols inside).run state).1 = ((inside inner).run before).1 ∧
      ((withSymbols place symbols inside).run state).2.bindings =
        ((inside inner).run before).2.bindings := by
  unfold withSymbols
  split
  · exact ⟨place, state, rfl, rfl, rfl⟩
  · let inner := { place with scope := state.bindings.tree.size }
    let pushed := { state with bindings.tree := state.bindings.tree.push .block (some place.scope) }
    exact ⟨inner, ((bindSymbols inner symbols).run pushed).2, rfl, rfl, rfl⟩

theorem Yields.withSymbols {inside : Place → Binder α}
    (yields : ∀ inner, Yields kept (inside inner) declared) (symbols : List SymbolId) :
    Yields kept (withSymbols place symbols inside) declared := by
  intro state
  obtain ⟨inner, before, _, sameResult, sameBindings⟩ :=
    exists_withSymbols place symbols inside state
  rw [sameResult, sameBindings]
  exact yields inner before

end Steps

variable {context : UnitContext}

theorem keeps_bindExpression (expression : Expression) (place : Place) (position : Position)
    (state : BinderState) : Keeps state.bindings
      ((bindExpression context place position expression).run state).2.bindings := by
  let unit : CompilationUnit := ⟨none, [], [], .point .start, #[]⟩
  let walks : Comparison :=
    { context, unit, loose := Visit.ofExpression expression, sole := fun _ => True }
  have covers := @covers_expression walks ⟨"", unit, "", [], []⟩ place position expression
  exact (covers (List.Subset.refl _)).opens.keeps state

theorem keeps_guarded (operand : Expression) (place : Place) (symbols : List SymbolId)
    (state : BinderState) : Keeps state.bindings ((withSymbols place symbols fun inner =>
      bindExpression context inner .value operand).run state).2.bindings := by
  obtain ⟨inner, before, sameSymbols, _, sameBindings⟩ := exists_withSymbols place symbols
    (fun inner => bindExpression context inner .value operand) state
  rw [sameBindings]
  exact fun symbol test declares => keeps_bindExpression operand inner .value before symbol test
    (Keeps.of_symbols_eq sameSymbols symbol test declares)

theorem yields_declarePattern (place : Place) (pattern : TypePattern) (type : Ty) :
    Yields id (declarePattern place type pattern.modifiers pattern.name pattern.nameSpan)
      ([pattern].filter TypePattern.isNamed) := by
  intro state
  rw [List.filter_singleton, TypePattern.isNamed]
  unfold declarePattern
  by_cases isBlank : pattern.name = "_"
  · rw [isBlank]
    exact .nil
  · rw [if_neg isBlank, bne_iff_ne.mpr isBlank]
    have yields (symbol : Symbol) (isName : symbol.name = pattern.name)
        (isSpan : symbol.span = pattern.nameSpan) :
        Yields id (do return [← addSymbol symbol]) [pattern] := fun _ =>
      .cons ⟨symbol, Array.getElem?_push_size, isName, congrArg (·.start.offset) isSpan⟩ .nil
    show Forall₂ (StateT.run (ite _ _ _ : Binder (List SymbolId)) state).2.bindings.DeclaresAs _
      (StateT.run (ite _ _ _ : Binder (List SymbolId)) state).1
    split <;> exact yields _ rfl rfl _

mutual

theorem yields_bindPattern (place : Place) : ∀ pattern : Pattern,
    Yields id (bindPattern context place pattern) pattern.variables
  | .type pattern => .past fun _ => yields_declarePattern place pattern _
  | .record _ components _ => .past fun _ => yields_bindPatterns place components

theorem yields_bindPatterns (place : Place) : ∀ patterns : List Pattern,
    Yields id (bindPatterns context place patterns)
      ((Pattern.bindingsOfAll patterns).filter TypePattern.isNamed)
  | [] => fun _ => .nil
  | pattern :: rest => by
    rw [Pattern.bindingsOfAll, List.filter_append]
    exact .both (yields_bindPattern place pattern) (fun _ => yields_bindPatterns place rest)
      (fun _ => (quiet_bindPatterns context place rest).keeps) fun _ _ => rfl

end

theorem flow_of_not_isCondition {expression : Expression}
    (isOther : expression.isCondition = false) (place : Place) (position : Position)
    (state : BinderState) :
    ((bindExpression context place position expression).run state).1.flow = {} := by
  cases expression with
  | binary operator | unary operator => cases operator <;> first | rfl | cases isOther
  | field target =>
    cases target with
    | this qualifier => cases qualifier <;> rfl
    | _ => rfl
  | create outer => cases outer <;> rfl
  | conditional | parenthesized | cast | instanceOfPattern => cases isOther
  | _ => rfl

theorem yields_bindExpression (expression : Expression) (place : Place) (position : Position)
    (outcome : Bool) : Yields (·.flow.when outcome)
      (bindExpression context place position expression) (expression.certain outcome) := by
  cases isForm : expression.isCondition with
  | false =>
    intro state
    dsimp only
    rw [flow_of_not_isCondition isForm, Expression.certain_of_not_isCondition isForm]
    cases outcome <;> exact .nil
  | true =>
    cases expression with
    | parenthesized inner => exact yields_bindExpression inner place _ outcome
    | cast _ _ operand => exact fun _ => yields_bindExpression operand place .value outcome _
    | conditional => cases outcome <;> exact fun _ => .nil
    | instanceOfPattern operand pattern =>
      cases outcome with
      | true => exact fun _ => yields_bindPattern place pattern _
      | false => exact fun _ => .nil
    | unary operator operand =>
      cases operator with
      | not => cases outcome <;> exact yields_bindExpression operand place .value _
      | _ => cases isForm
    | binary operator left right =>
      have inLeft := yields_bindExpression left place .value outcome
      have inRight (symbols : List SymbolId) : Yields _ (withSymbols place symbols _) _ :=
        .withSymbols (fun inner => yields_bindExpression right inner .value outcome) symbols
      cases operator with
      | logicalAnd =>
        cases outcome with
        | true =>
          exact inLeft.both (fun _ => inRight _) (fun _ => keeps_guarded right place _)
            fun _ _ => rfl
        | false => exact fun _ => .nil
      | logicalOr =>
        cases outcome with
        | true => exact fun _ => .nil
        | false =>
          exact inLeft.both (fun _ => inRight _) (fun _ => keeps_guarded right place _)
            fun _ _ => rfl
      | _ => cases isForm
    | _ => cases isForm
termination_by structural expression

/-- An operand is evaluated only after a condition has come out so. -/
inductive Guards : Expression → Expression → Bool → Expression → Prop
  | and {span} : Guards (.binary .logicalAnd left right span) left true right
  | or {span} : Guards (.binary .logicalOr left right span) left false right
  | yes {span} : Guards (.conditional condition yes no span) condition true yes
  | no {span} : Guards (.conditional condition yes no span) condition false no

/-- Every variable that a step keeps for an outcome is that of a pattern which has matched or which
stands behind a cast about which nothing is known. -/
def KeepsMatched (step : Binder BoundExpression) (state : BinderState) (passesCasts : Bool)
    (expression : Expression) (outcome : Bool) (matched : List TypePattern) : Prop :=
  ∀ symbol ∈ (step.run state).1.flow.when outcome,
    ∃ pattern, (step.run state).2.bindings.DeclaresAs pattern symbol ∧
      (pattern ∈ matched ∨ passesCasts = false ∧ pattern ∈ expression.behindCasts outcome)

theorem keepsMatched_bindExpression {expression : Expression} (place : Place) (position : Position)
    (state : BinderState) {passesCasts outcome : Bool} {matched : List TypePattern}
    (evaluates : expression.Evaluates passesCasts outcome matched) :
    KeepsMatched (bindExpression context place position expression) state passesCasts expression
      outcome matched := by
  intro symbol isKept
  have yields := @yields_bindExpression context expression place position outcome state
  obtain ⟨⟨index, isIndex⟩, rfl⟩ := List.mem_iff_get.mp isKept
  exact ⟨_, yields.get (yields.length_eq ▸ isIndex) isIndex,
    Expression.matched_of_certain evaluates _ (List.get_mem ..)⟩

/-- The variables that an expression keeps for an outcome are those of the patterns that must have
matched if casts pass outcomes on, in every evaluation with that outcome they have been matched
apart from those behind casts, and an operand that is evaluated after a condition sees only such
variables of it. -/
theorem bindExpression_matched (context : UnitContext) (place : Place) (position : Position)
    (state : BinderState) (expression : Expression) :
    (∀ outcome, Forall₂
      ((bindExpression context place position expression).run state).2.bindings.DeclaresAs
      (expression.certain outcome)
      (((bindExpression context place position expression).run state).1.flow.when outcome)) ∧
    (∀ passesCasts outcome matched, expression.Evaluates passesCasts outcome matched →
      KeepsMatched (bindExpression context place position expression) state passesCasts expression
        outcome matched) ∧
    ∀ condition outcome operand, Guards expression condition outcome operand →
      (∀ passesCasts matched, condition.Evaluates passesCasts outcome matched →
        KeepsMatched (bindExpression context place .value condition) state passesCasts condition
          outcome matched) ∧
      ∃ (earlier : BoundExpression → Binder BoundExpression)
        (rest : BoundExpression → BoundExpression → Binder BoundExpression),
        bindExpression context place position expression = (do
          let bound ← bindExpression context place .value condition
          let _ ← earlier bound
          let result ← withSymbols place (bound.flow.when outcome) fun inner =>
            bindExpression context inner .value operand
          rest bound result) := by
  refine ⟨fun outcome => yields_bindExpression expression place position outcome state,
    fun _ _ _ => keepsMatched_bindExpression place position state, fun condition outcome operand
    guards => ⟨fun _ _ => keepsMatched_bindExpression place .value state, ?_⟩⟩
  let inside (operand : Expression) (inner : Place) := bindExpression context inner .value operand
  cases guards with
  | and =>
    exact ⟨fun _ => pure {}, fun left right => pure { flow := left.flow.and right.flow }, rfl⟩
  | or =>
    exact ⟨fun _ => pure {}, fun left right => pure { flow := left.flow.or right.flow }, rfl⟩
  | @yes _ _ no =>
    exact ⟨fun _ => pure {}, fun bound _ => do
      let _ ← withSymbols place bound.flow.whenFalse (inside no)
      return {}, rfl⟩
  | @no _ yes =>
    exact ⟨fun bound => withSymbols place bound.flow.whenTrue (inside yes), fun _ _ => pure {}, rfl⟩

end Binder
end JavaFrontEnd
