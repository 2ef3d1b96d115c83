/-
The scopes of types in the tree of scopes, and the steps of the walk that binds names which make
none: all those that declare and look up names, bind written types and go through headers. These
steps bring no local class into scope either, and what they record of written types and symbols
stays.
-/

import JavaFrontEnd.Proofs.Scoping.Growth

namespace JavaFrontEnd

open List

/-! ### The type scopes of a tree -/

def ScopeKind.typeKey? : ScopeKind → Option String
  | .type key => some key
  | .unit | .method _ | .initializer _ | .block | .lambda | .switch | .caseGroup => none

namespace ScopeTree

/-- The keys of the types whose bodies are scopes, in the order in which these were made. -/
def typeKeys (tree : ScopeTree) : List String :=
  (tree.scopes.toList.map Scope.kind).filterMap ScopeKind.typeKey?

theorem typeKeys_push (tree : ScopeTree) (kind : ScopeKind) (parent : Option ScopeId) :
    (tree.push kind parent).typeKeys = tree.typeKeys ++ kind.typeKey?.toList := by
  unfold typeKeys push
  rw [Array.toList_push, map_append, filterMap_append]
  cases kind <;> rfl

theorem typeKeys_bind (tree : ScopeTree) (scope : ScopeId) (name : String) (symbol : SymbolId) :
    (tree.bind scope name symbol).typeKeys = tree.typeKeys := by
  unfold typeKeys bind
  have kinds : (tree.scopes.modify scope fun entry =>
      { entry with names := (name, symbol) :: entry.names }).toList.map Scope.kind =
        tree.scopes.toList.map Scope.kind := by
    refine ext_getElem (by simp) fun index _ _ => ?_
    simp only [getElem_map, Array.getElem_toList, Array.getElem_modify]
    split <;> rfl
  rw [kinds]

end ScopeTree

/-! ### Written types on record -/

def UnitContext.denoted (context : UnitContext) (use : NameScope × WrittenType) : Ty :=
  (context.names.written use.1 use.2).type

/-- What is put on record for a written type that is resolved in a scope. -/
def UnitContext.entry (context : UnitContext) (use : NameScope × WrittenType) : Nat × Ty :=
  (use.2.span.start.offset, context.denoted use)

/-- Written types that have been resolved are put on record, the latest one first. -/
def Logs (context : UnitContext) (earlier later : List (Nat × Ty)) : Prop :=
  ∃ uses : List (NameScope × WrittenType), later = uses.map context.entry ++ earlier

theorem Logs.refl : Logs context earlier earlier :=
  ⟨[], rfl⟩

theorem Logs.trans (first : Logs context earlier between) (second : Logs context between later) :
    Logs context earlier later := by
  obtain ⟨uses, rfl⟩ := first
  obtain ⟨more, rfl⟩ := second
  exact ⟨more ++ uses, by rw [map_append, append_assoc]⟩

theorem Logs.suffix (logs : Logs context earlier later) : earlier <:+ later := by
  obtain ⟨uses, rfl⟩ := logs
  exact suffix_append ..

namespace Binder

/-! ### Steps that make no type scope -/

variable {α β : Type} (context : UnitContext) (place : Place) (name : String) (type : Ty)
  (modifiers : List Modifier) (hasInitializer : Bool) (span : Span)

def typeKeys (state : BinderState) : List String :=
  state.bindings.tree.typeKeys

open Bindings (Keeps keeps_push keeps_assigned)

/-- A step makes no type scope, declares no local class and forgets no written type or symbol. -/
class Quiet (context : UnitContext) (step : Binder α) : Prop where
  keeps : ∀ state, Keeps state.bindings (step.run state).2.bindings
  typeKeys_run : ∀ state, typeKeys (step.run state).2 = typeKeys state
  locals_run : ∀ state, (step.run state).2.locals = state.locals
  writtenTypes_run : ∀ state,
    Logs context state.bindings.writtenTypes (step.run state).2.bindings.writtenTypes

section Steps

variable {context} {step other : Binder α} {next : α → Binder β}

theorem Quiet.of_eq (keeps : ∀ state, Keeps state.bindings (step.run state).2.bindings)
    (typeKeys_eq : ∀ state, typeKeys (step.run state).2 = typeKeys state)
    (same : ∀ state, (step.run state).2.locals = state.locals ∧
      (step.run state).2.bindings.writtenTypes = state.bindings.writtenTypes) :
    Quiet context step :=
  ⟨keeps, typeKeys_eq, fun state => (same state).1, fun state => (same state).2 ▸ .refl⟩

theorem Quiet.past [first : Quiet context step] (second : ∀ value, Quiet context (next value)) :
    Quiet context (step >>= next) where
  keeps state symbol test := (second _).keeps _ symbol test ∘ first.keeps state symbol test
  typeKeys_run state := ((second _).typeKeys_run _).trans (first.typeKeys_run state)
  locals_run state := ((second _).locals_run _).trans (first.locals_run state)
  writtenTypes_run state := (first.writtenTypes_run state).trans ((second _).writtenTypes_run _)

theorem Quiet.of_neutral (neutral : Neutral writes step) (logs : ∀ state,
    Logs context state.bindings.writtenTypes (step.run state).2.bindings.writtenTypes) :
    Quiet context step where
  keeps state := .of_symbols_eq (neutral.alike state).symbols
  typeKeys_run state := congrArg ScopeTree.typeKeys (neutral.alike state).tree
  locals_run := neutral.locals
  writtenTypes_run := logs

instance [neutral : Neutral false step] : Quiet context step :=
  .of_neutral neutral fun state => neutral.writtenTypes rfl state ▸ .refl

instance [Quiet context step] [second : ∀ value, Quiet context (next value)] :
    Quiet context (step >>= next) :=
  .past second

instance (condition : Prop) [Decidable condition] [whenTrue : Quiet context step]
    [whenFalse : Quiet context other] : Quiet context (if condition then step else other) := by
  split
  · exact whenTrue
  · exact whenFalse

instance [quiet : Quiet context step] : Quiet context (discard step) :=
  ⟨quiet.keeps, quiet.typeKeys_run, quiet.locals_run, quiet.writtenTypes_run⟩

instance {step : α → Binder PUnit} [∀ value, Quiet context (step value)] (values : List α) :
    Quiet context (values.forM step) := by
  induction values with
  | nil => exact inferInstanceAs (Quiet context (pure PUnit.unit))
  | cons value rest ih => exact .past fun _ => ih

theorem writtenTypes_bindTypeChecked (checksRaw : Bool) (written : WrittenType)
    (state : BinderState) :
    ((bindTypeChecked context place checksRaw written).run state).2.bindings.writtenTypes =
      context.entry (place.nameScope state.locals, written) :: state.bindings.writtenTypes := by
  simp only [bindTypeChecked, StateT.run_bind, StateT.run_get, pure_bind]
  split <;> split <;> rfl

end Steps

instance (checksRaw : Bool) (written : WrittenType) :
    Quiet context (bindTypeChecked context place checksRaw written) :=
  .of_neutral (inferInstance : Neutral true _) fun state =>
    ⟨[_], writtenTypes_bindTypeChecked place checksRaw written state⟩

instance (written : WrittenType) : Quiet context (bindType context place written) := by
  unfold bindType
  infer_instance

instance (written : List WrittenType) : Quiet context (bindTypes context place written) := by
  unfold bindTypes
  infer_instance

instance (parameter : Parameter) : Quiet context (bindParameterType context place parameter) := by
  unfold bindParameterType
  infer_instance

instance (header : TypeHeader) : Quiet context (bindHeader context place header) := by
  unfold bindHeader
  infer_instance

instance (symbol : Symbol) : Quiet context (addSymbol symbol) :=
  .of_eq (fun _ => keeps_push rfl) (fun _ => rfl) fun _ => ⟨rfl, rfl⟩

instance (scope : ScopeId) (symbol : SymbolId) : Quiet context (bindName scope name symbol) :=
  .of_eq (fun _ => .of_symbols_eq rfl)
    (fun state => state.bindings.tree.typeKeys_bind scope name symbol) fun _ => ⟨rfl, rfl⟩

instance (symbols : List SymbolId) : Quiet context (bindSymbols place symbols) := by
  have folded : ∀ (named : List (String × SymbolId)) (tree : ScopeTree),
      (named.foldl (fun tree entry => tree.bind place.scope entry.1 entry.2) tree).typeKeys =
        tree.typeKeys := by
    intro named
    induction named with
    | nil => exact fun _ => rfl
    | cons entry rest ih =>
      intro tree
      rw [foldl_cons, ih, ScopeTree.typeKeys_bind]
  exact .of_eq (fun _ => .of_symbols_eq rfl) (fun state => folded _ state.bindings.tree)
    fun _ => ⟨rfl, rfl⟩

instance (kind : SymbolKind) (scope : ScopeId) :
    Quiet context (declareVariable place kind type modifiers hasInitializer scope name span) := by
  unfold declareVariable
  split
  · infer_instance
  · refine .past fun state => ?_
    split <;> infer_instance

instance : Quiet context (declareLocal place type modifiers hasInitializer name span) := by
  unfold declareLocal
  infer_instance

instance : Quiet context (declarePattern place type modifiers name span) := by
  unfold declarePattern
  infer_instance

instance (constant : Option ConstantFacts) :
    Quiet context (declareField place type modifiers hasInitializer name span constant) := by
  unfold declareField
  infer_instance

instance (parameter : Parameter) : Quiet context (bindParameter context place parameter) := by
  unfold bindParameter
  infer_instance

instance (outer : ScopeId) (parameter : LambdaParameter) :
    Quiet context (bindLambdaParameter context place outer parameter) := by
  unfold bindLambdaParameter
  dsimp only
  split <;> infer_instance

mutual

theorem quiet_bindPattern : ∀ pattern : Pattern, Quiet context (bindPattern context place pattern)
  | .type _ => .past fun _ => inferInstance
  | .record _ components _ => .past fun _ => quiet_bindPatterns components

theorem quiet_bindPatterns : ∀ patterns : List Pattern,
    Quiet context (bindPatterns context place patterns)
  | [] => inferInstanceAs (Quiet context (pure []))
  | pattern :: rest => by
    have inFirst := quiet_bindPattern pattern
    have inRest := quiet_bindPatterns rest
    exact .past fun _ => inferInstance

end

instance (pattern : Pattern) : Quiet context (bindPattern context place pattern) :=
  quiet_bindPattern context place pattern

/-! ### Names make no type scope -/

instance (id : Nat) (referent : Referent) : Quiet context (record id referent) :=
  .of_eq (fun _ => .of_symbols_eq rfl) (fun _ => rfl) fun _ => ⟨rfl, rfl⟩

instance (position : Position) (id : Nat) :
    Quiet context (bindSimpleName context place position name id span) := by
  have assigned : ∀ symbol : SymbolId, Quiet context (modify fun state : BinderState =>
      { state with
        bindings.symbols := state.bindings.symbols.modify symbol (Symbol.assignedAt · span) }) :=
    fun _ => .of_eq (fun _ => keeps_assigned rfl) (fun _ => rfl) fun _ => ⟨rfl, rfl⟩
  refine .past fun state => ?_
  dsimp only
  split
  · infer_instance
  · split <;> infer_instance
  · infer_instance

/-! ### Headers make no type scope -/

instance (shape : TypeShape) : Quiet context (declareComponents context place shape) := by
  unfold declareComponents
  split <;> infer_instance

instance (known : Option KnownType) (member : Member) :
    Quiet context (declareMember context place known member) := by
  unfold declareMember
  split <;> infer_instance

instance (members : List Member) : Quiet context (declareMembers context place members) := by
  unfold declareMembers
  infer_instance

instance (key : String) (constants : List EnumConstant) :
    Quiet context (declareConstants context place key constants) := by
  unfold declareConstants
  infer_instance

instance (header : MethodHeader) : Quiet context (bindMethodHeader context place header) := by
  unfold bindMethodHeader
  infer_instance

instance (header : ConstructorHeader) :
    Quiet context (bindConstructorHeader context place header) := by
  unfold bindConstructorHeader
  infer_instance

instance (parameter : Parameter) (alternatives : List WrittenType) :
    Quiet context (bindCatchParameter context place parameter alternatives) := by
  unfold bindCatchParameter
  infer_instance

instance (bound : BoundVariable) : Quiet context (bindVariable context place bound) := by
  unfold bindVariable
  infer_instance

theorem bindExpression_field (context : UnitContext) (place : Place) (position : Position)
    {target : Expression} (name : String) (nameSpan : Span) (id : Nat) (span : Span)
    (isNotThis : ∀ thisSpan, target ≠ .this none thisSpan) :
    bindExpression context place position (.field target name nameSpan id span) = do
      let bound ← bindExpression context place .qualifier target
      let referent ← bindSelection context place position bound.referent name id span
      return { referent } := by
  cases target with
  | this qualifier thisSpan =>
    cases qualifier with
    | none => exact absurd rfl (isNotThis thisSpan)
    | some _ => rfl
  | _ => rfl

end Binder

end JavaFrontEnd
