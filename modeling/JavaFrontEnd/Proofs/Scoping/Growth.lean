/-
How the record of what names denote grows. A step of the walk adds scopes and symbols and binds
further names, but each scope that is there keeps its kind, the scope around it, and, unless the
step may declare names there, what its names are bound to. So what is visible from a scope can only
change in the scopes that a step owns.
-/

import JavaFrontEnd.Binding.Unit
import JavaFrontEnd.Proofs.Tree.Expressions
import Mathlib.Data.Nat.Basic
import Mathlib.Order.Basic

namespace JavaFrontEnd

open List

/-! The steps of the walk that leave the scopes and the symbols alone: those that report problems,
bind written types, and look for fields, types and packages. They may say what a name denotes, but
never that it denotes a variable. -/

/-- A record has the scopes and symbols of another, and what it says of further names is that they
denote no variables. -/
structure Bindings.Alike (before after : Bindings) : Prop where
  tree : after.tree = before.tree
  symbols : after.symbols = before.symbols
  referents : ∀ use ∈ after.referents,
    use ∈ before.referents ∨ ∀ symbol, use.2 ≠ .variable symbol

namespace Bindings.Alike

variable {before middle after : Bindings}

theorem of_eq (tree : after.tree = before.tree) (symbols : after.symbols = before.symbols)
    (referents : after.referents = before.referents) : Alike before after :=
  ⟨tree, symbols, fun _ isUse => .inl (referents ▸ isUse)⟩

theorem trans (first : Alike before middle) (second : Alike middle after) : Alike before after where
  tree := second.tree.trans first.tree
  symbols := second.symbols.trans first.symbols
  referents use isUse := (second.referents use isUse).elim (first.referents use) .inr

end Bindings.Alike

namespace Binder

open Bindings

variable {α β : Type}

/-- A step leaves the scopes, the symbols and the local classes alone and finds no variable. Unless
`writes` is set, it puts no written type on record either. -/
class Neutral (writes : Bool) (step : Binder α) : Prop where
  alike : ∀ state, Alike state.bindings (step.run state).2.bindings
  locals : ∀ state, (step.run state).2.locals = state.locals
  writtenTypes : writes = false → ∀ state,
    (step.run state).2.bindings.writtenTypes = state.bindings.writtenTypes

section Steps

variable {writes : Bool} {step other : Binder α} {next : α → Binder β}

theorem Neutral.of_eq (bindings : ∀ state, (step.run state).2.bindings = state.bindings)
    (locals : ∀ state, (step.run state).2.locals = state.locals) : Neutral writes step where
  alike state := by
    rw [bindings]
    exact .of_eq rfl rfl rfl
  locals := locals
  writtenTypes _ state := congrArg Bindings.writtenTypes (bindings state)

theorem Neutral.run (neutral : Neutral writes step) (state : BinderState) :
    Alike state.bindings (step.run state).2.bindings ∧ (step.run state).2.locals = state.locals ∧
      (writes = false →
        (step.run state).2.bindings.writtenTypes = state.bindings.writtenTypes) :=
  ⟨neutral.alike state, neutral.locals state, (neutral.writtenTypes · state)⟩

theorem neutral_get_bind {next : BinderState → Binder β}
    (each : ∀ state, Alike state.bindings ((next state).run state).2.bindings ∧
      ((next state).run state).2.locals = state.locals ∧ (writes = false →
        ((next state).run state).2.bindings.writtenTypes = state.bindings.writtenTypes)) :
    Neutral writes (get >>= next) :=
  ⟨fun state => (each state).1, fun state => (each state).2.1,
    fun isFalse state => (each state).2.2 isFalse⟩

theorem Neutral.past [first : Neutral writes step] (second : ∀ value, Neutral writes (next value)) :
    Neutral writes (step >>= next) where
  alike state := (first.alike state).trans ((second _).alike _)
  locals state := ((second _).locals _).trans (first.locals state)
  writtenTypes isFalse state :=
    ((second _).writtenTypes isFalse _).trans (first.writtenTypes isFalse state)

instance (value : α) : Neutral writes (pure value) :=
  .of_eq (fun _ => rfl) fun _ => rfl

instance : Neutral writes (get : Binder BinderState) :=
  .of_eq (fun _ => rfl) fun _ => rfl

instance [Neutral writes step] [second : ∀ value, Neutral writes (next value)] :
    Neutral writes (step >>= next) :=
  .past second

instance (condition : Prop) [Decidable condition] [whenTrue : Neutral writes step]
    [whenFalse : Neutral writes other] : Neutral writes (if condition then step else other) := by
  split
  · exact whenTrue
  · exact whenFalse

instance [neutral : Neutral writes step] : Neutral writes (discard step) :=
  ⟨neutral.alike, neutral.locals, neutral.writtenTypes⟩

instance {step : α → Binder PUnit} [∀ value, Neutral writes (step value)] (values : List α) :
    Neutral writes (values.forM step) := by
  induction values with
  | nil => exact inferInstanceAs (Neutral writes (pure PUnit.unit))
  | cons value rest ih => exact .past fun _ => ih

instance (problem : NameProblem) (span : Span) : Neutral writes (report problem span) :=
  .of_eq (fun _ => rfl) fun _ => rfl

instance (problems : List (NameProblem × Span)) : Neutral writes (reportAll problems) :=
  .of_eq (fun _ => rfl) fun _ => rfl

instance (capture : Capture) : Neutral writes (modify fun state : BinderState =>
    { state with captures := capture :: state.captures }) :=
  .of_eq (fun _ => rfl) fun _ => rfl

end Steps

/-! ### Types -/

section Types

variable (context : UnitContext) (place : Place)

instance (checksRaw : Bool) (written : WrittenType) :
    Neutral true (bindTypeChecked context place checksRaw written) := by
  refine ⟨fun state => ?_, fun state => ?_, by simp⟩
  all_goals
    simp only [bindTypeChecked, StateT.run_bind, StateT.run_get, pure_bind]
  · split <;> split <;> exact .of_eq rfl rfl rfl
  · split <;> split <;> rfl

instance (written : WrittenType) : Neutral true (bindType context place written) := by
  unfold bindType
  infer_instance

instance (written : List WrittenType) : Neutral true (bindTypes context place written) := by
  unfold bindTypes
  infer_instance

instance (parameter : Parameter) : Neutral true (bindParameterType context place parameter) := by
  unfold bindParameterType
  infer_instance

instance (header : TypeHeader) : Neutral true (bindHeader context place header) := by
  unfold bindHeader
  infer_instance

end Types

/-! ### Names that denote no variables -/

section Names

variable (context : UnitContext) (place : Place) {referent : Referent} (span : Span)
  (position : Position) (id : Nat)

theorem neutral_record (isNoVariable : ∀ symbol, referent ≠ .variable symbol) :
    Neutral writes (record id referent) := by
  refine ⟨fun state => ⟨rfl, rfl, fun use isUse => ?_⟩, fun _ => rfl, fun _ _ => rfl⟩
  rcases mem_cons.mp isUse with rfl | isOld
  · exact .inr isNoVariable
  · exact .inl isOld

instance (found : ClassPath.FoundField) (access : FieldAccess) :
    Neutral writes (reportField place found span position access) := by
  unfold reportField
  split <;> infer_instance

theorem ne_variable_of_qualifier? (isFound : qualifier? context place locals name = some referent)
    (symbol : SymbolId) : referent ≠ .variable symbol := by
  unfold qualifier? at isFound
  split at isFound
  · cases isFound
    nofun
  · split at isFound
    · cases isFound
      nofun
    · cases isFound

theorem ne_variable_of_inPackage? (isFound : inPackage? context package name = some referent)
    (symbol : SymbolId) : referent ≠ .variable symbol := by
  unfold inPackage? at isFound
  dsimp only at isFound
  split at isFound
  · cases isFound
    simp
  · split at isFound
    · cases isFound
      simp
    · split at isFound
      · split at isFound <;> cases isFound <;> simp
      · cases isFound

instance (name : String) :
    Neutral writes (bindDistantName context place position name id span) := by
  -- The state that is read may be written back, so it is followed here.
  refine neutral_get_bind fun state => ?_
  split
  · exact (neutral_record id (by nofun)).run state
  · split
    · exact ⟨.of_eq rfl rfl rfl, rfl, fun _ => rfl⟩
    · dsimp only
      split
      case h_1 referent isFound =>
        refine (neutral_record id ?_).run state
        exact ne_variable_of_qualifier? context place (Option.ite_none_right_eq_some.mp isFound).2
      case h_2 => split <;> exact ⟨.of_eq rfl rfl rfl, rfl, fun _ => rfl⟩

instance (found : ClassPath.FoundField) : Neutral writes (record id (.field found)) :=
  neutral_record id (by nofun)

instance (type : Ty) : Neutral writes (record id (.type type)) :=
  neutral_record id (by nofun)

instance (target : Option Referent) (name : String) :
    Neutral writes (bindSelection context place position target name id span) := by
  unfold bindSelection
  split
  iterate 3 infer_instance
  · split
    case h_1 referent isFound =>
      exact neutral_record id (ne_variable_of_inPackage? context isFound)
    · infer_instance
  · split
    · infer_instance
    · split
      · split <;> infer_instance
      · split <;> infer_instance

instance (qualifier : Option String) : Neutral writes (bindThis place qualifier span) := by
  unfold bindThis
  dsimp only
  split <;> infer_instance

instance : Neutral writes (bindSuper place span) := by
  unfold bindSuper
  infer_instance

instance (name : String) : Neutral writes (bindOwnField context place position name id span) := by
  unfold bindOwnField
  split <;> infer_instance

end Names

end Binder

theorem mem_of_lookup_eq_some {α β : Type} [BEq α] [LawfulBEq α] {entries : List (α × β)}
    {key : α} {value : β} (isFound : entries.lookup key = some value) : (key, value) ∈ entries := by
  obtain ⟨before, after, rfl, _⟩ := lookup_eq_some_iff.mp isFound
  exact mem_append_right _ mem_cons_self

/-! ### The tree of scopes -/

namespace ScopeTree

def boundIn (tree : ScopeTree) (scope : ScopeId) : List (String × SymbolId) :=
  (tree.scopes[scope]?.map Scope.names).getD []

def IsLocal (tree : ScopeTree) (scope : ScopeId) : Prop :=
  ∀ key, tree.kind? scope ≠ some (.type key)

theorem mem_boundIn_of_local? {tree : ScopeTree} {scope : ScopeId} {name : String}
    (isBound : tree.local? scope name = some symbol) : (name, symbol) ∈ tree.boundIn scope := by
  obtain ⟨entry, isScope, isFound⟩ := Option.bind_eq_some_iff.mp isBound
  unfold boundIn
  rw [isScope]
  exact mem_of_lookup_eq_some isFound

/-- A tree keeps the scopes of another; only in some of them it binds further names. -/
structure Grows (owned : ScopeId → Prop) (before after : ScopeTree) : Prop where
  size_le : before.size ≤ after.size
  kind?_eq : ∀ scope < before.size, after.kind? scope = before.kind? scope
  parent?_eq : ∀ scope < before.size, after.parent? scope = before.parent? scope
  boundIn_eq : ∀ scope < before.size, ¬ owned scope → after.boundIn scope = before.boundIn scope

namespace Grows

variable {owned others : ScopeId → Prop} {before middle after : ScopeTree}

theorem refl (tree : ScopeTree) : Grows owned tree tree :=
  ⟨le_rfl, fun _ _ => rfl, fun _ _ => rfl, fun _ _ _ => rfl⟩

theorem trans (first : Grows owned before middle) (second : Grows others middle after)
    (isOwned : ∀ scope < before.size, others scope → owned scope) : Grows owned before after where
  size_le := first.size_le.trans second.size_le
  kind?_eq scope isOld :=
    (second.kind?_eq scope (isOld.trans_le first.size_le)).trans (first.kind?_eq scope isOld)
  parent?_eq scope isOld :=
    (second.parent?_eq scope (isOld.trans_le first.size_le)).trans (first.parent?_eq scope isOld)
  boundIn_eq scope isOld isOther :=
    (second.boundIn_eq scope (isOld.trans_le first.size_le)
      fun isHere => isOther (isOwned scope isOld isHere)).trans
        (first.boundIn_eq scope isOld isOther)

theorem weaken (grows : Grows owned before after) (isOther : ∀ scope, owned scope → others scope) :
    Grows others before after :=
  { grows with
    boundIn_eq := fun scope isOld isNone =>
      grows.boundIn_eq scope isOld fun isOwned => isNone (isOther scope isOwned) }

end Grows

/-! ### New scopes and new names -/

section Push

variable (tree : ScopeTree) (kind : ScopeKind) (parent : Option ScopeId)

theorem size_push : (tree.push kind parent).size = tree.size + 1 :=
  Array.size_push _

theorem scopes_push (scope : ScopeId) :
    (tree.push kind parent).scopes[scope]? =
      if scope = tree.size then some { kind, parent } else tree.scopes[scope]? :=
  Array.getElem?_push

theorem kind?_push_size : (tree.push kind parent).kind? tree.size = some kind := by
  unfold kind?
  rw [scopes_push, if_pos rfl]
  rfl

theorem parent?_push_size : (tree.push kind parent).parent? tree.size = parent := by
  unfold parent?
  rw [scopes_push, if_pos rfl]
  rfl

theorem boundIn_push (scope : ScopeId) :
    (tree.push kind parent).boundIn scope = tree.boundIn scope := by
  unfold boundIn
  rw [scopes_push]
  split
  case isTrue isNew =>
    rw [isNew, Array.getElem?_eq_none (show tree.scopes.size ≤ tree.size from le_rfl)]
    rfl
  case isFalse => rfl

theorem grows_push (owned : ScopeId → Prop) : Grows owned tree (tree.push kind parent) where
  size_le := by
    rw [size_push]
    exact Nat.le_succ _
  kind?_eq scope isOld := by
    unfold kind?
    rw [scopes_push, if_neg isOld.ne]
  parent?_eq scope isOld := by
    unfold parent?
    rw [scopes_push, if_neg isOld.ne]
  boundIn_eq scope _ _ := boundIn_push tree kind parent scope

end Push

section Bind

variable (tree : ScopeTree) (scope : ScopeId) (name : String) (symbol : SymbolId) (other : ScopeId)

theorem size_bind : (tree.bind scope name symbol).size = tree.size :=
  Array.size_modify

theorem scopes_bind :
    (tree.bind scope name symbol).scopes[other]? =
      if scope = other then
        tree.scopes[other]?.map fun entry => { entry with names := (name, symbol) :: entry.names }
      else tree.scopes[other]? :=
  Array.getElem?_modify

theorem kind?_bind : (tree.bind scope name symbol).kind? other = tree.kind? other := by
  unfold kind?
  rw [scopes_bind]
  split
  · rw [Option.map_map]
    rfl
  · rfl

theorem parent?_bind : (tree.bind scope name symbol).parent? other = tree.parent? other := by
  unfold parent?
  rw [scopes_bind]
  split
  · rw [Option.bind_map]
    rfl
  · rfl

variable {tree scope name symbol other} in
theorem mem_boundIn_bind (isBound : bound ∈ (tree.bind scope name symbol).boundIn other) :
    scope = other ∧ bound = (name, symbol) ∨ bound ∈ tree.boundIn other := by
  unfold boundIn at isBound ⊢
  rw [scopes_bind] at isBound
  split at isBound
  case isTrue isSame =>
    cases isScope : tree.scopes[other]? with
    | none =>
      rw [isScope] at isBound
      exact absurd isBound not_mem_nil
    | some entry =>
      rw [isScope] at isBound
      exact (mem_cons.mp isBound).imp_left fun isFirst => ⟨isSame, isFirst⟩
  case isFalse => exact .inr isBound

theorem grows_bind (isOwned : owned scope) : Grows owned tree (tree.bind scope name symbol) where
  size_le := (tree.size_bind scope name symbol).ge
  kind?_eq other _ := tree.kind?_bind scope name symbol other
  parent?_eq other _ := tree.parent?_bind scope name symbol other
  boundIn_eq other _ isOther := by
    unfold boundIn
    rw [scopes_bind, if_neg fun isSame : scope = other => isOther (isSame ▸ isOwned)]

end Bind

theorem declaringScope_push (tree : ScopeTree) (kind : ScopeKind) (parent : ScopeId) :
    Binder.declaringScope (tree.push kind (some parent)) tree.size =
      if kind = .caseGroup then parent else tree.size := by
  unfold Binder.declaringScope
  rw [kind?_push_size, parent?_push_size]
  cases kind <;> rfl

/-! ### The scopes around a scope -/

theorem ancestors_eq_cons {tree : ScopeTree} (isParent : tree.parent? scope = some parent)
    (isSmaller : parent < scope) : tree.ancestors scope = scope :: tree.ancestors parent := by
  rw [ancestors, isParent]
  exact congrArg (scope :: ·) (if_pos isSmaller)

theorem le_of_mem_ancestors (tree : ScopeTree) (isAround : around ∈ tree.ancestors scope) :
    around ≤ scope := by
  induction scope using Nat.strongRecOn with
  | ind scope ih =>
    rw [ancestors] at isAround
    rcases mem_cons.mp isAround with rfl | isOuter
    · exact le_rfl
    · split at isOuter
      · split at isOuter
        case isTrue parent _ isSmaller =>
          exact (ih parent isSmaller isOuter).trans isSmaller.le
        case isFalse => exact absurd isOuter not_mem_nil
      · exact absurd isOuter not_mem_nil

theorem Grows.ancestors_eq {after : ScopeTree} (grows : Grows owned before after)
    (isOld : scope < before.size) :
    after.ancestors scope = before.ancestors scope := by
  induction scope using Nat.strongRecOn with
  | ind scope ih =>
    rw [ancestors, ancestors, grows.parent?_eq scope isOld]
    cases before.parent? scope with
    | none => rfl
    | some parent =>
      dsimp only
      by_cases isSmaller : parent < scope
      · rw [if_pos isSmaller, if_pos isSmaller, ih parent isSmaller (isSmaller.trans isOld)]
      · rw [if_neg isSmaller, if_neg isSmaller]

theorem Grows.declaringScope_eq {after : ScopeTree} (grows : Grows owned before after)
    (isOld : scope < before.size) :
    Binder.declaringScope after scope = Binder.declaringScope before scope := by
  unfold Binder.declaringScope
  rw [grows.kind?_eq scope isOld, grows.parent?_eq scope isOld]

end ScopeTree

/-! ### Symbols and what is visible -/

namespace Bindings

variable (bindings : Bindings)

/-- There is a symbol with a number, and its name and the offset of its name pass a test. -/
def Declares (symbol : SymbolId) (test : String → Nat → Prop) : Prop :=
  ∃ entry ∈ bindings.symbols[symbol]?, test entry.name entry.span.start.offset

def DeclaredBefore (limit : Nat) (symbol : SymbolId) : Prop :=
  bindings.Declares symbol fun _ offset => offset < limit

/-- All variables that are visible from a scope are declared before an offset. The names that are
bound in the bodies of types are those of fields. -/
def VisibleBefore (limit : Nat) (scope : ScopeId) : Prop :=
  ∀ around ∈ bindings.tree.ancestors scope, bindings.tree.IsLocal around →
    ∀ bound ∈ bindings.tree.boundIn around, bindings.DeclaredBefore limit bound.2

/-- A number is that of a name among some expressions, and a symbol with this name is declared
before it. -/
def DeclaredForUse (expressions : List Expression) (bindings : Bindings) (id : Nat)
    (symbol : SymbolId) : Prop :=
  ∃ name span, .name name id span ∈ expressions ∧
    bindings.Declares symbol fun declared offset => declared = name ∧ offset < span.start.offset

/-- The scopes form a tree that grew from its root, names are bound to symbols that have them, and
what denotes a variable is a name among some expressions that comes after the declaration. -/
structure WellFormed (expressions : List Expression) (bindings : Bindings) : Prop where
  parents : ∀ scope, 0 < scope → scope < bindings.tree.size →
    ∃ parent < scope, bindings.tree.parent? scope = some parent
  named : ∀ scope, ∀ bound ∈ bindings.tree.boundIn scope,
    bindings.Declares bound.2 fun name _ => name = bound.1
  used : ∀ id symbol, (id, .variable symbol) ∈ bindings.referents →
    bindings.DeclaredForUse expressions id symbol

/-- Whatever passes a test as a symbol of one record does so as a symbol of another. -/
abbrev Keeps (before after : Bindings) : Prop :=
  ∀ symbol test, before.Declares symbol test → after.Declares symbol test

structure Grows (owned : ScopeId → Prop) (before after : Bindings) : Prop where
  tree : before.tree.Grows owned after.tree
  declares : Keeps before after

/-- A record keeps the scopes and the symbols of another, and may bind names anywhere. -/
abbrev Extends (before after : Bindings) : Prop :=
  Grows (fun _ => True) before after

section Declares

variable {bindings : Bindings} {symbol : SymbolId} {test more : String → Nat → Prop}

theorem Declares.imp (declares : bindings.Declares symbol test)
    (implies : ∀ name offset, test name offset → more name offset) :
    bindings.Declares symbol more :=
  Exists.imp (fun _ found => ⟨found.1, implies _ _ found.2⟩) declares

theorem Declares.and (first : bindings.Declares symbol test)
    (second : bindings.Declares symbol more) :
    bindings.Declares symbol fun name offset => test name offset ∧ more name offset := by
  obtain ⟨entry, isEntry, passes⟩ := first
  obtain ⟨other, isOther, passesMore⟩ := second
  cases Option.mem_unique isEntry isOther
  exact ⟨entry, isEntry, passes, passesMore⟩

theorem DeclaredBefore.mono (declared : bindings.DeclaredBefore low symbol) (isLater : low ≤ high) :
    bindings.DeclaredBefore high symbol :=
  declared.imp fun _ _ isBefore => isBefore.trans_le isLater

variable {before after : Bindings}

theorem Keeps.of_symbols_eq (same : after.symbols = before.symbols) : Keeps before after := by
  intro symbol test declared
  unfold Declares
  rwa [same]

theorem keeps_push {symbol : Symbol} (isPushed : after.symbols = before.symbols.push symbol) :
    Keeps before after := by
  rintro number test ⟨entry, isEntry, passes⟩
  obtain ⟨isOld, _⟩ := Array.getElem?_eq_some_iff.mp isEntry
  refine ⟨entry, ?_, passes⟩
  rw [isPushed, Array.getElem?_push, if_neg isOld.ne]
  exact isEntry

theorem keeps_assigned {span : Span}
    (isChanged : after.symbols = before.symbols.modify changed (Symbol.assignedAt · span)) :
    Keeps before after := by
  rintro number test ⟨entry, isEntry, passes⟩
  unfold Declares
  rw [isChanged, Array.getElem?_modify, isEntry]
  split
  · exact ⟨entry.assignedAt span, rfl, passes⟩
  · exact ⟨entry, rfl, passes⟩

end Declares

namespace Grows

variable {owned others : ScopeId → Prop} {before middle after : Bindings}

theorem trans (first : Grows owned before middle) (second : Grows others middle after)
    (isOwned : ∀ scope < before.tree.size, others scope → owned scope) :
    Grows owned before after where
  tree := first.tree.trans second.tree isOwned
  declares symbol test declared := second.declares symbol test (first.declares symbol test declared)

theorem weaken (grows : Grows owned before after) (isOther : ∀ scope, owned scope → others scope) :
    Grows others before after :=
  { grows with tree := grows.tree.weaken isOther }

theorem toExtends (grows : Grows owned before after) : Extends before after :=
  grows.weaken fun _ _ => trivial

theorem of_symbols_eq (tree : before.tree.Grows owned after.tree)
    (same : after.symbols = before.symbols) : Grows owned before after :=
  ⟨tree, .of_symbols_eq same⟩

end Grows

theorem Extends.refl : Extends bindings bindings :=
  .of_symbols_eq (.refl _) rfl

theorem Extends.after {after : Bindings} (second : Extends middle after)
    (first : Extends before middle) : Extends before after :=
  Grows.trans first second fun _ _ _ => trivial

theorem grows_push (kind : ScopeKind) (parent : Option ScopeId) (owned : ScopeId → Prop) :
    Grows owned bindings { bindings with tree := bindings.tree.push kind parent } :=
  .of_symbols_eq (bindings.tree.grows_push kind parent owned) rfl

theorem Alike.grows {after : Bindings} (alike : Alike before after) : Grows owned before after :=
  .of_symbols_eq (alike.tree ▸ .refl _) alike.symbols

namespace VisibleBefore

variable {bindings before after : Bindings} {low high limit : Nat} {scope : ScopeId}

theorem mono (visible : bindings.VisibleBefore low scope) (isLater : low ≤ high) :
    bindings.VisibleBefore high scope :=
  fun around isAround isLocal bound isBound =>
    (visible around isAround isLocal bound isBound).mono isLater

theorem around (visible : bindings.VisibleBefore limit scope)
    (isParent : bindings.tree.parent? scope = some parent) (isSmaller : parent < scope) :
    bindings.VisibleBefore limit parent := by
  intro around isAround
  refine visible around ?_
  rw [ScopeTree.ancestors_eq_cons isParent isSmaller]
  exact mem_cons_of_mem _ isAround

/-- While a record grows, what is visible from a scope is what was visible before and what the
scopes around it bind in addition. -/
theorem grows (visible : before.VisibleBefore limit scope) (grows : Grows owned before after)
    (isOld : scope < before.tree.size)
    (isNew : ∀ around < before.tree.size, after.tree.IsLocal around → ∀ bound ∈ after.tree.boundIn
      around, bound ∈ before.tree.boundIn around ∨ after.DeclaredBefore limit bound.2) :
    after.VisibleBefore limit scope := by
  intro around isAround isLocal bound isBound
  rw [grows.tree.ancestors_eq isOld] at isAround
  have isOldAround := (before.tree.le_of_mem_ancestors isAround).trans_lt isOld
  rcases isNew around isOldAround isLocal bound isBound with wasBound | isDeclared
  · refine grows.declares _ _ (visible around isAround ?_ bound wasBound)
    intro key
    rw [← grows.tree.kind?_eq around isOldAround]
    exact isLocal key
  · exact isDeclared

theorem unowned (visible : before.VisibleBefore limit scope) (grows : Grows owned before after)
    (isOld : scope < before.tree.size) (isNone : ∀ other, ¬ owned other) :
    after.VisibleBefore limit scope :=
  visible.grows grows isOld fun around isOldAround _ _ isBound =>
    .inl (grows.tree.boundIn_eq around isOldAround (isNone around) ▸ isBound)

end VisibleBefore

namespace WellFormed

variable {expressions : List Expression} {before after : Bindings}

/-- What has to be shown of a larger record: that the new scopes, the new names and the new uses of
variables are as they should be. -/
theorem grows (wellFormed : before.WellFormed expressions) (extended : Extends before after)
    (parents : ∀ scope, before.tree.size ≤ scope → scope < after.tree.size →
      ∃ parent < scope, after.tree.parent? scope = some parent)
    (named : ∀ scope, ∀ bound ∈ after.tree.boundIn scope,
      bound ∈ before.tree.boundIn scope ∨ after.Declares bound.2 fun name _ => name = bound.1)
    (used : ∀ id symbol, (id, .variable symbol) ∈ after.referents →
      (id, .variable symbol) ∈ before.referents ∨ after.DeclaredForUse expressions id symbol) :
    after.WellFormed expressions where
  parents scope isInner isScope := by
    by_cases isOld : scope < before.tree.size
    · rw [extended.tree.parent?_eq scope isOld]
      exact wellFormed.parents scope isInner isOld
    · exact parents scope (not_lt.mp isOld) isScope
  named scope bound isBound :=
    (named scope bound isBound).elim
      (fun wasBound => extended.declares _ _ (wellFormed.named scope bound wasBound)) id
  used id symbol isUse := by
    rcases used id symbol isUse with wasUse | isNew
    · obtain ⟨name, span, isName, declared⟩ := wellFormed.used id symbol wasUse
      exact ⟨name, span, isName, extended.declares _ _ declared⟩
    · exact isNew

theorem of_tree_eq (wellFormed : before.WellFormed expressions) (extended : Extends before after)
    (same : after.tree = before.tree)
    (used : ∀ id symbol, (id, .variable symbol) ∈ after.referents →
      (id, .variable symbol) ∈ before.referents ∨ after.DeclaredForUse expressions id symbol) :
    after.WellFormed expressions :=
  wellFormed.grows extended (fun _ isNew isScope => absurd (same ▸ isScope) (not_lt.mpr isNew))
    (fun _ _ isBound => .inl (same ▸ isBound)) used

end WellFormed

end Bindings

end JavaFrontEnd
