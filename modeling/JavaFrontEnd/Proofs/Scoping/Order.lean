/-
Steps of the walk that go through the text in its order. A step stands for a stretch of the text
between two offsets. If all variables that are visible before it are declared before the stretch,
then all that are visible after it are declared before its end, and every name in it that denotes a
variable denotes one that is declared before the name. A step that declares nothing in the scopes
that are there may also be taken before one that stands for an earlier stretch (`InOrder.swapped`).
-/

import JavaFrontEnd.Proofs.Scoping.Growth

namespace JavaFrontEnd

open List

namespace Bindings

def AllBefore (bindings : Bindings) (limit : Nat) (symbols : List SymbolId) : Prop :=
  ∀ symbol ∈ symbols, bindings.DeclaredBefore limit symbol

/-- The pattern variables of a condition are declared before an offset. -/
structure FlowBefore (bindings : Bindings) (limit : Nat) (flow : PatternFlow) : Prop where
  whenTrue : bindings.AllBefore limit flow.whenTrue
  whenFalse : bindings.AllBefore limit flow.whenFalse

section AllBefore

variable {bindings before after : Bindings} {low high limit : Nat} {owned : ScopeId → Prop}
  {symbols : List SymbolId}

theorem allBefore_nil : bindings.AllBefore limit [] :=
  fun _ isNone => absurd isNone not_mem_nil

theorem AllBefore.append (first : bindings.AllBefore limit symbols)
    (second : bindings.AllBefore limit more) : bindings.AllBefore limit (symbols ++ more) :=
  fun symbol isSymbol => (mem_append.mp isSymbol).elim (first symbol) (second symbol)

theorem AllBefore.mono (all : bindings.AllBefore low symbols) (isLater : low ≤ high) :
    bindings.AllBefore high symbols :=
  fun symbol isSymbol => (all symbol isSymbol).mono isLater

theorem AllBefore.grows (all : before.AllBefore limit symbols) (grows : Grows owned before after) :
    after.AllBefore limit symbols :=
  fun symbol isSymbol => grows.declares _ _ (all symbol isSymbol)

theorem flowBefore_nil : bindings.FlowBefore limit {} :=
  ⟨allBefore_nil, allBefore_nil⟩

theorem FlowBefore.mono (known : bindings.FlowBefore low flow) (isLater : low ≤ high) :
    bindings.FlowBefore high flow :=
  ⟨known.whenTrue.mono isLater, known.whenFalse.mono isLater⟩

theorem FlowBefore.grows (known : before.FlowBefore limit flow) (grows : Grows owned before after) :
    after.FlowBefore limit flow :=
  ⟨known.whenTrue.grows grows, known.whenFalse.grows grows⟩

end AllBefore

end Bindings

namespace Binder

open Bindings

/-- The scopes in which a step may bind names: that of its place, and the one where the variables
that are declared there live. -/
def Owned (declares : Bool) (tree : ScopeTree) (scope other : ScopeId) : Prop :=
  declares = true ∧ (other = scope ∨ other = declaringScope tree scope)

structure Ready (expressions : List Expression) (scope : ScopeId) (limit : Nat)
    (bindings : Bindings) : Prop where
  wellFormed : bindings.WellFormed expressions
  lt_size : scope < bindings.tree.size
  visible : bindings.VisibleBefore limit scope

structure Leads (expressions : List Expression) (scope : ScopeId) (declares : Bool) (limit : Nat)
    (before after : Bindings) : Prop where
  grows : Grows (Owned declares before.tree scope) before after
  wellFormed : after.WellFormed expressions
  visible : after.VisibleBefore limit scope

/-- A step goes through the text from an offset to another, and its result is as it should be. -/
structure InOrder {α : Type} (expressions : List Expression) (scope : ScopeId) (declares : Bool)
    (low high : Nat) (yields : α → Bindings → Prop) (state : BinderState) (step : Binder α) :
    Prop where
  run : Ready expressions scope low state.bindings →
    Leads expressions scope declares high state.bindings (step.run state).2.bindings ∧
      yields (step.run state).1 (step.run state).2.bindings

def Anything {α : Type} (_ : α) (_ : Bindings) : Prop :=
  True

variable {α β : Type} {expressions : List Expression} {scope : ScopeId} {declares : Bool}
  {low middle high limit : Nat} {state : BinderState}

/-! ### Steps one after the other -/

section Leads

variable {before between after : Bindings}

theorem Ready.mono (ready : Ready expressions scope low before) (isLater : low ≤ high) :
    Ready expressions scope high before :=
  { ready with visible := ready.visible.mono isLater }

theorem Ready.leads (ready : Ready expressions scope low before) :
    Leads expressions scope declares low before before :=
  ⟨.of_symbols_eq (.refl _) rfl, ready.wellFormed, ready.visible⟩

theorem Leads.ready (leads : Leads expressions scope declares high before after)
    (ready : Ready expressions scope low before) : Ready expressions scope high after :=
  ⟨leads.wellFormed, ready.lt_size.trans_le leads.grows.tree.size_le, leads.visible⟩

theorem Leads.mono (leads : Leads expressions scope declares low before after)
    (isLater : low ≤ high) : Leads expressions scope declares high before after :=
  { leads with visible := leads.visible.mono isLater }

theorem Leads.trans (first : Leads expressions scope declares middle before between)
    (ready : Ready expressions scope low before)
    (second : Leads expressions scope declares high between after) :
    Leads expressions scope declares high before after := by
  refine ⟨first.grows.trans second.grows fun other _ isOwned => ?_, second.wellFormed,
    second.visible⟩
  unfold Owned at isOwned
  rwa [first.grows.tree.declaringScope_eq ready.lt_size] at isOwned

end Leads

namespace InOrder

variable {step : Binder α} {next : α → Binder β} {yields : α → Bindings → Prop}
  {results : β → Bindings → Prop}

theorem bind (first : InOrder expressions scope declares low middle yields state step)
    (second : ∀ value later, state.bindings.Extends later.bindings → yields value later.bindings →
      InOrder expressions scope declares middle high results later (next value)) :
    InOrder expressions scope declares low high results state (step >>= next) := by
  constructor
  intro ready
  obtain ⟨leads, yielded⟩ := first.run ready
  obtain ⟨further, result⟩ := (second _ _ leads.grows.toExtends yielded).run (leads.ready ready)
  exact ⟨leads.trans ready further, result⟩

theorem andThen (first : InOrder expressions scope declares low middle yields state step)
    (second : ∀ {value later},
      InOrder expressions scope declares middle high results later (next value)) :
    InOrder expressions scope declares low high results state (step >>= next) :=
  first.bind fun _ _ _ _ => second

/-- A step that declares nothing in old scopes may be taken before one that stands for an earlier
stretch. -/
theorem swapped (isLater : low ≤ middle) (isBefore : middle ≤ high)
    (first : InOrder expressions scope false middle high yields state step)
    (second : ∀ {value later},
      InOrder expressions scope declares low middle results later (next value)) :
    InOrder expressions scope declares low high results state (step >>= next) := by
  constructor
  intro ready
  have leads := (first.run (ready.mono isLater)).1
  have unowned : ∀ other, ¬ Owned false state.bindings.tree scope other :=
    fun _ isOwned => Bool.false_ne_true isOwned.1
  have again : Leads expressions scope declares low state.bindings (step.run state).2.bindings :=
    ⟨leads.grows.weaken fun other isOwned => absurd isOwned (unowned other), leads.wellFormed,
      ready.visible.unowned leads.grows ready.lt_size unowned⟩
  obtain ⟨further, result⟩ := second.run (again.ready ready)
  exact ⟨(again.trans ready further).mono isBefore, result⟩

theorem mono (inOrder : InOrder expressions scope declares middle high yields state step)
    (isLater : low ≤ middle) :
    InOrder expressions scope declares low high yields state step :=
  ⟨fun ready => inOrder.run (ready.mono isLater)⟩

theorem map {value : α → β}
    (inOrder : InOrder expressions scope declares low high yields state step)
    (implies : ∀ given after, yields given after → results (value given) after) :
    InOrder expressions scope declares low high results state
      (step >>= fun given => pure (value given)) :=
  ⟨fun ready => ⟨(inOrder.run ready).1, implies _ _ (inOrder.run ready).2⟩⟩

theorem ignored (inOrder : InOrder expressions scope declares low high yields state step) :
    InOrder expressions scope declares low high Anything state
      (step >>= fun _ => Pure.pure value) :=
  inOrder.map fun _ _ _ => trivial

theorem atScope (inOrder : InOrder expressions other declares low high yields state step)
    (isSame : other = scope := by simp) :
    InOrder expressions scope declares low high yields state step :=
  isSame ▸ inOrder

theorem discard (inOrder : InOrder expressions scope declares low high yields state step) :
    InOrder expressions scope declares low high Anything state (discard step) :=
  ⟨fun ready => ⟨(inOrder.run ready).1, trivial⟩⟩

theorem get_bind {next : BinderState → Binder β}
    (inOrder : InOrder expressions scope declares low high results state (next state)) :
    InOrder expressions scope declares low high results state (get >>= next) :=
  ⟨inOrder.run⟩

theorem pure (isLater : low ≤ high) (isYielded : yields value state.bindings) :
    InOrder expressions scope declares low high yields state (Pure.pure value) :=
  ⟨fun ready => ⟨ready.leads.mono isLater, isYielded⟩⟩

theorem forM {step : α → Binder PUnit} {values : List α}
    (inOrder : ∀ value ∈ values, ∀ later, state.bindings.Extends later.bindings →
      InOrder expressions scope declares low low Anything later (step value)) :
    InOrder expressions scope declares low low Anything state (values.forM step) := by
  induction values generalizing state with
  | nil => exact .pure le_rfl trivial
  | cons value rest ih =>
    obtain ⟨first, others⟩ := forall_mem_cons.mp inOrder
    refine (first state (.refl _)).bind fun _ later isLater _ => ih ?_
    exact fun other isOther latest isLatest => others other isOther latest (isLatest.after isLater)

end InOrder

/-! ### Steps that bind no names -/

theorem Ready.leads_of_tree_eq {after : Bindings}
    (ready : Ready expressions scope low before) (extended : Extends before after)
    (same : after.tree = before.tree)
    (used : ∀ id symbol, (id, .variable symbol) ∈ after.referents → (id, .variable symbol) ∈
      before.referents ∨ after.DeclaredForUse expressions id symbol) :
    Leads expressions scope declares low before after where
  grows := ⟨same ▸ .refl _, extended.declares⟩
  wellFormed := ready.wellFormed.of_tree_eq extended same used
  visible := ready.visible.grows extended ready.lt_size fun _ _ _ _ isBound => .inl (same ▸ isBound)

section Neutral

variable {step : Binder α} {next : α → Binder β} {results : β → Bindings → Prop}

theorem InOrder.neutral [neutral : Neutral true step] (isLater : low ≤ high) :
    InOrder expressions scope declares low high Anything state step := by
  refine ⟨fun ready => ⟨?_, trivial⟩⟩
  have alike := neutral.alike state
  refine (ready.leads_of_tree_eq alike.grows alike.tree fun id symbol isUse => ?_).mono isLater
  exact (alike.referents _ isUse).imp_right fun isNone => absurd rfl (isNone symbol)

theorem InOrder.alike [neutral : Neutral true step]
    (second : ∀ value later, Alike state.bindings later.bindings →
      InOrder expressions scope declares low high results later (next value)) :
    InOrder expressions scope declares low high results state (step >>= next) := by
  constructor
  intro ready
  have leads : Leads expressions scope declares low state.bindings (step.run state).2.bindings :=
    ((InOrder.neutral le_rfl).run ready).1
  obtain ⟨further, result⟩ := (second _ _ (neutral.alike state)).run (leads.ready ready)
  exact ⟨leads.trans ready further, result⟩

theorem InOrder.past [Neutral true step]
    (second : ∀ {value later},
      InOrder expressions scope declares low high results later (next value)) :
    InOrder expressions scope declares low high results state (step >>= next) :=
  .alike fun _ _ _ => second

end Neutral

/-! ### New scopes -/

theorem Ready.push (ready : Ready expressions scope low before) (kind : ScopeKind) :
    Ready expressions before.tree.size low
      { before with tree := before.tree.push kind (some scope) } := by
  have grows := before.grows_push kind (some scope) fun _ => False
  have size := before.tree.size_push kind (some scope)
  have isParent := before.tree.parent?_push_size kind (some scope)
  refine ⟨ready.wellFormed.grows grows.toExtends ?_ ?_ fun _ _ isUse => .inl isUse,
    (Nat.lt_succ_self _).trans_eq size.symm, ?_⟩
  · intro other isNew isScope
    have isSame : other = before.tree.size :=
      le_antisymm (Nat.le_of_lt_succ (isScope.trans_eq size)) isNew
    exact ⟨scope, isSame ▸ ready.lt_size, isSame ▸ isParent⟩
  · intro other bound isBound
    rw [before.tree.boundIn_push] at isBound
    exact .inl isBound
  · intro around isAround isLocal bound isBound
    rw [ScopeTree.ancestors_eq_cons isParent ready.lt_size] at isAround
    rcases mem_cons.mp isAround with rfl | isOuter
    · rw [before.tree.boundIn_push] at isBound
      unfold ScopeTree.boundIn at isBound
      rw [Array.getElem?_eq_none (show before.tree.scopes.size ≤ before.tree.size from le_rfl)]
        at isBound
      exact absurd isBound not_mem_nil
    · have visible := ready.visible.unowned grows ready.lt_size fun _ => id
      exact visible around isOuter isLocal bound isBound

/-- What was done in a new scope leaves the old ones alone, unless the scope is that of a case. -/
theorem Leads.leave {before after : Bindings} {kind : ScopeKind}
    (leads : Leads expressions before.tree.size true high
      { before with tree := before.tree.push kind (some scope) } after)
    (ready : Ready expressions scope low before) (isOwned : kind = .caseGroup → declares = true) :
    Leads expressions scope declares high before after := by
  have isParent : after.tree.parent? before.tree.size = some scope := by
    rw [leads.grows.tree.parent?_eq _ (by rw [ScopeTree.size_push]; exact Nat.lt_succ_self _)]
    exact before.tree.parent?_push_size kind (some scope)
  refine ⟨?_, leads.wellFormed, leads.visible.around isParent ready.lt_size⟩
  have entered := before.grows_push kind (some scope) (Owned declares before.tree scope)
  refine entered.trans leads.grows fun other isOld isInner => ?_
  obtain ⟨_, rfl | isDeclaring⟩ := isInner
  · exact absurd isOld (lt_irrefl _)
  · rw [ScopeTree.declaringScope_push] at isDeclaring
    split at isDeclaring
    case isTrue isCase => exact ⟨isOwned isCase, .inl isDeclaring⟩
    case isFalse => exact absurd (isDeclaring ▸ isOld) (lt_irrefl _)

namespace InOrder

variable {kind : ScopeKind} {place : Place} {body : Place → Binder α}
  {yields : α → Bindings → Prop}

theorem enter (isOwned : kind = .caseGroup → declares = true)
    (inside : ∀ inner later, state.bindings.Extends later.bindings →
      later.bindings.tree.kind? inner.scope = some kind →
      InOrder expressions inner.scope true low high yields later (body inner)) :
    InOrder expressions place.scope declares low high yields state (inScope kind place body) := by
  constructor
  intro ready
  have entered := inside { place with scope := state.bindings.tree.size }
    { state with bindings.tree := state.bindings.tree.push kind (some place.scope) }
    (state.bindings.grows_push kind (some place.scope) _)
    (state.bindings.tree.kind?_push_size kind (some place.scope))
  obtain ⟨leads, yielded⟩ := entered.run (ready.push kind)
  exact ⟨leads.leave ready isOwned, yielded⟩

theorem inScope (inside : ∀ {inner later},
      InOrder expressions inner.scope true low high yields later (body inner))
    (isNoCase : kind ≠ .caseGroup := by nofun) (isPlace : place.scope = scope := by rfl) :
    InOrder expressions scope declares low high yields state (Binder.inScope kind place body) :=
  isPlace ▸ enter (fun isCase => absurd isCase isNoCase) fun _ _ _ _ => inside

theorem inCase (inside : ∀ {inner later},
      InOrder expressions inner.scope true low high yields later (body inner)) :
    InOrder expressions place.scope true low high yields state
      (Binder.inScope .caseGroup place body) :=
  enter (fun _ => rfl) fun _ _ _ _ => inside

theorem inType
    (inside : ∀ inner later, later.bindings.tree.kind? inner.scope = some (.type key) → InOrder
      expressions inner.scope true low high yields later (body inner))
    (isPlace : place.scope = scope := by rfl) :
    InOrder expressions scope declares low high yields state
      (Binder.inScope (.type key) place body) :=
  isPlace ▸ enter nofun fun inner later _ isType => inside inner later isType

end InOrder

variable {symbols : List SymbolId}

/-! ### Names that are bound -/

theorem Ready.leads_bind (ready : Ready expressions scope limit before)
    (isOwned : Owned true before.tree scope other)
    (isNamed : before.Declares symbol fun declared _ => declared = name)
    (isBefore : before.tree.IsLocal other → before.DeclaredBefore limit symbol) :
    Leads expressions scope true limit before
      { before with tree := before.tree.bind other name symbol } := by
  have grows : Grows (Owned true before.tree scope) before
      { before with tree := before.tree.bind other name symbol } :=
    .of_symbols_eq (before.tree.grows_bind other name symbol isOwned) rfl
  refine ⟨grows, ready.wellFormed.grows grows.toExtends ?_ ?_ fun _ _ isUse => .inl isUse, ?_⟩
  · intro around isNew isScope
    rw [ScopeTree.size_bind] at isScope
    exact absurd isScope (not_lt.mpr isNew)
  · intro around bound isBound
    rcases ScopeTree.mem_boundIn_bind isBound with ⟨_, rfl⟩ | wasBound
    · exact .inr isNamed
    · exact .inl wasBound
  · refine ready.visible.grows grows ready.lt_size fun around _ isLocal bound isBound => ?_
    rcases ScopeTree.mem_boundIn_bind isBound with ⟨rfl, rfl⟩ | wasBound
    · refine .inr (isBefore fun key => ?_)
      rw [← before.tree.kind?_bind other name symbol]
      exact isLocal key
    · exact .inl wasBound

theorem Ready.leads_bindAll (ready : Ready expressions scope limit before)
    (named : List (String × SymbolId))
    (isNamed : ∀ bound ∈ named, before.Declares bound.2 fun declared _ => declared = bound.1)
    (isBefore : ∀ bound ∈ named, before.DeclaredBefore limit bound.2) :
    Leads expressions scope true limit before
      { before with
        tree := named.foldl (fun tree bound => tree.bind scope bound.1 bound.2) before.tree } := by
  induction named generalizing before with
  | nil => exact ready.leads
  | cons bound rest ih =>
    obtain ⟨firstNamed, restNamed⟩ := forall_mem_cons.mp isNamed
    obtain ⟨firstBefore, restBefore⟩ := forall_mem_cons.mp isBefore
    have first := ready.leads_bind ⟨rfl, .inl rfl⟩ firstNamed fun _ => firstBefore
    exact first.trans ready (ih (first.ready ready) restNamed restBefore)

theorem inOrder_symbols {place : Place} (isLater : low ≤ high)
    (known : state.bindings.AllBefore high symbols) :
    InOrder expressions place.scope true low high Anything state (bindSymbols place symbols) := by
  refine ⟨fun ready => ⟨?_, trivial⟩⟩
  let named := symbols.filterMap fun symbol =>
    state.bindings.symbols[symbol]?.map fun entry => (entry.name, symbol)
  have isNamed : ∀ bound ∈ named, bound.2 ∈ symbols ∧
      state.bindings.Declares bound.2 fun declared _ => declared = bound.1 := by
    intro bound isBound
    obtain ⟨symbol, isSymbol, isFound⟩ := mem_filterMap.mp isBound
    obtain ⟨entry, isEntry, rfl⟩ := Option.map_eq_some_iff.mp isFound
    exact ⟨isSymbol, entry, isEntry, rfl⟩
  have all := (ready.mono isLater).leads_bindAll named
    (fun bound isBound => (isNamed bound isBound).2)
    fun bound isBound => known bound.2 (isNamed bound isBound).1
  exact all

theorem InOrder.withSymbols {place : Place} (known : state.bindings.AllBefore low symbols)
    (inside : ∀ {inner mayDeclare later}, InOrder expressions inner.scope mayDeclare low high
      yields later (body inner)) :
    InOrder expressions place.scope declares low high yields state
      (withSymbols place symbols body) := by
  unfold Binder.withSymbols
  split
  · exact inside
  · exact .enter nofun fun _ _ isLater _ =>
      (inOrder_symbols le_rfl (known.grows isLater)).andThen inside

end Binder

/-! Declarations and uses of names as steps through the text. A variable may be declared anywhere in
the stretch for which the step stands; a field may be declared before its place in the text, since
it is bound in the body of a type. A name that denotes a variable denotes one that was visible. -/

namespace Bindings

theorem Extends.kind?_eq {after : Bindings} (extended : Extends before after)
    (isKind : before.tree.kind? scope = some kind) : after.tree.kind? scope = some kind := by
  obtain ⟨entry, isScope, _⟩ := Option.map_eq_some_iff.mp isKind
  obtain ⟨isOld, _⟩ := Array.getElem?_eq_some_iff.mp isScope
  exact (extended.tree.kind?_eq scope isOld).trans isKind

theorem exists_scope_of_findName {bindings : Bindings}
    (isFound : bindings.findName path guardScope name scopes frames place captured outside = some
      (.variable symbol reason)) :
    ∃ scope ∈ scopes,
      bindings.tree.IsLocal scope ∧ bindings.tree.local? scope name = some symbol := by
  induction scopes generalizing frames place captured outside with
  | nil => cases isFound
  | cons scope outer ih =>
    have isOuter : ∀ frames place captured outside,
        bindings.findName path guardScope name outer frames place captured outside =
          some (.variable symbol reason) →
        ∃ around ∈ scope :: outer,
          bindings.tree.IsLocal around ∧ bindings.tree.local? around name = some symbol := by
      intro frames place captured outside isFound
      obtain ⟨around, isAround, found⟩ := ih isFound
      exact ⟨around, mem_cons_of_mem _ isAround, found⟩
    unfold findName at isFound
    split at isFound
    · cases isFound
    · split at isFound
      · cases isFound
      · exact isOuter _ _ _ _ isFound
    case h_3 frames _ _ noFrames noFrame =>
      dsimp only at isFound
      split at isFound
      case h_1 isLocal =>
        cases isFound
        refine ⟨scope, mem_cons_self, fun key isType => ?_,
          (Option.filter_eq_some_iff.mp isLocal).1⟩
        cases frames with
        | nil => exact noFrames key isType rfl
        | cons frame around => exact noFrame key frame around isType rfl
      case h_2 => exact isOuter _ _ _ _ isFound

end Bindings

namespace Binder

open Bindings

variable {expressions : List Expression} {scope : ScopeId} {declares : Bool}
  {low high : Nat} {state : BinderState} {place : Place} {type : Ty} {modifiers : List Modifier}
  {hasInitializer : Bool} {name : String} {span : Span}

/-! ### Declarations -/

/-- A number is that of a symbol with the name and the offset of another. -/
def Makes (symbol : Symbol) (number : SymbolId) (bindings : Bindings) : Prop :=
  bindings.Declares number fun name offset => name = symbol.name ∧ offset = symbol.span.start.offset

theorem inOrder_addSymbol (symbol : Symbol) (isLater : low ≤ high) :
    InOrder expressions scope declares low high (Makes symbol) state (addSymbol symbol) := by
  refine ⟨fun ready => ⟨?_, symbol, Array.getElem?_push_size, rfl, rfl⟩⟩
  have grows : Extends state.bindings ((addSymbol symbol).run state).2.bindings :=
    ⟨.refl _, keeps_push rfl⟩
  exact (ready.leads_of_tree_eq grows rfl fun _ _ isUse => .inl isUse).mono isLater

theorem inOrder_declare {symbol : Symbol} (isOwned : Owned true state.bindings.tree scope other)
    (isLater : low ≤ high)
    (isBefore : state.bindings.tree.IsLocal other → symbol.span.start.offset < high) :
    InOrder expressions scope true low high Anything state
      (addSymbol symbol >>= bindName other symbol.name) := by
  refine ⟨fun ready => ⟨?_, trivial⟩⟩
  obtain ⟨leads, made⟩ := (inOrder_addSymbol symbol isLater).run ready
  refine leads.trans ready ((leads.ready ready).leads_bind isOwned ?_ fun isLocal => ?_)
  · exact made.imp fun _ _ isMade => isMade.1
  · exact made.imp fun _ _ isMade => isMade.2 ▸ isBefore isLocal

theorem inOrder_declareVariable (isOwned : Owned true state.bindings.tree place.scope other)
    (isLater : low ≤ high) (isBefore : span.start.offset < high) :
    InOrder expressions place.scope true low high Anything state
      (declareVariable place kind type modifiers hasInitializer other name span) := by
  unfold declareVariable
  split
  · exact .pure isLater trivial
  · refine .get_bind ?_
    split
    iterate 2
      exact .alike fun _ _ alike => inOrder_declare (alike.tree ▸ isOwned) isLater fun _ => isBefore
    · exact inOrder_declare isOwned isLater fun _ => isBefore

theorem inOrder_declareLocal (isLater : low ≤ high) (isBefore : span.start.offset < high) :
    InOrder expressions place.scope true low high Anything state
      (declareLocal place type modifiers hasInitializer name span) :=
  .get_bind (inOrder_declareVariable ⟨rfl, .inr rfl⟩ isLater isBefore)

theorem inOrder_declarePattern (isLater : low ≤ high) (isBefore : span.start.offset < high) :
    InOrder expressions place.scope declares low high
      (fun symbols bindings => bindings.AllBefore high symbols) state
      (declarePattern place type modifiers name span) := by
  have made : ∀ (symbol : Symbol) (later : BinderState), symbol.span = span →
      InOrder expressions place.scope declares low high
        (fun symbols bindings => bindings.AllBefore high symbols) later
        (addSymbol symbol >>= fun number => pure [number]) := by
    intro symbol later isSpan
    refine (inOrder_addSymbol symbol isLater).map fun number bindings isMade other isOther => ?_
    cases mem_singleton.mp isOther
    exact isMade.imp fun _ _ isSymbol => isSymbol.2 ▸ isSpan ▸ isBefore
  unfold declarePattern
  split
  · exact .pure isLater allBefore_nil
  · refine .get_bind ?_
    split
    · exact .past <| made _ _ rfl
    · exact made _ _ rfl

/-! ### Parameters and variables -/

section Variables

variable (context : UnitContext) {place : Place} (isLater : low ≤ high)
include isLater

theorem inOrder_parameter {parameter : Parameter}
    (isBefore : parameter.nameSpan.start.offset < high) :
    InOrder expressions place.scope true low high Anything state
      (bindParameter context place parameter) :=
  .past <| inOrder_declareVariable ⟨rfl, .inl rfl⟩ isLater isBefore

theorem inOrder_parameters {parameters : List Parameter}
    (isBefore : ∀ parameter ∈ parameters, parameter.nameSpan.start.offset < high) :
    InOrder expressions place.scope true low high Anything state
      (parameters.forM (bindParameter context place)) :=
  (InOrder.forM fun parameter isParameter _ _ =>
    inOrder_parameter context le_rfl (isBefore parameter isParameter)).mono isLater

theorem inOrder_lambdaParameter {parameter : LambdaParameter}
    (isBefore : parameter.nameSpan.start.offset < high) :
    InOrder expressions place.scope true low high Anything state
      (bindLambdaParameter context place outer parameter) := by
  have declared : ∀ (type : Ty) (later : BinderState),
      InOrder expressions place.scope true low high Anything later (do
        if parameter.name = "_" then return
        let state ← get
        if (state.bindings.clash? outer parameter.name).isSome then
          report (.parameterOfLambda parameter.name) parameter.nameSpan
        bindName place.scope parameter.name (← addSymbol
          { name := parameter.name, kind := .parameter, type, modifiers := parameter.modifiers
            scope := place.scope, span := parameter.nameSpan, hasInitializer := true })) := by
    intro type later
    split
    · exact .pure isLater trivial
    · refine .get_bind ?_
      split
      · exact .past <| inOrder_declare ⟨rfl, .inl rfl⟩ isLater fun _ => isBefore
      · exact inOrder_declare ⟨rfl, .inl rfl⟩ isLater fun _ => isBefore
  unfold bindLambdaParameter
  dsimp only
  split
  · split
    · exact .past <| declared _ _
    · exact .past <| declared _ _
  · exact .past <| declared _ _

theorem inOrder_methodHeader {header : MethodHeader}
    (isBefore : ∀ parameter ∈ header.parameters, parameter.nameSpan.start.offset < high) :
    InOrder expressions place.scope true low high Anything state
      (bindMethodHeader context place header) :=
  .past <| .past <| .past <| inOrder_parameters context isLater isBefore

theorem inOrder_constructorHeader {header : ConstructorHeader}
    (isBefore : ∀ parameter ∈ header.parameters, parameter.nameSpan.start.offset < high) :
    InOrder expressions place.scope true low high Anything state
      (bindConstructorHeader context place header) :=
  .past <| inOrder_parameters context isLater isBefore

theorem inOrder_catchParameter {parameter : Parameter}
    (isBefore : parameter.nameSpan.start.offset < high) :
    InOrder expressions place.scope true low high Anything state
      (bindCatchParameter context place parameter alternatives) :=
  .past <| .past <| inOrder_declareVariable ⟨rfl, .inl rfl⟩ isLater isBefore

theorem inOrder_variable {bound : BoundVariable} (isBefore : bound.nameSpan.start.offset < high) :
    InOrder expressions place.scope true low high Anything state
      (bindVariable context place bound) :=
  .past <| inOrder_declareVariable ⟨rfl, .inl rfl⟩ isLater isBefore

theorem inOrder_declareClass {header : TypeHeader}
    (isBefore : header.nameSpan.start.offset < high) :
    InOrder expressions place.scope true low high Anything state
      (declareClass place header key) := by
  let symbol : Symbol :=
    { name := header.name, kind := .type, type := .ofKey key, scope := place.scope
      span := header.nameSpan }
  have declared : InOrder expressions place.scope true low high Anything
      { state with locals := state.locals ++ [(header.name, key)] }
      (addSymbol symbol >>=
        bindName (declaringScope state.bindings.tree place.scope) symbol.name) :=
    inOrder_declare ⟨rfl, .inr rfl⟩ isLater fun _ => isBefore
  exact ⟨declared.run⟩

end Variables

/-! ### Members -/

section Members

variable (context : UnitContext) {place : Place} {key : String}
  (isType : state.bindings.tree.kind? place.scope = some (.type key))
include isType

theorem inOrder_declareField :
    InOrder expressions place.scope true low low Anything state
      (declareField place type modifiers hasInitializer name span constant) :=
  inOrder_declare ⟨rfl, .inl rfl⟩ le_rfl fun isLocal => absurd isType (isLocal key)

theorem inOrder_declareComponents :
    InOrder expressions place.scope true low low Anything state
      (declareComponents context place shape) := by
  cases shape with
  | record _ components _ =>
    refine .forM fun component _ later isLater => ?_
    refine .alike fun _ _ alike => ?_
    exact inOrder_declareField (alike.tree ▸ isLater.kind?_eq isType)
  | «class» | interface | enum | annotationType => exact .pure le_rfl trivial

theorem inOrder_declareMembers :
    InOrder expressions place.scope true low low Anything state
      (declareMembers context place members) := by
  refine .forM fun member _ later isLater => ?_
  cases member with
  | field => exact inOrder_declareField (isLater.kind?_eq isType)
  | method | type => exact (inOrder_addSymbol _ le_rfl).discard
  | constructor | initializer => exact .pure le_rfl trivial

theorem inOrder_declareConstants :
    InOrder expressions place.scope true low low Anything state
      (declareConstants context place owner constants) :=
  .forM fun _ _ _ isLater => inOrder_declareField (isLater.kind?_eq isType)

end Members

/-! ### Names -/

section Names

variable (context : UnitContext) {place : Place} {span : Span}

theorem inOrder_recordVariable {id : Nat} (isLater : low ≤ high)
    (isName : .name name id span ∈ expressions)
    (declared : state.bindings.Declares symbol fun declared offset => declared = name ∧ offset <
      span.start.offset) :
    InOrder expressions scope declares low high Anything state (record id (.variable symbol)) := by
  refine ⟨fun ready => ⟨?_, trivial⟩⟩
  have grows : Extends state.bindings ((record id (.variable symbol)).run state).2.bindings :=
    .of_symbols_eq (.refl _) rfl
  refine (ready.leads_of_tree_eq grows rfl fun other found isUse => ?_).mono isLater
  rcases mem_cons.mp isUse with isNew | isOld
  · cases isNew
    exact .inr ⟨name, span, isName, declared⟩
  · exact .inl isOld

theorem inOrder_assign {symbol : SymbolId} :
    InOrder expressions scope declares low low Anything state
      (modify fun state =>
        { state with
          bindings.symbols :=
            state.bindings.symbols.modify symbol (Symbol.assignedAt · span) }) :=
  ⟨fun ready => ⟨ready.leads_of_tree_eq ⟨.refl _, keeps_assigned rfl⟩ rfl
    fun _ _ isUse => .inl isUse, trivial⟩⟩

theorem inOrder_simpleName {id : Nat} (isLater : low ≤ high)
    (isName : .name name id span ∈ expressions) (isAfter : low ≤ span.start.offset) :
    InOrder expressions place.scope declares low high Anything state
      (bindSimpleName context place position name id span) := by
  have recorded : ∀ (symbol : SymbolId) (later : BinderState),
      (later.bindings.Declares symbol fun declared offset =>
        declared = name ∧ offset < span.start.offset) →
      InOrder expressions place.scope declares low high Anything later (do
        if position.isChange then
          modify fun state =>
            { state with
              bindings.symbols := state.bindings.symbols.modify symbol (Symbol.assignedAt · span) }
        record id (.variable symbol)) := by
    intro symbol later declared
    split
    · exact inOrder_assign.bind fun _ _ isLatest _ =>
        inOrder_recordVariable isLater isName (isLatest.declares _ _ declared)
    · exact inOrder_recordVariable isLater isName declared
  constructor
  intro ready
  refine InOrder.run ?_ ready
  refine .get_bind ?_
  dsimp only
  split
  · exact .neutral isLater
  case h_2 symbol captured isFound =>
    have declared : state.bindings.Declares symbol fun declared offset =>
        declared = name ∧ offset < span.start.offset := by
      obtain ⟨around, isAround, isLocal, isBound⟩ := exists_scope_of_findName isFound
      have isBound := ScopeTree.mem_boundIn_of_local? isBound
      have isNamed := ready.wellFormed.named around _ isBound
      have isBefore := ready.visible around isAround isLocal _ isBound
      exact (isNamed.and isBefore).imp fun _ _ passes => ⟨passes.1, passes.2.trans_le isAfter⟩
    split
    · refine .alike fun _ later alike => ?_
      have extended : Extends state.bindings later.bindings := alike.grows
      exact recorded symbol later (extended.declares _ _ declared)
    · exact recorded symbol state declared
  · exact .neutral isLater

end Names

end Binder

end JavaFrontEnd
