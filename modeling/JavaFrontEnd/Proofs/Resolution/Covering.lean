/-
The walk that binds the names of a unit, beside the walk that lists its classes. A step of the first
covers a step of the second if it comes by every class that the latter lists, with the same types,
type variables and local classes in scope, and leaves on record what the types in the headers of the
class and of its members denote there. This is so wherever the key of a class is registered for its
offset; nothing is said about local classes with the names of loose ones. The step also makes a
scope for each class in its part of the unit, in the order of the list of classes.
-/

import JavaFrontEnd.Proofs.QuietSteps
import JavaFrontEnd.Proofs.Resolution.Table
import Mathlib.Data.List.Forall2

namespace JavaFrontEnd

open List

/-! Local classes and the scopes in which they can be named. The walk that lists the classes of a
unit and the walk that binds its names do not end every scope at the same place: the list keeps the
classes of a `try` block in scope for its `catch` clauses and those of a case for the cases after
it, and it knows no classes of the blocks inside expressions. Such local classes are loose; about
all others the two walks agree. -/

section

/-! ### Loose local classes -/

namespace LooseClass

/-- With a place stands whether a local class may be there without being loose, and whether it would
be listed. -/
instance : Visit.ClassList String (Bool × Bool) where
  type _ inside := inside
  body _ inside := inside
  localClass place declaration inside :=
    (if place.1 && place.2 then [] else [declaration.name]) ++ inside
  aside inside := inside
  inMember := (true, true)
  inExpression := (false, false)
  inBlock place := (true, place.2)
  below place := (false, place.2)

end LooseClass

variable {names : List String} {name : String}

def CompilationUnit.looseClasses (unit : CompilationUnit) : List String :=
  unit.types.flatMap Visit.ofDeclaration

/-! ### Local classes in scope -/

def otherLocals (names : List String) (locals : List (String × String)) : List (String × String) :=
  locals.filter fun entry => !names.contains entry.1

theorem otherLocals_append (names : List String) (first second : List (String × String)) :
    otherLocals names (first ++ second) = otherLocals names first ++ otherLocals names second :=
  filter_append ..

theorem otherLocals_append_of_mem (isName : name ∈ names) (locals : List (String × String))
    (key : String) : otherLocals names (locals ++ [(name, key)]) = otherLocals names locals := by
  have isLeftOut : otherLocals names [(name, key)] = [] := by
    unfold otherLocals
    rw [filter_cons, if_neg]
    · rfl
    · simpa using isName
  rw [otherLocals_append, isLeftOut, append_nil]

theorem lookup_filter {entries : List (String × String)}
    (isKept : ∀ key, keeps (name, key) = true) :
    (entries.filter keeps).lookup name = entries.lookup name := by
  induction entries with
  | nil => rfl
  | cons entry rest ih =>
    obtain ⟨other, key⟩ := entry
    rw [filter_cons, lookup_cons]
    by_cases isName : name = other
    · subst isName
      rw [if_pos (isKept key), lookup_cons, beq_self_eq_true]
    · rw [beq_eq_false_iff_ne.mpr isName]
      split
      · rw [lookup_cons, beq_eq_false_iff_ne.mpr isName]
        exact ih
      · exact ih

theorem lookup_eq_of_otherLocals_eq (same : otherLocals names first = otherLocals names second)
    (isOther : name ∉ names) : first.reverse.lookup name = second.reverse.lookup name := by
  have inOthers : ∀ locals : List (String × String),
      (otherLocals names locals).reverse.lookup name = locals.reverse.lookup name := by
    intro locals
    unfold otherLocals
    rw [← filter_reverse]
    exact lookup_filter fun _ => by simpa using isOther
  rw [← inOthers first, same, inOthers]

end

/-! ### The types in headers -/

def TypeShape.components : TypeShape → List Parameter
  | .record _ components _ => components
  | .class .. | .interface .. | .enum .. | .annotationType => []

/-- The types in the header of a member of which its class keeps what they denote, each with the
type variables that the member declares. -/
def Member.signatureTypes : Member → List (List String × WrittenType)
  | .field header _ => [([], header.type)]
  | .method header _ _ => header.parameters.map fun parameter =>
      (header.typeParameters.map TypeParameter.name, parameter.type)
  | .constructor header _ _ => header.parameters.map fun parameter =>
      (header.typeParameters.map TypeParameter.name, parameter.type)
  | .initializer .. | .type _ => []

namespace SiteBody

def headerTypes (body : SiteBody) : List WrittenType :=
  (body.shape?.map fun shape => shape.supertypes ++ shape.components.map Parameter.type).getD []

def signatureTypes (body : SiteBody) : List (List String × WrittenType) :=
  body.headerTypes.map (([], ·)) ++ body.members.flatMap Member.signatureTypes

end SiteBody

theorem NameScope.withVariables_nil (scope : NameScope) : scope.withVariables [] = scope := by
  unfold NameScope.withVariables
  rw [append_nil]

theorem UnitContext.keyAt_of_keyAt? {context : UnitContext}
    (found : context.keyAt? offset = some key) (substitute : String) :
    context.keyAt offset substitute = key := by
  rw [UnitContext.keyAt, found, Option.getD_some]

/-! ### Two walks over a unit -/

structure Comparison where
  context : UnitContext
  unit : CompilationUnit
  /-- The names of the local classes about which nothing is said. -/
  loose : List String
  sole : String → Prop

namespace Comparison

variable (walks : Comparison)

/-- What a written type denotes in a scope is on record, as far as the local classes in scope are
the same. -/
def Records (types : List (Nat × Ty)) (scope : NameScope) (written : WrittenType) : Prop :=
  ∃ locals, otherLocals walks.loose locals = otherLocals walks.loose scope.locals ∧
    (written.span.start.offset,
      (walks.context.names.written { scope with locals } written).type) ∈ types

/-- A listed class is found by its offset, and its type parameters are known. -/
structure Registered (site : Site) : Prop where
  keyAt? : walks.context.keyAt? site.body.offset = some site.key
  typeParameters : walks.sole site.key →
    ((walks.context.path.type? site.key).map KnownType.typeParameters).getD [] =
      site.body.typeParameters

/-- The types in the headers of a listed class are on record as they are seen inside the class. -/
structure Resolved (types : List (Nat × Ty)) (site : Site) : Prop where
  unit : site.unit = walks.unit
  records : (∀ key ∈ site.scope.enclosing ++ [site.key], walks.sole key) →
    ∀ entry ∈ site.body.signatureTypes,
      walks.Records types (site.bodyScope.withVariables entry.1) entry.2

/-- The two walks are inside the same types, and see the same type variables. -/
def SameScope (listing : Site.Place) (place : Binder.Place) : Prop :=
  listing.unit = walks.unit ∧ (place.frames.map Frame.key).reverse = listing.enclosing ∧
    ((∀ key ∈ listing.enclosing, walks.sole key) → place.typeVariables = listing.typeVariables)

variable {walks} {types more : List (Nat × Ty)} {written : WrittenType} {place : Binder.Place}
  {listing : Site.Place}

theorem Records.mono (records : walks.Records types scope written) (grown : types <:+ more) :
    walks.Records more scope written := by
  obtain ⟨locals, same, isRecord⟩ := records
  exact ⟨locals, same, grown.subset isRecord⟩

theorem Records.withLocals (records : walks.Records types scope written)
    (same : otherLocals walks.loose scope.locals = otherLocals walks.loose locals) :
    walks.Records types { scope with locals } written := by
  obtain ⟨recorded, sameRecorded, isRecord⟩ := records
  exact ⟨recorded, sameRecorded.trans same, isRecord⟩

theorem Resolved.mono (resolved : walks.Resolved types site) (grown : types <:+ more) :
    walks.Resolved more site where
  unit := resolved.unit
  records areSole entry isEntry := (resolved.records areSole entry isEntry).mono grown

/-! ### Places -/

theorem frames_inPart (place : Binder.Place) (part : BodyPart) :
    (place.inPart part).frames.map Frame.key = place.frames.map Frame.key := by
  unfold Binder.Place.inPart
  cases place.frames <;> rfl

theorem sameScope_inPart (part : BodyPart) (isSame : walks.SameScope listing place) :
    walks.SameScope listing (place.inPart part) := by
  obtain ⟨isUnit, enclosing, sameVariables⟩ := isSame
  exact ⟨isUnit, by rw [frames_inPart, enclosing], sameVariables⟩

theorem frames_initializing (place : Binder.Place) (name : String) :
    (place.initializing name).frames.map Frame.key = place.frames.map Frame.key ∧
      (place.initializing name).typeVariables = place.typeVariables := by
  unfold Binder.Place.initializing
  cases isFrames : place.frames with
  | nil => exact ⟨by rw [isFrames], rfl⟩
  | cons => exact ⟨rfl, rfl⟩

theorem sameScope_initializing (name : String) (isSame : walks.SameScope listing place) :
    walks.SameScope listing (place.initializing name) := by
  obtain ⟨isUnit, enclosing, sameVariables⟩ := isSame
  obtain ⟨sameFrames, kept⟩ := frames_initializing place name
  exact ⟨isUnit, by rw [sameFrames, enclosing], fun areSole => by
    rw [kept, sameVariables areSole]⟩

theorem sameScope_withVariables (parameters : List TypeParameter)
    (isSame : walks.SameScope listing place) :
    walks.SameScope (listing.withVariables parameters) (place.withVariables parameters) := by
  obtain ⟨isUnit, enclosing, sameVariables⟩ := isSame
  exact ⟨isUnit, enclosing, fun areSole => congrArg (· ++ _) (sameVariables areSole)⟩

theorem sameScope_inside (registered : walks.Registered site) {frame : Frame}
    (isKey : frame.key = walks.context.keyAt site.body.offset substitute)
    (areParameters : frame.typeParameters = ((walks.context.path.type? frame.key).map
      KnownType.typeParameters).getD []) (isSame : walks.SameScope listing place) :
    walks.SameScope (listing.inside site.key site.body.typeParameters) (place.inside frame) := by
  obtain ⟨isUnit, enclosing, sameVariables⟩ := isSame
  have sameKey : frame.key = site.key := by
    rw [isKey]
    unfold UnitContext.keyAt
    rw [registered.keyAt?, Option.getD_some]
  refine ⟨isUnit, ?_, fun areSole => ?_⟩
  · show (frame.key :: place.frames.map Frame.key).reverse = listing.enclosing ++ [site.key]
    rw [reverse_cons, enclosing, sameKey]
  · have ownSole := areSole site.key (mem_append_right _ mem_cons_self)
    show place.typeVariables ++ frame.typeParameters =
      listing.typeVariables ++ site.body.typeParameters
    rw [areParameters, sameKey, registered.typeParameters ownSole,
      sameVariables fun key isOuter => areSole key (mem_append_left _ isOuter)]

end Comparison

namespace Binder

open Comparison
open Site (Found)

variable {α β : Type}

/-! ### Steps that make the scopes of classes -/

/-- A type scope is that of a class: its key is registered for the offset of the class, or it is
made up. -/
def IsKeyOf (context : UnitContext) (visit : Visit) (key : String) : Prop :=
  ∃ substitute, key = context.keyAt visit.node.offset substitute

/-- A step makes one type scope for each of some classes, in their order, and forgets no symbol. -/
structure Opens (context : UnitContext) (step : Binder α) (visits : List Visit) : Prop where
  keeps : ∀ state, Bindings.Keeps state.bindings (step.run state).2.bindings
  exists_keys : ∀ state, ∃ keys,
    typeKeys (step.run state).2 = typeKeys state ++ keys ∧
      Forall₂ (IsKeyOf context) visits keys

section Opens

variable {context : UnitContext} {step : Binder α} {next : α → Binder β}
  {visits more : List Visit}

theorem Opens.quiet [quiet : Quiet context step] : Opens context step [] :=
  ⟨quiet.keeps, fun state => ⟨[], by rw [quiet.typeKeys_run, append_nil], .nil⟩⟩

theorem Opens.bind (first : Opens context step visits)
    (second : ∀ {value}, Opens context (next value) more) :
    Opens context (step >>= next) (visits ++ more) := by
  refine ⟨fun state symbol test =>
    second.keeps _ symbol test ∘ first.keeps state symbol test, fun state => ?_⟩
  obtain ⟨keys, grown, listed⟩ := first.exists_keys state
  obtain ⟨later, grownLater, listedLater⟩ := second.exists_keys (step.run state).2
  refine ⟨keys ++ later, ?_, rel_append listed listedLater⟩
  rw [← append_assoc, ← grown]
  exact grownLater

theorem Opens.unkeyed (opens : Opens context step visits) :
    Opens context step (visits.map Visit.unkeyed) := by
  refine ⟨opens.keeps, fun state => ?_⟩
  obtain ⟨keys, grown, listed⟩ := opens.exists_keys state
  exact ⟨keys, grown, forall₂_map_left_iff.mpr listed⟩

theorem Opens.inScope {kind : ScopeKind} (opened : List Visit)
    (isOpened : Forall₂ (IsKeyOf context) opened kind.typeKey?.toList)
    (inside : ∀ scope, Opens context (body { place with scope }) visits) :
    Opens context (inScope kind place body) (opened ++ visits) := by
  refine ⟨fun state => (inside state.bindings.tree.size).keeps
    { state with bindings.tree := state.bindings.tree.push kind (some place.scope) },
    fun state => ?_⟩
  obtain ⟨keys, grown, listed⟩ := (inside state.bindings.tree.size).exists_keys
    { state with bindings.tree := state.bindings.tree.push kind (some place.scope) }
  refine ⟨kind.typeKey?.toList ++ keys, ?_, rel_append isOpened listed⟩
  have pushed := ScopeTree.typeKeys_push state.bindings.tree kind (some place.scope)
  rw [← append_assoc]
  exact grown.trans (congrArg (· ++ keys) pushed)

end Opens

/-! ### Steps that cover a listing -/

/-- A step covers a step of the listing: it comes by every class that is listed. Unless `moves` is
set, neither step changes which local classes are in scope. -/
structure Covers (walks : Comparison) (moves : Bool) (visits : List Visit)
    (listing : Found → Found) (step : Binder α) (isSame : Prop) : Prop where
  opens : Opens walks.context step visits
  writtenTypes : ∀ state,
    Logs walks.context state.bindings.writtenTypes (step.run state).2.bindings.writtenTypes
  locals : moves = false → ∀ state,
    otherLocals walks.loose (step.run state).2.locals = otherLocals walks.loose state.locals
  listedLocals : moves = false → ∀ found,
    otherLocals walks.loose (listing found).locals = otherLocals walks.loose found.locals
  resolves : ∀ found state, ∃ added, (listing found).sites = added ++ found.sites ∧
    (isSame → (∀ site ∈ added, walks.Registered site) →
      otherLocals walks.loose state.locals = otherLocals walks.loose found.locals →
      otherLocals walks.loose (step.run state).2.locals =
          otherLocals walks.loose (listing found).locals ∧
        ∀ site ∈ added, walks.Resolved (step.run state).2.bindings.writtenTypes site)

/-- A step forgets no written type and leaves the local classes in scope, apart from those with
some names. -/
abbrev Grows (walks : Comparison) (visits : List Visit) (step : Binder α) : Prop :=
  Covers walks false visits (fun found => found) step True

section Covers

variable {walks : Comparison} {moves : Bool} {isSame other : Prop} {visits more : List Visit}
  {listing later : Found → Found} {step : Binder α} {next : α → Binder β}

theorem Covers.quiet [quiet : Quiet walks.context step] :
    Covers walks moves [] (fun found => found) step isSame where
  opens := .quiet
  writtenTypes := quiet.writtenTypes_run
  locals _ state := congrArg (otherLocals walks.loose) (quiet.locals_run state)
  listedLocals _ _ := rfl
  resolves _ state := by
    refine ⟨[], rfl, fun _ _ same => ⟨?_, forall_mem_nil _⟩⟩
    rwa [quiet.locals_run]

theorem Covers.pure (value : α) :
    Covers walks moves [] (fun found => found) (Pure.pure value) isSame :=
  .quiet

theorem Covers.grows (covers : Covers walks false visits listing step isSame) :
    Grows walks visits step where
  __ := covers
  listedLocals _ _ := rfl
  resolves _ state :=
    ⟨[], rfl, fun _ _ same => ⟨(covers.locals rfl state).trans same, forall_mem_nil _⟩⟩

theorem Covers.loosen (covers : Covers walks false visits listing step isSame) :
    Covers walks moves visits listing step isSame :=
  ⟨covers.opens, covers.writtenTypes, fun _ => covers.locals rfl,
    fun _ => covers.listedLocals rfl, covers.resolves⟩

theorem Covers.mono (covers : Covers walks moves visits listing step isSame)
    (isWeaker : other → isSame) :
    Covers walks moves visits listing step other where
  __ := covers
  resolves found state := by
    obtain ⟨added, isAdded, resolved⟩ := covers.resolves found state
    exact ⟨added, isAdded, fun isOther => resolved (isWeaker isOther)⟩

theorem Covers.anywhere (grows : Covers walks false visits listing step True) :
    Covers walks moves visits listing step isSame :=
  grows.loosen.mono fun _ => trivial

theorem Covers.unkeyed (covers : Covers walks moves visits listing step isSame) :
    Covers walks moves (visits.map Visit.unkeyed) listing step isSame :=
  { covers with opens := covers.opens.unkeyed }

theorem Covers.discard (covers : Covers walks moves visits listing step isSame) :
    Covers walks moves visits listing (discard step) isSame :=
  { covers with opens := ⟨covers.opens.keeps, covers.opens.exists_keys⟩ }

theorem Covers.bind (first : Covers walks moves visits listing step isSame)
    (second : ∀ {value}, Covers walks moves more later (next value) isSame) :
    Covers walks moves (visits ++ more) (fun found => later (listing found))
      (step >>= next) isSame where
  opens := first.opens.bind second.opens
  writtenTypes state := (first.writtenTypes state).trans (second.writtenTypes _)
  locals stays state := (second.locals stays _).trans (first.locals stays state)
  listedLocals stays found :=
    ((@second (step.run {}).1).listedLocals stays _).trans (first.listedLocals stays found)
  resolves found state := by
    obtain ⟨added, isAdded, resolved⟩ := first.resolves found state
    obtain ⟨further, isFurther, resolvedMore⟩ :=
      (@second (step.run state).1).resolves (listing found) (step.run state).2
    refine ⟨further ++ added, by rw [isFurther, isAdded, append_assoc],
      fun same registered sameLocals => ?_⟩
    obtain ⟨sameBetween, areResolved⟩ := resolved same
      (fun site isSite => registered site (mem_append_right _ isSite)) sameLocals
    obtain ⟨sameAfter, moreResolved⟩ := resolvedMore same
      (fun site isSite => registered site (mem_append_left _ isSite)) sameBetween
    refine ⟨sameAfter, fun site isSite => ?_⟩
    rcases mem_append.mp isSite with isFurther | isAdded
    · exact moreResolved site isFurther
    · exact (areResolved site isAdded).mono (second.writtenTypes _).suffix

theorem Covers.andThen (first : Covers walks moves visits listing step isSame)
    (second : ∀ {value}, Grows walks more (next value)) :
    Covers walks moves (visits ++ more) listing (step >>= next) isSame :=
  first.bind second.anywhere

theorem Grows.andThen (first : Grows walks visits step)
    (second : ∀ {value}, Covers walks moves more listing (next value) isSame) :
    Covers walks moves (visits ++ more) listing (step >>= next) isSame :=
  first.anywhere.bind second

theorem Covers.past [Quiet walks.context step]
    (second : ∀ {value}, Covers walks moves visits listing (next value) isSame) :
    Covers walks moves visits listing (step >>= next) isSame :=
  Covers.quiet.bind second

theorem Covers.after (first : Covers walks moves visits listing step isSame)
    [∀ value, Quiet walks.context (next value)] :
    Covers walks moves visits listing (step >>= next) isSame := by
  rw [← append_nil visits]
  exact first.bind .quiet

/-- One step may come by what is listed in two steps, if these do not change the scope. -/
theorem Covers.both (first : Covers walks false visits listing step isSame)
    (second : Covers walks false visits later step isSame) :
    Covers walks false visits (fun found => later (listing found)) step isSame where
  __ := first
  listedLocals stays found :=
    (second.listedLocals stays _).trans (first.listedLocals stays found)
  resolves found state := by
    obtain ⟨added, isAdded, resolved⟩ := first.resolves found state
    obtain ⟨further, isFurther, resolvedMore⟩ := second.resolves (listing found) state
    refine ⟨further ++ added, by rw [isFurther, isAdded, append_assoc],
      fun same registered sameLocals => ?_⟩
    obtain ⟨-, areResolved⟩ := resolved same
      (fun site isSite => registered site (mem_append_right _ isSite)) sameLocals
    obtain ⟨sameAfter, moreResolved⟩ := resolvedMore same
      (fun site isSite => registered site (mem_append_left _ isSite))
      (sameLocals.trans (first.listedLocals rfl found).symm)
    refine ⟨sameAfter, fun site isSite => ?_⟩
    exact (mem_append.mp isSite).elim (moreResolved site) (areResolved site)

theorem Covers.swapped (first : Covers walks false visits later step isSame)
    (second : ∀ {value}, Covers walks false more listing (next value) isSame) :
    Covers walks false (visits ++ more) (fun found => later (listing found))
      (step >>= next) isSame :=
  (first.grows.andThen second).both (first.andThen second.grows)

/-- A class may be listed under a key that depends on what was listed before. -/
theorem Covers.keyed {run : String → Found → Found} (keyOf : Found → String)
    (each : ∀ key, Covers walks moves visits (run key) step isSame) :
    Covers walks moves visits (fun found => run (keyOf found) found) step isSame where
  __ := each ""
  listedLocals stays found := (each (keyOf found)).listedLocals stays found
  resolves found := (each (keyOf found)).resolves found

theorem Covers.leaving (covers : Covers walks false visits listing step isSame) :
    Covers walks false visits (fun found => (listing found).leaving found) step isSame where
  __ := covers
  listedLocals _ _ := rfl
  resolves found state := by
    obtain ⟨added, isAdded, resolved⟩ := covers.resolves found state
    refine ⟨added, isAdded, fun same registered sameLocals => ?_⟩
    exact ⟨(covers.locals rfl state).trans sameLocals, (resolved same registered sameLocals).2⟩

/-! ### Scopes -/

variable {kind : ScopeKind} {place : Place} {body : Place → Binder α}

theorem Covers.scoped
    (inside : ∀ {scope}, Covers walks moves visits listing (body { place with scope }) isSame)
    (sites : ∀ found, (run found).sites = (listing found).sites)
    (sameLocals : ∀ found, otherLocals walks.loose (run found).locals = otherLocals walks.loose
      found.locals) (noType : kind.typeKey? = none) :
    Covers walks false visits run (inScope kind place body) isSame where
  opens := .inScope [] (noType ▸ .nil) fun _ => inside.opens
  writtenTypes state := inside.writtenTypes
    { state with bindings.tree := state.bindings.tree.push kind (some place.scope) }
  locals _ _ := rfl
  listedLocals _ := sameLocals
  resolves found state := by
    obtain ⟨added, isAdded, resolved⟩ := inside.resolves found
      { state with bindings.tree := state.bindings.tree.push kind (some place.scope) }
    refine ⟨added, (sites found).trans isAdded, fun same registered isSameBefore => ?_⟩
    exact ⟨isSameBefore.trans (sameLocals found).symm, (resolved same registered isSameBefore).2⟩

theorem Covers.leavingScope
    (inside : ∀ {scope}, Covers walks moves visits listing (body { place with scope }) isSame)
    (noType : kind.typeKey? = none := by exact rfl) :
    Covers walks false visits (fun found => (listing found).leaving found)
      (inScope kind place body) isSame :=
  .scoped inside (fun _ => rfl) (fun _ => rfl) noType

theorem Covers.inScope
    (inside : ∀ {scope}, Covers walks false visits listing (body { place with scope }) isSame)
    (noType : kind.typeKey? = none := by exact rfl) :
    Covers walks false visits listing (inScope kind place body) isSame :=
  .scoped inside (fun _ => rfl) ((@inside 0).listedLocals rfl) noType

theorem Covers.withSymbols
    (inside : ∀ {scope}, Covers walks false visits listing (body { place with scope }) isSame) :
    Covers walks false visits listing (withSymbols place symbols body) isSame := by
  unfold Binder.withSymbols
  split
  · exact inside
  · exact .inScope <| .past inside

end Covers

end Binder

end JavaFrontEnd
