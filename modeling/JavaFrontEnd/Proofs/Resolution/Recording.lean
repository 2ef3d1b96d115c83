/-
What the walk that binds names leaves on record about the types in headers. Each step that binds a
type records what it denotes at the place of the step, and later steps forget nothing. So the walk
covers the listing of a class when it has gone through its header and its members.
-/

import JavaFrontEnd.Proofs.Resolution.Covering

namespace JavaFrontEnd

open List

namespace Binder

open Comparison
open Site (Found)

variable {α β : Type}

/-- After a step it is on record what a written type denotes in a scope with the local classes of
the state. -/
def Writes (walks : Comparison) (scope : NameScope) (written : WrittenType)
    (step : Binder α) : Prop :=
  ∀ state, walks.Records (step.run state).2.bindings.writtenTypes
    { scope with locals := state.locals } written

section Writes

variable {walks : Comparison} {scope : NameScope} {written : WrittenType} {step : Binder α}
  {next : α → Binder β} {visits : List Visit}

theorem Writes.bind (writes : Writes walks scope written step)
    (grows : ∀ {value}, Grows walks visits (next value)) :
    Writes walks scope written (step >>= next) :=
  fun state => (writes state).mono (grows.writtenTypes _).suffix

theorem Writes.after (writes : Writes walks scope written step)
    [∀ value, Quiet walks.context (next value)] : Writes walks scope written (step >>= next) :=
  writes.bind .quiet

theorem Grows.bindWrites (grows : Grows walks visits step)
    (writes : ∀ {value}, Writes walks scope written (next value)) :
    Writes walks scope written (step >>= next) :=
  fun state => (writes _).withLocals (grows.locals rfl state)

theorem Writes.past [Quiet walks.context step]
    (writes : ∀ {value}, Writes walks scope written (next value)) :
    Writes walks scope written (step >>= next) :=
  Grows.bindWrites .quiet writes

theorem Writes.discard (writes : Writes walks scope written step) :
    Writes walks scope written (discard step) :=
  writes

theorem Writes.forM {step : α → Binder PUnit} [∀ value, Quiet walks.context (step value)]
    {values : List α} (isValue : value ∈ values)
    (writes : Writes walks scope written (step value)) :
    Writes walks scope written (values.forM step) := by
  induction values with
  | nil => cases isValue
  | cons first rest ih =>
    rcases mem_cons.mp isValue with rfl | isRest
    · exact writes.after
    · exact .past <| ih isRest

theorem Writes.inScope
    (inside : ∀ inner, Writes walks scope written (body { place with scope := inner })) :
    Writes walks scope written (inScope kind place body) :=
  fun state => inside state.bindings.tree.size
    { state with bindings.tree := state.bindings.tree.push kind (some place.scope) }

end Writes

/-! ### Types in headers -/

section Headers

variable (walks : Comparison) (place : Place) {parameter : Parameter}

theorem writes_bindTypeChecked (checksRaw : Bool) (written : WrittenType) :
    Writes walks (place.nameScope []) written
      (bindTypeChecked walks.context place checksRaw written) := by
  intro state
  refine ⟨state.locals, rfl, ?_⟩
  rw [writtenTypes_bindTypeChecked]
  exact mem_cons_self

theorem writes_bindType (written : WrittenType) :
    Writes walks (place.nameScope []) written (bindType walks.context place written) :=
  writes_bindTypeChecked walks place true written

theorem writes_bindTypes {written : WrittenType} {types : List WrittenType}
    (isType : written ∈ types) :
    Writes walks (place.nameScope []) written (bindTypes walks.context place types) :=
  .forM isType (writes_bindType walks place written).discard

theorem writes_bindParameterType (parameter : Parameter) :
    Writes walks (place.nameScope []) parameter.type
      (bindParameterType walks.context place parameter) :=
  (writes_bindType walks place parameter.type).after

theorem writes_bindParameters {parameters : List Parameter} (isParameter : parameter ∈ parameters) :
    Writes walks (place.nameScope []) parameter.type
      (parameters.forM (bindParameter walks.context place)) :=
  .forM isParameter (writes_bindParameterType walks place parameter).after

theorem writes_bindHeader {header : TypeHeader} (isSupertype : written ∈ header.shape.supertypes) :
    Writes walks (place.nameScope []) written (bindHeader walks.context place header) :=
  .past <| (writes_bindTypes walks place isSupertype).after

theorem writes_declareComponents {shape : TypeShape} {component : Parameter}
    (isComponent : component ∈ shape.components) :
    Writes walks (place.nameScope []) component.type
      (declareComponents walks.context place shape) := by
  cases shape with
  | record _ components _ =>
    exact .forM isComponent (writes_bindParameterType walks place component).after
  | «class» | interface | enum | annotationType => cases isComponent

theorem writes_bindMethodHeader {header : MethodHeader}
    (isParameter : parameter ∈ header.parameters) :
    Writes walks (place.nameScope []) parameter.type
      (bindMethodHeader walks.context place header) :=
  .past <| .past <| .past <| writes_bindParameters walks place isParameter

theorem writes_bindConstructorHeader {header : ConstructorHeader}
    (isParameter : parameter ∈ header.parameters) :
    Writes walks (place.nameScope []) parameter.type
      (bindConstructorHeader walks.context place header) :=
  .past <| writes_bindParameters walks place isParameter

theorem nameScope_withVariables_inPart (parameters : List TypeParameter) (part : BodyPart) :
    ((place.withVariables parameters).inPart part).nameScope [] =
      (place.nameScope []).withVariables (parameters.map TypeParameter.name) := by
  unfold Place.nameScope
  rw [frames_inPart]
  rfl

end Headers

/-! ### Classes -/

theorem Covers.declared {walks : Comparison} {listing : Site.Place} {place : Place}
    {body : SiteBody} {kind : ScopeKind} {frame : Frame} {node : ClassNode} (inside : Found → Found)
    (step : Place → Binder α) (isNode : node.offset = body.offset)
    (isKind : kind.typeKey? = some frame.key)
    (isKey : frame.key = walks.context.keyAt body.offset substitute)
    (areParameters : frame.typeParameters = ((walks.context.path.type? frame.key).map
      KnownType.typeParameters).getD [])
    (covered : ∀ {scope}, Covers walks false visits inside (step { place.inside frame with scope })
      (walks.SameScope (listing.inside key body.typeParameters) (place.inside frame)))
    (writes : ∀ {scope}, ∀ entry ∈ body.signatureTypes, Writes walks
      (((place.inside frame).nameScope []).withVariables entry.1) entry.2
        (step { place.inside frame with scope })) :
    Covers walks false (⟨node, true⟩ :: visits)
      (fun found => (inside (found.add listing key body outer isLocal)).leaving found)
      (Binder.inScope kind (place.inside frame) step) (walks.SameScope listing place) where
  opens := .inScope [⟨node, true⟩] (isKind ▸ .cons ⟨substitute, isNode ▸ isKey⟩ .nil) fun _ =>
    covered.opens
  writtenTypes state := covered.writtenTypes
    { state with
      bindings.tree := state.bindings.tree.push kind (some (place.inside frame).scope) }
  locals _ _ := rfl
  listedLocals _ _ := rfl
  resolves found state := by
    let entered : BinderState :=
      { state with
        bindings.tree := state.bindings.tree.push kind (some (place.inside frame).scope) }
    let own : Site :=
      { key, file := listing.file, unit := listing.unit, body, outer, isLocal
        scope :=
          { enclosing := listing.enclosing, typeVariables := listing.typeVariables
            locals := found.locals } }
    obtain ⟨added, isAdded, resolved⟩ := covered.resolves
      (found.add listing key body outer isLocal) entered
    refine ⟨added ++ [own], ?_, fun isSame registered sameLocals => ⟨sameLocals, ?_⟩⟩
    · show (inside (found.add listing key body outer isLocal)).sites = _
      rw [isAdded, append_assoc]
      rfl
    have isRegistered := registered own (mem_append_right _ mem_cons_self)
    have sameInside := sameScope_inside isRegistered isKey areParameters isSame
    intro site isSite
    rcases mem_append.mp isSite with isInside | isOwn
    · exact (resolved sameInside
        (fun site isSite => registered site (mem_append_left _ isSite)) sameLocals).2 site isInside
    · obtain rfl := mem_singleton.mp isOwn
      refine ⟨isSame.1, fun areSole entry isEntry => ?_⟩
      have records :=
        (@writes state.bindings.tree.size entry isEntry entered).withLocals sameLocals
      have isScope : ((place.inside frame).nameScope []).withVariables entry.1 =
          { own.bodyScope.withVariables entry.1 with locals := [] } := by
        unfold Place.nameScope
        rw [sameInside.2.1, sameInside.2.2 areSole]
        rfl
      rw [isScope] at records
      exact records

end Binder

end JavaFrontEnd
