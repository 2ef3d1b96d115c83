/-
The walk that binds the names of a unit covers the walk that lists its classes. Both follow the
tree, but not in the same order: the listing goes through the expressions of some statements before
the statements in them. This makes no difference, since only statements in a block bring local
classes into scope, loose classes apart.
-/

import JavaFrontEnd.Proofs.Resolution.Recording

namespace JavaFrontEnd

open List

open Site (left right)

namespace Binder

open Comparison
open Site (Found)

/-! ### Local classes -/

section LocalClasses

variable {α : Type} {walks : Comparison} {isSame : Prop} {run : Found → Found} {step : Binder α}
  {name : String} {visits : List Visit}

theorem opens_declareClass (context : UnitContext) (place : Place) (header : TypeHeader)
    (key : String) : Opens context (declareClass place header key) [] := by
  have comesIntoScope : Opens context
      (modify fun state => { state with locals := state.locals ++ [(header.name, key)] }) [] :=
    ⟨fun _ => .of_symbols_eq rfl, fun _ => ⟨[], (append_nil _).symm, .nil⟩⟩
  exact comesIntoScope.bind .quiet

theorem grows_declareClass {header : TypeHeader} (isLoose : header.name ∈ walks.loose)
    (place : Place) (key : String) : Grows walks [] (declareClass place header key) where
  opens := opens_declareClass ..
  writtenTypes _ := .refl
  locals _ state := otherLocals_append_of_mem isLoose state.locals key
  listedLocals _ _ := rfl
  resolves _ state := ⟨[], rfl, fun _ _ same =>
    ⟨(otherLocals_append_of_mem isLoose state.locals key).trans same, forall_mem_nil _⟩⟩

theorem Covers.withLoose (isLoose : name ∈ walks.loose) (key : String)
    (covers : Covers walks false visits run step isSame) :
    Covers walks false visits
      (fun found => run { found with locals := found.locals ++ [(name, key)] }) step isSame where
  __ := covers
  listedLocals _ found :=
    (covers.listedLocals rfl _).trans (otherLocals_append_of_mem isLoose found.locals key)
  resolves found state := by
    obtain ⟨added, isAdded, resolved⟩ := covers.resolves
      { found with locals := found.locals ++ [(name, key)] } state
    refine ⟨added, isAdded, fun same registered sameLocals => resolved same registered ?_⟩
    exact sameLocals.trans (otherLocals_append_of_mem isLoose found.locals key).symm

theorem exists_sites_ofDeclaration (listing : Site.Place) (key : String) (outer : Option String)
    (isLocal : Bool) (declaration : TypeDeclaration) (found : Found) :
    ∃ more own, (Site.ofDeclaration listing key outer isLocal declaration found).sites =
      more ++ own :: found.sites ∧ own.key = key ∧
        own.body.offset = declaration.header.nameSpan.start.offset := by
  rw [Site.ofDeclaration_eq]
  obtain ⟨inside, isInside, _⟩ := (Site.course_inside listing key declaration).adds
    (found.add listing key (.named declaration) outer isLocal)
  exact ⟨inside, _, isInside, rfl, rfl⟩

theorem Covers.withLocal {substitute : String} (place : Place) (header : TypeHeader)
    (isListed : ∀ found, ∃ more own, (run found).sites = more ++ own :: found.sites ∧ own.key = key
      ∧ own.body.offset = offset) (covers : Covers walks false visits run step isSame) :
    Covers walks true visits
      (fun found => run { found with locals := found.locals ++ [(header.name, key)] })
      (declareClass place header (walks.context.keyAt offset substitute) >>= fun _ => step)
      isSame where
  opens := (opens_declareClass ..).bind covers.opens
  writtenTypes state := covers.writtenTypes
    ((declareClass place header (walks.context.keyAt offset substitute)).run state).2
  locals := nofun
  listedLocals := nofun
  resolves found state := by
    obtain ⟨added, isAdded, resolved⟩ := covers.resolves
      { found with locals := found.locals ++ [(header.name, key)] }
      ((declareClass place header (walks.context.keyAt offset substitute)).run state).2
    refine ⟨added, isAdded, fun same registered sameLocals => resolved same registered ?_⟩
    obtain ⟨more, own, isOwn, rfl, isOffset⟩ := isListed
      { found with locals := found.locals ++ [(header.name, key)] }
    have areAdded : added = more ++ [own] := by
      have sameSites := isAdded.symm.trans (isOwn.trans (append_cons ..))
      exact append_cancel_right sameSites
    have isRegistered := registered own (by
      rw [areAdded]
      exact mem_append_right _ mem_cons_self)
    have sameKey := isRegistered.keyAt?
    rw [isOffset] at sameKey
    show otherLocals walks.loose
        (state.locals ++ [(header.name, walks.context.keyAt offset substitute)]) =
      otherLocals walks.loose (found.locals ++ [(header.name, own.key)])
    rw [UnitContext.keyAt_of_keyAt? sameKey, otherLocals_append, otherLocals_append, sameLocals]

end LocalClasses

/-- A step at a place covers one of the listing inside the same types. -/
abbrev CoversAt {α : Type} (walks : Comparison) (moves : Bool) (listing : Site.Place)
    (place : Place) (visits : List Visit) (run : Found → Found) (step : Binder α) : Prop :=
  Covers walks moves visits run step (walks.SameScope listing place)

theorem covers_scope {walks : Comparison} (listing : Site.Place) (kind : ScopeKind) (place : Place)
    (first second : Place → Binder PUnit) {visits : List Visit}
    (inFirst : ∀ {scope}, CoversAt walks false listing place visits earlier
      (first { place with scope }))
    (inSecond : ∀ {scope}, CoversAt walks false listing place more later
      (second { place with scope })) (noType : kind.typeKey? = none := by exact rfl) :
    CoversAt walks false listing place (visits ++ more) earlier (inScope kind place fun inner => do
          first inner
          second inner) ∧
      CoversAt walks false listing place (visits ++ more) later (inScope kind place fun inner => do
          first inner
          second inner) :=
  ⟨.inScope (inFirst.andThen inSecond.grows) noType,
    .inScope (inFirst.grows.andThen inSecond) noType⟩

theorem Covers.typed {α : Type} {walks : Comparison} {isSame : Prop} {visits : List Visit}
    {rest : Binder α} (covers : Covers walks moves visits listing rest isSame) (place : Place)
    (type : WrittenType) (isBound : Bool) : Covers walks moves visits listing (do
      if isBound then
        let _ ← bindType walks.context place type
      rest) isSame := by
  split
  · exact .past covers
  · exact covers

/-! ### The walk over a unit -/

section Walk

variable (walks : Comparison)

theorem nameScope_inPart (place : Place) (part : BodyPart) :
    (place.inPart part).nameScope [] = place.nameScope [] := by
  unfold Place.nameScope
  rw [frames_inPart]
  rfl

theorem writes_declaration {place : Place} {visits : List Visit}
    (inConstants : Grows walks visits (bindConstants walks.context (place.inPart .staticFieldValue)
      key constants)) (inMembers : Grows walks more (bindMembers walks.context place key members))
    (writes : ∀ entry ∈ members.flatMap Member.signatureTypes, Writes walks ((place.nameScope
      []).withVariables entry.1) entry.2 (bindMembers walks.context place key members))
    (entry : List String × WrittenType)
    (isEntry : entry ∈ (SiteBody.named ⟨header, constants, members⟩).signatureTypes) :
    Writes walks ((place.nameScope []).withVariables entry.1) entry.2 (do
      bindHeader walks.context place header
      declareComponents walks.context place header.shape
      declareMembers walks.context place members
      declareConstants walks.context place key constants
      bindConstants walks.context (place.inPart .staticFieldValue) key constants
      bindMembers walks.context place key members) := by
  have afterHeader : Grows walks (visits ++ more) (do
      declareMembers walks.context place members
      declareConstants walks.context place key constants
      bindConstants walks.context (place.inPart .staticFieldValue) key constants
      bindMembers walks.context place key members) :=
    .past <| .past <| inConstants.bind inMembers
  rcases mem_append.mp isEntry with isHeader | isMember
  · obtain ⟨written, isWritten, rfl⟩ := mem_map.mp isHeader
    rw [NameScope.withVariables_nil]
    rcases mem_append.mp isWritten with isSupertype | isOfComponent
    · exact (writes_bindHeader walks place isSupertype).bind <| .past afterHeader
    · obtain ⟨component, isComponent, rfl⟩ := mem_map.mp isOfComponent
      exact .past <| (writes_declareComponents walks place isComponent).bind afterHeader
  · exact .past <| .past <| .past <| .past <| inConstants.bindWrites <| writes entry isMember

-- The induction follows the tree, and both walks unfold by computation; what a new scope does is
-- known by its lemmas alone.
attribute [local irreducible] inScope withSymbols

mutual

theorem covers_declaration (listing : Site.Place) (place : Place) (key substitute : String)
    (outer : Option String) (isLocal : Bool) : ∀ declaration : TypeDeclaration,
    Visit.ofDeclaration declaration ⊆ walks.loose →
    CoversAt walks false listing place (Visit.ofDeclaration declaration)
      (Site.ofDeclaration listing key outer isLocal declaration)
      (bindDeclaration walks.context place
        (walks.context.keyAt declaration.header.nameSpan.start.offset substitute) declaration)
  | ⟨header, constants, members⟩, within => by
    let inner := listing.inside key (header.shape.typeParameters.map TypeParameter.name)
    let bodyKey := walks.context.keyAt header.nameSpan.start.offset substitute
    let frame := walks.context.frameOf bodyKey header constants members
    let inside := fun found => Site.ofMembers inner members (Site.ofConstants inner constants found)
    let walk : Place → Binder Unit := fun place => do
      bindHeader walks.context place header
      declareComponents walks.context place header.shape
      declareMembers walks.context place members
      declareConstants walks.context place bodyKey constants
      bindConstants walks.context (place.inPart .staticFieldValue) bodyKey constants
      bindMembers walks.context place bodyKey members
    have inConstants := fun place => @covers_constants inner place bodyKey constants (left within)
    have inMembers := fun place => @covers_members inner place bodyKey members (right within)
    refine Covers.declared inside walk rfl rfl rfl rfl ?_ ?_
    · exact .past <| .past <| .past <| .past <|
        ((inConstants _).mono (sameScope_inPart _)).bind <| inMembers _
    · exact writes_declaration walks (inConstants _).grows (inMembers _).grows
        (writes_bindMembers inner members (right within))

theorem covers_constants {listing : Site.Place} {place : Place} {key : String} :
    ∀ constants : List EnumConstant, Visit.ofConstants constants ⊆ walks.loose →
    CoversAt walks false listing place (Visit.ofConstants constants)
      (Site.ofConstants listing constants) (bindConstants walks.context place key constants)
  | [], _ => .pure _
  | ⟨_, arguments, none⟩ :: rest, within =>
    ((covers_expressions arguments (left within)).mono (sameScope_initializing _)).bind <|
      (Covers.pure _).bind <| covers_constants rest (right (right within))
  | ⟨_, arguments, some body⟩ :: rest, within =>
    ((covers_expressions arguments (left within)).mono (sameScope_initializing _)).bind <|
      ((covers_body _ (.inr ⟨_, rfl⟩) body (left (right within))).mono
        (sameScope_initializing _)).bind <| covers_constants rest (right (right within))

theorem covers_body {listing : Site.Place} {place : Place} {substitute : String}
    (site : ClassBody → SiteBody)
    (isBody : (∃ base, site = .anonymous base) ∨ ∃ enumKey, site = .constant enumKey) :
    ∀ body : ClassBody, Visit.ofOptionalBody (some body) ⊆ walks.loose →
    CoversAt walks false listing place (Visit.ofOptionalBody (some body))
      (Site.ofBody listing site body) (bindOptionalBody walks.context place substitute (some body))
  | ⟨members, span⟩, within => by
    let bodyKey := walks.context.keyAt span.start.offset substitute
    let frame := walks.context.frameOfBody bodyKey members
    let walk : Place → Binder Unit := fun place => do
      declareMembers walks.context place members
      bindMembers walks.context place bodyKey members
    have inMembers := fun listing place => @covers_members listing place bodyKey members within
    have writes : ∀ place : Place, ∀ entry ∈ members.flatMap Member.signatureTypes,
        Writes walks ((place.nameScope []).withVariables entry.1) entry.2 (walk place) :=
      fun place entry isEntry => .past <| writes_bindMembers listing members within entry isEntry
    have each : ∀ key, CoversAt walks false listing place
        (Visit.ofOptionalBody (some ⟨members, span⟩))
        (fun found => (Site.ofMembers (listing.inside key []) members
          (found.add listing key (site ⟨members, span⟩) (some listing.owner) true)).leaving found)
        (bindOptionalBody walks.context place substitute (some ⟨members, span⟩)) := by
      intro key
      rcases isBody with ⟨base, rfl⟩ | ⟨enumKey, rfl⟩
      · exact Covers.declared (Site.ofMembers (listing.inside key []) members) walk rfl rfl rfl rfl
          (.past <| inMembers _ _) (writes _)
      · exact Covers.declared (Site.ofMembers (listing.inside key []) members) walk rfl rfl rfl rfl
          (.past <| inMembers _ _) (writes _)
    exact .keyed (fun found =>
      let number := found.nextAnonymous listing.owner
      s!"{listing.owner}${number}") each

theorem covers_members {listing : Site.Place} {place : Place} {owner : String} :
    ∀ members : List Member, Visit.ofMembers members ⊆ walks.loose →
    CoversAt walks false listing place (Visit.ofMembers members) (Site.ofMembers listing members)
      (bindMembers walks.context place owner members)
  | [], _ => .pure _
  | member :: rest, within =>
    (covers_member member (left within)).bind <| covers_members rest (right within)

theorem covers_member {listing : Site.Place} {place : Place} {owner : String} :
    ∀ member : Member, Visit.ofMember member ⊆ walks.loose →
    CoversAt walks false listing place (Visit.ofMember member) (Site.ofMember listing member)
      (bindMember walks.context place owner member)
  | .type declaration, within =>
    (covers_declaration listing (place.inPart .body) _ _ _ _ declaration within).mono
      (sameScope_inPart _)
  | .field header initializer, within =>
    .past <| ((covers_optional initializer within).mono fun isSame =>
        sameScope_initializing _ (sameScope_inPart _ isSame)).after
  | .method header none defaultValue, within =>
    .inScope <| .past <| (Covers.pure _).bind <|
      (@covers_optional listing _ defaultValue within).grows.after.unkeyed.anywhere
  | .method header (some body) defaultValue, within => by
    let part := if header.modifiers.contains .static then BodyPart.staticMethod else .instanceMethod
    let inner := (place.withVariables header.typeParameters).inPart part
    have inMethod : CoversAt walks false (listing.withVariables header.typeParameters) inner
        (Visit.ofMember (.method header (some body) defaultValue))
        (Site.ofMember listing (.method header (some body) defaultValue))
        (bindMember walks.context place owner (.method header (some body) defaultValue)) :=
      .inScope <| .past <| (covers_leavingBlock true body (left within)).andThen <|
        (@covers_optional listing _ defaultValue (right within)).grows.after.unkeyed
    exact inMethod.mono fun isSame => sameScope_inPart _ (sameScope_withVariables _ isSame)
  | .constructor header call body, within => by
    let inner := (place.withVariables header.typeParameters).inPart .constructor
    have inConstructor : CoversAt walks false (listing.withVariables header.typeParameters) inner
        (Visit.ofMember (.constructor header call body)) _
        (bindMember walks.context place owner (.constructor header call body)) :=
      .inScope <| .past <|
        (covers_call call (left within)).bind <| covers_leavingBlock true body (right within)
    exact inConstructor.leaving.mono fun isSame =>
      sameScope_inPart _ (sameScope_withVariables _ isSame)
  | .initializer isStatic body _, within => by
    let part := if isStatic then BodyPart.staticInitializer else .instanceInitializer
    refine .mono (.inScope ?_) (sameScope_inPart part)
    exact fun {_} => @covers_leavingBlock listing _ true body within

theorem writes_bindMembers (listing : Site.Place) {place : Place} :
    ∀ members : List Member, Visit.ofMembers members ⊆ walks.loose →
    ∀ entry ∈ members.flatMap Member.signatureTypes,
      Writes walks ((place.nameScope []).withVariables entry.1) entry.2
        (bindMembers walks.context place owner members)
  | [], _, _, isEntry => nomatch isEntry
  | member :: rest, within, entry, isEntry => by
    rw [flatMap_cons] at isEntry
    rcases mem_append.mp isEntry with isFirst | isLater
    · exact (writes_bindMember listing member (left within) entry isFirst).bind <|
        (@covers_members listing _ _ rest (right within)).grows
    · exact (@covers_member listing _ _ member (left within)).grows.bindWrites <|
        writes_bindMembers listing rest (right within) entry isLater

theorem writes_bindMember (listing : Site.Place) {place : Place} :
    ∀ member : Member, Visit.ofMember member ⊆ walks.loose →
    ∀ entry ∈ member.signatureTypes,
      Writes walks ((place.nameScope []).withVariables entry.1) entry.2
        (bindMember walks.context place owner member)
  | .type _, _, _, isEntry | .initializer .., _, _, isEntry => nomatch isEntry
  | .field header initializer, within, entry, isEntry => by
    obtain rfl := mem_singleton.mp isEntry
    show Writes walks ((place.nameScope []).withVariables []) header.type _
    rw [NameScope.withVariables_nil, ← nameScope_inPart place]
    exact (writes_bindType walks _ header.type).bind <|
      (@covers_optional listing _ initializer within).grows.after
  | .method header body defaultValue, within, entry, isEntry => by
    obtain ⟨parameter, isParameter, rfl⟩ := mem_map.mp isEntry
    show Writes walks ((place.nameScope []).withVariables _) parameter.type _
    rw [← nameScope_withVariables_inPart place]
    exact .inScope fun _ => (writes_bindMethodHeader walks _ isParameter).bind <|
      (grows_bindOptionalBlock listing body (left within)).bind <|
        (@covers_optional listing _ defaultValue (right within)).grows.after
  | .constructor header call body, within, entry, isEntry => by
    obtain ⟨parameter, isParameter, rfl⟩ := mem_map.mp isEntry
    show Writes walks ((place.nameScope []).withVariables _) parameter.type _
    rw [← nameScope_withVariables_inPart place]
    exact .inScope fun _ => (writes_bindConstructorHeader walks _ isParameter).bind <|
      (@covers_call listing _ call (left within)).grows.bind <|
        (@covers_leavingBlock listing _ true body (right within)).grows

theorem grows_bindOptionalBlock (listing : Site.Place) :
    ∀ block : Option Block, Visit.ofOptionalBlock (true, true) block ⊆ walks.loose →
    Grows walks (Visit.ofOptionalBlock true block) (bindOptionalBlock walks.context place block)
  | none, _ => .pure _
  | some block, within => (@covers_leavingBlock listing _ true block within).grows

theorem covers_call {listing : Site.Place} {place : Place} :
    ∀ call : ConstructorCall, Visit.ofCall call ⊆ walks.loose →
    CoversAt walks false listing place (Visit.ofCall call) (Site.ofCall listing call)
      (bindCall walks.context place call)
  | .implicit, _ => .pure _
  | .this arguments _, within | .super arguments _, within => covers_expressions arguments within

theorem covers_expressions {listing : Site.Place} {place : Place} :
    ∀ expressions : List Expression, Visit.ofExpressions expressions ⊆ walks.loose →
    CoversAt walks false listing place (Visit.ofExpressions expressions)
      (Site.ofExpressions listing expressions) (bindExpressions walks.context place expressions)
  | [], _ => .pure _
  | expression :: rest, within =>
    (covers_expression expression (left within)).bind <| covers_expressions rest (right within)

theorem covers_optional {listing : Site.Place} {place : Place} :
    ∀ expression : Option Expression, Visit.ofOptional expression ⊆ walks.loose →
    CoversAt walks false listing place (Visit.ofOptional expression)
      (Site.ofOptionalExpression listing expression) (bindOptional walks.context place expression)
  | none, _ => .pure _
  | some expression, within => (covers_expression expression within).after

theorem covers_target : ∀ target : Option Expression, Visit.ofOptional target ⊆ walks.loose →
    CoversAt walks false listing place (Visit.ofOptional target)
      (Site.ofOptionalExpression listing target) (bindTarget walks.context place target)
  | none, _ => .pure _
  | some target, within => (covers_expression target within).discard

theorem covers_expression {listing : Site.Place} {place : Place} {position : Position} :
    ∀ expression : Expression, Visit.ofExpression expression ⊆ walks.loose →
    CoversAt walks false listing place (Visit.ofExpression expression)
      (Site.ofExpression listing expression)
      (bindExpression walks.context place position expression)
  | .literal .., _ | .erroneous _, _ => .pure _
  | .name .., _ | .typeMethodReference .., _ | .this .., _ | .super _, _ | .classLiteral .., _ =>
    .past <| .pure _
  | .field target name nameSpan id span, within => by
    by_cases isThis : ∃ thisSpan, target = .this none thisSpan
    · obtain ⟨thisSpan, rfl⟩ := isThis
      exact .past <| .past <| .pure _
    · rw [bindExpression_field _ _ _ _ _ _ _ (not_exists.mp isThis)]
      exact (covers_expression target within).after
  | .call target _ _ _ arguments _ _, within =>
    (covers_target target (left within)).bind <|
      .past <| (covers_expressions arguments (right within)).after
  | .binary operator first second _, within => by
    have inFirst := @covers_expression listing place .value first (left within)
    cases operator with
    | logicalAnd | logicalOr =>
      exact inFirst.bind <| (Covers.withSymbols <| covers_expression second (right within)).after
    | _ => exact inFirst.bind <| (covers_expression second (right within)).after
  | .unary operator operand _, within => by
    cases operator <;> exact (covers_expression operand within).after
  | .assignment _ target value _, within | .index target value _, within =>
    (covers_expression target (left within)).bind <| (covers_expression value (right within)).after
  | .cast _ _ operand _, within => .past <| .past <| (covers_expression operand within).after
  | .instanceOf operand _ _, within | .instanceOfPattern operand _ _, within
  | .methodReference operand _ _, within | .parenthesized operand _, within =>
    (covers_expression operand within).after
  | .conditional condition yes no _, within =>
    (covers_expression condition (left within)).bind <|
      (Covers.withSymbols <| covers_expression yes (left (right within))).bind <|
        (Covers.withSymbols <| covers_expression no (right (right within))).after
  | .create outer type arguments none _ _, within =>
    (covers_optional outer (left within)).bind <|
      .typed ((covers_expressions arguments (left (right within))).bind <|
        ((Covers.pure _).bind <| .pure _)) place type outer.isNone
  | .create outer type arguments (some body) id span, within => by
    have inOuter := @covers_optional listing place outer (left within)
    have inArguments := @covers_expressions listing place arguments (left (right within))
    have inBody := fun substitute => @covers_body listing place substitute (.anonymous type)
      (.inl ⟨type, rfl⟩) body (right (right within))
    have first : CoversAt walks false listing place
        (Visit.ofExpression (.create outer type arguments (some body) id span))
        (Site.ofBody listing (.anonymous type) body) (bindExpression walks.context place position
          (.create outer type arguments (some body) id span)) :=
      inOuter.grows.andThen <| .typed (inArguments.grows.andThen <|
        (inBody _).after) place type outer.isNone
    have second : CoversAt walks false listing place
        (Visit.ofExpression (.create outer type arguments (some body) id span))
        (fun found => Site.ofExpressions listing arguments
          (Site.ofOptionalExpression listing outer found))
        (bindExpression walks.context place position
          (.create outer type arguments (some body) id span)) :=
      inOuter.bind <| .typed (inArguments.andThen <| (inBody _).grows.after) place type outer.isNone
    exact first.both second
  | .createArray _ sizes _ initializer _, within =>
    .past <| (covers_expressions sizes (left within)).bind <|
      (covers_optional initializer (right within)).after
  | .arrayInitializer elements _, within => (covers_expressions elements within).after
  | .lambda _ body _, within => .inScope <| .past <| (covers_expression body within).after
  | .blockLambda _ body _, within => .inScope <| .past <| (covers_block false body within).after
  | .switch selector cases _ _, within =>
    (covers_expression selector (left within)).bind <|
      (Covers.inScope (covers_cases false cases (right within)).1).after

theorem covers_block (declares : Bool) :
    ∀ block : Block, Visit.ofBlock (false, declares) block ⊆ walks.loose →
    CoversAt walks false listing place (Visit.ofBlock declares block)
      (Site.ofBlock listing declares block) (bindBlock walks.context place block)
  | ⟨statements, _⟩, within => .inScope <| covers_statements false declares statements within

theorem covers_leavingBlock {listing : Site.Place} {place : Place} (declares : Bool) :
    ∀ block : Block, Visit.ofBlock (true, declares) block ⊆ walks.loose →
    CoversAt walks false listing place (Visit.ofBlock declares block)
      (fun found => (Site.ofBlock listing declares block found).leaving found)
      (bindBlock walks.context place block)
  | ⟨statements, _⟩, within => .leavingScope <| covers_statements true declares statements within

theorem covers_optionalBlock (declares : Bool) :
    ∀ block : Option Block, Visit.ofOptionalBlock (false, declares) block ⊆ walks.loose →
    CoversAt walks false listing place (Visit.ofOptionalBlock declares block)
      (Site.ofOptionalBlock listing declares block) (bindOptionalBlock walks.context place block)
  | none, _ => .pure _
  | some block, within => covers_block declares block within

theorem covers_statements {listing : Site.Place} {place : Place} (here declares : Bool) :
    ∀ statements : List Statement,
    Visit.ofStatements (here, declares) statements ⊆ walks.loose →
    CoversAt walks (here && declares) listing place (Visit.ofStatements declares statements)
      (Site.ofStatements listing declares statements)
      (bindStatements walks.context place statements)
  | [], _ => .pure _
  | statement :: rest, within =>
    (covers_statement here declares statement (left within)).bind <|
      covers_statements here declares rest (right within)

theorem covers_branch (declares : Bool) : ∀ branch : Option Statement,
    Visit.ofOptionalStatement (false, declares) branch ⊆ walks.loose →
    CoversAt walks false listing place (Visit.ofOptionalStatement declares branch)
      (Site.ofOptionalStatement listing declares branch)
      (bindBranch walks.context place symbols branch)
  | none, _ => .pure _
  | some branch, within => .withSymbols <| .inScope <| covers_statement false declares branch within

theorem covers_statement (here declares : Bool) :
    ∀ statement : Statement, Visit.ofStatement (here, declares) statement ⊆ walks.loose →
    CoversAt walks (here && declares) listing place (Visit.ofStatement declares statement)
      (Site.ofStatement listing declares statement) (bindStatement walks.context place statement)
  | .expression expression _, within => (covers_expression expression within).discard.loosen
  | .locals _ declarations _, within =>
    Covers.loosen (.past <| covers_declarators declarations within)
  | .typeDeclaration declaration, within => by
    let substitute := declaration.header.name
    have inside := fun key => covers_declaration listing place key substitute
      (some listing.owner) true declaration (right within)
    let keyOf := fun found : Found =>
      let number := found.nextLocal listing.owner declaration.name
      s!"{listing.owner}${number}{declaration.name}"
    cases declares with
    | false =>
      have isLoose : declaration.name ∈ walks.loose := by
        cases here <;> exact left within mem_cons_self
      exact ((grows_declareClass isLoose place _).bind <| (inside "").grows).unkeyed.anywhere
    | true =>
      cases here with
      | false =>
        have isLoose : declaration.name ∈ walks.loose := left within mem_cons_self
        exact .keyed keyOf fun key => (grows_declareClass isLoose place _).andThen <|
          (inside key).withLoose isLoose key
      | true =>
        exact .keyed keyOf fun key => (inside key).withLocal place declaration.header fun found =>
          exists_sites_ofDeclaration listing key (some listing.owner) true declaration found
  | .conditional condition yes no _, within =>
    .loosen <| .leaving <| (covers_expression condition (left within)).bind <|
      (Covers.withSymbols <| .inScope <|
        covers_statement false declares yes (left (right within))).bind <|
          (covers_branch declares no (right (right within))).after
  | .while condition body _, within =>
    .loosen <| .leaving <| (covers_expression condition (left within)).bind <|
      (Covers.withSymbols <| .inScope <| covers_statement false declares body (right within)).after
  | .doWhile body condition _, within => by
    have inLoop : CoversAt walks false listing place (Visit.ofStatement declares body)
        (Site.ofStatement listing declares body)
        (inScope .block place fun inner => bindStatement walks.context inner body) :=
      .inScope <| covers_statement false declares body (left within)
    have inCondition := @covers_expression listing place .value condition (right within)
    cases declares with
    | true => exact .loosen <| .leaving <| inLoop.swapped inCondition.after
    | false => exact .loosen <| inLoop.bind inCondition.after
  | .for initial condition update body span, within => by
    have inInitial := fun place =>
      @covers_statements listing place false declares initial (left within)
    have inCondition := fun place => @covers_optional listing place condition (left (right within))
    have inBody : ∀ place, CoversAt walks false listing place (Visit.ofStatement declares body)
        (Site.ofStatement listing declares body)
        (inScope .block place fun inner => bindStatement walks.context inner body) :=
      fun _ => .inScope <| covers_statement false declares body (left (right (right within)))
    have inUpdate := fun place =>
      @covers_expressions listing place update (right (right (right within)))
    cases declares with
    | true =>
      -- The listing goes through the condition and the updates first.
      have inRounds : CoversAt walks false listing place
          (Visit.ofStatement true (.for initial condition update body span))
          (fun found => Site.ofExpressions listing update
            (Site.ofOptionalExpression listing condition found))
          (bindStatement walks.context place (.for initial condition update body span)) :=
        (Covers.inScope <| (inInitial _).grows.andThen <| (inCondition _).bind <|
          (Covers.withSymbols <| (inBody _).grows.andThen <| inUpdate _).after).after
      have inStatements : CoversAt walks false listing place
          (Visit.ofStatement true (.for initial condition update body span))
          (fun found => Site.ofStatement listing true body
            (Site.ofStatements listing true initial found))
          (bindStatement walks.context place (.for initial condition update body span)) :=
        (Covers.inScope <| (inInitial _).bind <| (inCondition _).grows.andThen <|
          (Covers.withSymbols <| (inBody _).andThen (inUpdate _).grows).after).after
      exact (inRounds.both inStatements).leaving.loosen
    | false =>
      have inRound : ∀ place symbols, CoversAt walks false listing place
          (Visit.ofStatement false body ++ Visit.ofExpressions update)
          (fun found => Site.ofStatement listing false body
            (Site.ofExpressions listing update found))
          (withSymbols place symbols fun outer => do
            inScope .block outer fun inner => bindStatement walks.context inner body
            bindExpressions walks.context outer update) :=
        fun _ _ => .withSymbols <| (inBody _).swapped <| inUpdate _
      have inParts : CoversAt walks false listing place
          (Visit.ofStatement false (.for initial condition update body span))
          (fun found => Site.ofStatement listing false body (Site.ofExpressions listing update
            (Site.ofOptionalExpression listing condition
              (Site.ofStatements listing false initial found))))
          (bindStatement walks.context place (.for initial condition update body span)) :=
        (Covers.inScope <| (inInitial _).bind <| (inCondition _).bind <| (inRound _ _).after).after
      exact inParts.loosen
  | .forEach _ iterable body _, within =>
    .loosen <| .leaving <| .inScope <| (covers_expression iterable (left within)).bind <|
      .past <| .inScope <| covers_statement false declares body (right within)
  | .switch selector cases _ _, within => by
    have inSelector := @covers_expression listing place .value selector (left within)
    have inParts := fun place => @covers_cases listing place declares cases (right within)
    cases declares with
    | true =>
      have inCases : CoversAt walks false listing place (Visit.ofCases true cases)
          (fun found => Site.ofCaseStatements listing cases (Site.ofCaseLabels listing cases found))
          (inScope .switch place fun inner => bindCases walks.context inner cases) :=
        .inScope <| ((inParts _).2 rfl).elim .both
      exact (inSelector.bind inCases).leaving.loosen
    | false => exact .loosen <| inSelector.bind <| .inScope (inParts _).1
  | .return value _, within => (covers_optional value within).discard.loosen
  | .yield value _, within | .throw value _, within =>
    (covers_expression value within).discard.loosen
  | .assert condition message _, within =>
    .loosen <| (covers_expression condition (left within)).bind <|
      (covers_optional message (right within)).after
  | .synchronized lock body _, within =>
    (@covers_expression listing place .value lock (left within)).bind
      (covers_leavingBlock declares body (right within)) |>.leaving.loosen
  | .labeled _ body _, within => .loosen <| .leaving <| covers_statement false declares body within
  | .block body, within => (covers_leavingBlock declares body within).loosen
  | .try resources body catches finallyBlock _, within => by
    obtain ⟨first, second⟩ := covers_scope listing .block place
      (bindResources walks.context · resources) (bindBlock walks.context · body)
      (covers_resources resources (left (left within)))
      (covers_block declares body (right (left within)))
    exact .loosen <| .leaving <| (first.both second).bind <|
      (covers_catches declares catches (left (right within))).bind <|
        covers_optionalBlock declares finallyBlock (right (right within))
  | .break .., _ | .continue .., _ | .empty _, _ => .pure _

theorem covers_declarators : ∀ declarators : List Declarator,
    Visit.ofDeclarators declarators ⊆ walks.loose →
    CoversAt walks false listing place (Visit.ofDeclarators declarators)
      (Site.ofDeclarators listing declarators)
      (bindDeclarators walks.context place base modifiers declarators)
  | [], _ => .pure _
  | ⟨_, initializer⟩ :: rest, within =>
    (covers_optional initializer (left within)).bind <|
      .past <| covers_declarators rest (right within)

theorem covers_resources :
    ∀ resources : List Resource, Visit.ofResources resources ⊆ walks.loose →
    CoversAt walks false listing place (Visit.ofResources resources)
      (Site.ofResources listing resources) (bindResources walks.context place resources)
  | [], _ => .pure _
  | .declared _ initializer _ :: rest, within =>
    (covers_expression initializer (left within)).bind <|
      .past <| covers_resources rest (right within)
  | .expression expression _ :: rest, within =>
    (covers_expression expression (left within)).bind <| covers_resources rest (right within)

theorem covers_catches (declares : Bool) :
    ∀ clauses : List CatchClause, Visit.ofCatches (false, declares) clauses ⊆ walks.loose →
    CoversAt walks false listing place (Visit.ofCatches declares clauses)
      (Site.ofCatches listing declares clauses) (bindCatches walks.context place clauses)
  | [], _ => .pure _
  | ⟨parameter, alternatives, block, _⟩ :: rest, within => by
    obtain ⟨-, inBlock⟩ := covers_scope listing .block place
      (bindCatchParameter walks.context · parameter alternatives) (bindBlock walks.context · block)
      .quiet (covers_block declares block (left within))
    exact inBlock.bind <| covers_catches declares rest (right within)

/-- In a block the listing goes through the labels of all cases first, and then through their
statements. -/
theorem covers_cases {listing : Site.Place} {place : Place} (declares : Bool) :
    ∀ cases : List SwitchCase, Visit.ofCases (false, declares) cases ⊆ walks.loose →
    CoversAt walks false listing place (Visit.ofCases declares cases)
        (Site.ofCases listing declares cases) (bindCases walks.context place cases) ∧
      (declares = true → CoversAt walks false listing place (Visit.ofCases declares cases)
            (Site.ofCaseLabels listing cases) (bindCases walks.context place cases) ∧
          CoversAt walks false listing place (Visit.ofCases declares cases)
            (Site.ofCaseStatements listing cases) (bindCases walks.context place cases))
  | [], _ => ⟨.pure _, fun _ => ⟨.pure _, .pure _⟩⟩
  | .group labels statements _ :: rest, within => by
    obtain ⟨inLabels, inStatements⟩ := covers_scope listing .caseGroup place
      (bindLabels walks.context · labels) (bindStatements walks.context · statements)
      (covers_labels labels (left (left within)))
      (covers_statements false declares statements (right (left within)))
    obtain ⟨inRest, inParts⟩ := @covers_cases listing place declares rest (right within)
    refine ⟨(inLabels.both inStatements).bind inRest, ?_⟩
    rintro rfl
    exact ⟨inLabels.bind (inParts rfl).1, inStatements.bind (inParts rfl).2⟩
  | .valueRule label value _ :: rest, within | .throwRule label value _ _ :: rest, within => by
    obtain ⟨inLabel, inValue⟩ := covers_scope listing .caseGroup place
      (bindLabel walks.context · label) (fun inner => do
        let _ ← bindExpression walks.context inner .value value)
      (covers_label label (left (left within)))
      (covers_expression value (right (left within))).after
    have inRule := inLabel.both inValue
    obtain ⟨inRest, inParts⟩ := @covers_cases listing place declares rest (right within)
    refine ⟨inRule.bind inRest, ?_⟩
    rintro rfl
    exact ⟨inRule.bind (inParts rfl).1, inRule.grows.andThen (inParts rfl).2⟩
  | .blockRule label block _ :: rest, within => by
    obtain ⟨inLabel, inBlock⟩ := covers_scope listing .caseGroup place
      (bindLabel walks.context · label) (bindBlock walks.context · block)
      (covers_label label (left (left within)))
      (covers_block declares block (right (left within)))
    obtain ⟨inRest, inParts⟩ := @covers_cases listing place declares rest (right within)
    refine ⟨(inLabel.both inBlock).bind inRest, ?_⟩
    rintro rfl
    exact ⟨inLabel.bind (inParts rfl).1, inBlock.bind (inParts rfl).2⟩

theorem covers_labels : ∀ labels : List SwitchLabel, Visit.ofLabels labels ⊆ walks.loose →
    CoversAt walks false listing place (Visit.ofLabels labels) (Site.ofLabels listing labels)
      (bindLabels walks.context place labels)
  | [], _ => .pure _
  | label :: rest, within =>
    (covers_label label (left within)).bind <| covers_labels rest (right within)

theorem covers_label : ∀ label : SwitchLabel, Visit.ofLabel label ⊆ walks.loose →
    CoversAt walks false listing place (Visit.ofLabel label) (Site.ofLabel listing label)
      (bindLabel walks.context place label)
  | ⟨elements, guard, _⟩, within =>
    (covers_elements elements (left within)).bind <| (covers_optional guard (right within)).after

theorem covers_elements :
    ∀ elements : List CaseElement, Visit.ofElements elements ⊆ walks.loose →
    CoversAt walks false listing place (Visit.ofElements elements)
      (Site.ofElements listing elements) (bindElements walks.context place elements)
  | [], _ => .pure _
  | .constant value :: rest, within =>
    (covers_expression value (left within)).bind <| covers_elements rest (right within)
  | .pattern _ :: rest, within => .past <| .past <| covers_elements rest within
  | .null _ :: rest, within | .default _ :: rest, within => covers_elements rest within

end

theorem covers_topTypes (file : String) (within : walks.unit.looseClasses ⊆ walks.loose) :
    Covers walks false (Visit.ofUnit walks.unit) (Site.ofUnit · file walks.unit)
      (bindTopTypes walks.context walks.unit) True := by
  let listing : Site.Place :=
    { file, unit := walks.unit, owner := "", enclosing := [], typeVariables := [] }
  have isSame : walks.SameScope listing { scope := 0 } := ⟨rfl, rfl, fun _ => rfl⟩
  have general : ∀ types : List TypeDeclaration,
      types.flatMap Visit.ofDeclaration ⊆ walks.loose →
      Covers walks false (types.flatMap Visit.ofDeclaration)
        (types.foldl (fun found declaration => Site.ofDeclaration listing
          (walks.unit.qualify declaration.name) none false declaration found) ·)
        (types.forM fun declaration => bindDeclaration walks.context { scope := 0 }
          (walks.context.keyAt declaration.header.nameSpan.start.offset
            (walks.unit.qualify declaration.name)) declaration) True := by
    intro types
    induction types with
    | nil => exact fun _ => .pure _
    | cons declaration rest ih =>
      intro within
      exact ((covers_declaration walks listing { scope := 0 }
        (walks.unit.qualify declaration.name) _ none false declaration (left within)).mono
          fun _ => isSame).bind <| ih (right within)
  exact general walks.unit.types within

end Walk

end Binder

end JavaFrontEnd
