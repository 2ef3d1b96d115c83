/-
The types in the headers of classes and members are resolved twice: for the table of declared types,
and when the names of a unit are bound. What the table stores is what the bindings have on record
(`Site.stored_types_recorded`), but for three things. Loose local classes are not in scope at the
same places for both. The parameters of a constructor are stored without regard to its type
parameters. And supertypes are resolved for the table outside the class, when no supertype is known
yet.
-/

import JavaFrontEnd.Proofs.Resolution.Walk

namespace JavaFrontEnd

open List

/-! ### The sites of one unit -/

namespace Site

theorem exists_added_foldl_ofUnit (units : List (String × CompilationUnit)) (found : Found) :
    ∃ added, (units.foldl (fun found entry => ofUnit found entry.1 entry.2) found).sites =
        added ++ found.sites ∧
      (∀ site ∈ added, site.file ∈ units.map Prod.fst) ∧
      (units.foldl (fun found entry => ofUnit found entry.1 entry.2) found).locals =
        found.locals := by
  induction units generalizing found with
  | nil => exact ⟨[], rfl, forall_mem_nil _, rfl⟩
  | cons entry rest ih =>
    obtain ⟨added, isAdded, inFirst, -⟩ := adds_ofUnit found entry.1 entry.2
    obtain ⟨more, isMore, inRest, sameLocals⟩ :=
      ih (ofUnit found entry.1 entry.2)
    refine ⟨more ++ added, ?_, fun site isSite => ?_, ?_⟩
    · rw [foldl_cons, isMore, isAdded, append_assoc]
    · rcases mem_append.mp isSite with isMore | isAdded
      · exact mem_cons_of_mem _ (inRest site isMore)
      · rw [inFirst site isAdded]
        exact mem_cons_self
    · rw [foldl_cons, sameLocals, locals_ofUnit]

theorem exists_added_ofUnit {units : List (String × CompilationUnit)}
    (filesDiffer : (units.map Prod.fst).Nodup) {file : String} {unit : CompilationUnit}
    (isEntry : (file, unit) ∈ units) :
    ∃ found : Found, found.locals = [] ∧
      (∃ later, (ofUnits units).reverse = later ++ (ofUnit found file unit).sites) ∧
      ∀ added, (ofUnit found file unit).sites = added ++ found.sites →
        ∀ site, site ∈ inFile (ofUnits units) file ↔ site ∈ added := by
  obtain ⟨before, after, rfl⟩ := append_of_mem isEntry
  rw [map_append, map_cons, nodup_middle] at filesDiffer
  have isNew := (nodup_cons.mp filesDiffer).1
  obtain ⟨earlier, areEarlier, inBefore, noLocals⟩ :=
    exists_added_foldl_ofUnit before { sites := [], locals := [] }
  unfold ofUnits inFile
  rw [foldl_append, foldl_cons]
  generalize before.foldl (fun found entry => ofUnit found entry.1 entry.2)
    { sites := [], locals := [] } = found at areEarlier noLocals ⊢
  obtain ⟨own, isOwn, inOwn, -⟩ := adds_ofUnit found file unit
  obtain ⟨later, areLater, inAfter, -⟩ := exists_added_foldl_ofUnit after (ofUnit found file unit)
  refine ⟨found, noLocals, ⟨later, (reverse_reverse _).trans areLater⟩, ?_⟩
  intro added isAdded site
  cases append_cancel_right (isAdded.symm.trans isOwn)
  rw [mem_filter, mem_reverse, areLater, isAdded, areEarlier, append_nil, mem_append, mem_append,
    beq_iff_eq]
  constructor
  · rintro ⟨isLater | isHere | isEarlier, rfl⟩
    · exact absurd (mem_append_right _ (inAfter site isLater)) isNew
    · exact isHere
    · exact absurd (mem_append_left _ (inBefore site isEarlier)) isNew
  · exact fun isHere => ⟨.inr (.inl isHere), inOwn site isHere⟩

theorem filter_key_of_count {sites : List Site} (isSite : site ∈ sites)
    (isSole : (sites.map Site.key).count site.key = 1) :
    (sites.filter fun other => other.key == site.key) = [site] := by
  rw [count, countP_map, countP_eq_length_filter, length_eq_one_iff] at isSole
  obtain ⟨other, isOther⟩ := isSole
  have isKept : site ∈ sites.filter fun other => other.key == site.key :=
    mem_filter.mpr ⟨isSite, beq_self_eq_true _⟩
  have same : (sites.filter fun other => other.key == site.key) = [other] := isOther
  rw [same] at isKept ⊢
  rw [mem_singleton.mp isKept]

end Site

/-! ### What the bindings of a unit have on record -/

section Units

variable (configuration : Configuration) (units : List (String × CompilationUnit))
  (platform : ClassPath) (file : String) (unit : CompilationUnit)

def UnitContext.among : UnitContext where
  configuration
  declared := (DeclaredTypes.ofUnits units platform).index
  names := .ofUnit unit (DeclaredTypes.fullPath units platform)
  file

def Comparison.among : Comparison where
  context := .among configuration units platform file unit
  unit
  loose := unit.looseClasses
  sole key := ((Site.ofUnits units).map Site.key).count key = 1

variable {units file unit} {site : Site} (filesDiffer : (units.map Prod.fst).Nodup)
  (isEntry : (file, unit) ∈ units)
  (offsetsDiffer : ((Site.inFile (Site.ofUnits units) file).map fun site => site.body.offset).Nodup)
  (isSite : site ∈ Site.inFile (Site.ofUnits units) file)

include offsetsDiffer isSite

theorem registered_among :
    (Comparison.among configuration units platform file unit).Registered site where
  keyAt? := @DeclaredTypes.keyAt?_of_mem (.ofUnits units platform) file offsetsDiffer site isSite
  typeParameters isSole := by
    obtain ⟨permits, isKnown⟩ := DeclaredTypes.type?_ofUnits units platform
      (Site.filter_key_of_count (mem_filter.mp isSite).1 isSole)
    show ((((DeclaredTypes.ofUnits units platform).classPath.type? site.key).or
      (platform.type? site.key)).map KnownType.typeParameters).getD [] = _
    rw [isKnown]
    exact site.typeParameters_known _ _ (DeclaredTypes.supertypePath units platform)

include filesDiffer isEntry in
theorem resolved_among :
    (Comparison.among configuration units platform file unit).Resolved
      (unit.bind (.among configuration units platform file unit)).1.writtenTypes site := by
  obtain ⟨found, noLocals, -, areAdded⟩ := Site.exists_added_ofUnit filesDiffer isEntry
  obtain ⟨added, isAdded, resolved⟩ :=
    (Binder.covers_topTypes (Comparison.among configuration units platform file unit) file
      (Subset.refl _)).resolves found
        { bindings := { tree := ScopeTree.push {} .unit none } }
  refine (resolved trivial (fun site isSite => ?_) ?_).2 site
    ((areAdded added isAdded site).mp isSite)
  · exact registered_among configuration platform offsetsDiffer
      ((areAdded added isAdded site).mpr isSite)
  · rw [noLocals]

end Units

/-! ### Agreement -/

/-- The bindings of a unit have a type on record for a written one. It is the type that the unit
goes by, unless they have another one for the same place. -/
structure Bindings.Records (bindings : Bindings) (written : WrittenType) (type : Ty) : Prop where
  isRecord : (written.span.start.offset, type) ∈ bindings.writtenTypes
  typeOf_eq : (∀ other, (written.span.start.offset, other) ∈ bindings.writtenTypes →
    other = type) → bindings.typeOf written = type

theorem Bindings.records_of_mem {bindings : Bindings} {written : WrittenType}
    (isRecord : (written.span.start.offset, type) ∈ bindings.writtenTypes) :
    bindings.Records written type where
  isRecord
  typeOf_eq isOnly := by
    unfold typeOf
    cases isFound : bindings.writtenTypes.lookup written.span.start.offset with
    | none =>
      have isOther := lookup_eq_none_iff.mp isFound _ isRecord
      rw [bne_self_eq_false] at isOther
      cases isOther
    | some other => exact isOnly other (mem_of_lookup_eq_some isFound)

def WrittenType.Avoids (written : WrittenType) (names : List String) : Prop :=
  ∀ name ∈ written.leadingNames, name ∉ names

/-- The type of a parameter is what is on record for it; one for any number of arguments is an array
of that. Names that are not known alike are left out. -/
def Parameter.Agrees (bindings : Bindings) (others : List String) (parameter : Parameter)
    (type : Ty) : Prop :=
  parameter.type.Avoids others → ∃ recorded, bindings.Records parameter.type recorded ∧
    type = if parameter.variadic then .array recorded else recorded

def KnownField.AgreesWithComponent (bindings : Bindings) (loose : List String)
    (component : Parameter) (field : KnownField) : Prop :=
  field.name = component.name ∧ component.Agrees bindings loose field.type

def KnownField.Agrees (bindings : Bindings) (loose : List String) (header : FieldHeader)
    (field : KnownField) : Prop :=
  field.name = header.name ∧ (header.type.Avoids loose → bindings.Records header.type field.type)

def KnownMethod.Agrees (bindings : Bindings) (loose : List String) (header : MethodHeader)
    (method : KnownMethod) : Prop :=
  method.name = header.name ∧
    Forall₂ (Parameter.Agrees bindings loose) header.parameters method.parameters

/-- What is stored for a constructor, beside what is on record. Stored are the types that the
parameters have outside the constructor, on record those that they have inside it, where its type
parameters are known. The two agree apart from these. A compact constructor has the components of
its record as parameters. -/
structure KnownMethod.AgreesAsConstructor (bindings : Bindings) (loose : List String)
    (names : UnitNames) (scope : NameScope) (components : List Parameter)
    (header : ConstructorHeader) (method : KnownMethod) : Prop where
  agrees : Forall₂
    (Parameter.Agrees bindings (loose ++ header.typeParameters.map TypeParameter.name))
    (if header.compact then components else header.parameters) method.parameters
  stored : header.compact = false → method.parameters = header.parameters.map fun parameter =>
    (names.written scope parameter.effectiveType).type
  recorded : ∀ parameter ∈ header.parameters, parameter.type.Avoids loose →
    bindings.Records parameter.type (names.written
      (scope.withVariables (header.typeParameters.map TypeParameter.name)) parameter.type).type

def fieldHeaders (members : List Member) : List FieldHeader :=
  (fieldValues members).map Prod.fst

def constructorHeaders (members : List Member) : List ConstructorHeader :=
  members.filterMap fun member =>
    match member with
    | .constructor header _ _ => some header
    | _ => none

namespace Site

def headerScope (site : Site) : NameScope :=
  site.scope.withVariables site.body.typeParameters

/-- The names in a type that stands in the header of a site denote the same for two class paths,
though they are looked for outside the type with the one and inside it with the other. -/
structure SeesAlike (site : Site) (before after : ClassPath) (loose : List String)
    (written : WrittenType) : Prop where
  avoids : written.Avoids loose
  around : ∀ name ∈ written.leadingNames,
    (site.names after).memberAround? site.bodyScope name =
      (site.names before).memberAround? site.headerScope name
  imported : ∀ name ∈ written.leadingNames,
    (site.names after).importedOnDemand? name = (site.names before).importedOnDemand? name
  path : ∀ dotted ∈ written.dottedNames, ∀ first ∈ (Text.segments dotted).head?,
    ∀ type ∈ (site.names before).simple? site.headerScope first,
      UnitNames.SamePath (site.names before) (site.names after) type (Text.segments dotted).tail

/-- What is stored for a supertype, beside what is on record. Stored is what it denotes outside the
type with the one class path, on record what it denotes inside with the other. The two agree where
its names are seen alike. -/
structure AgreesOnSupertype (site : Site) (before after : ClassPath) (bindings : Bindings)
    (loose : List String) (written : WrittenType) (type : Ty) : Prop where
  agrees : site.SeesAlike before after loose written → bindings.Records written type
  stored : type = ((site.names before).written site.headerScope written).type
  recorded : written.Avoids loose →
    bindings.Records written ((site.names after).written site.bodyScope written).type

/-- The types that are stored for the declaration at a site are those that are on record for the
types written there: supertypes, components of records, and those of fields and parameters. What is
stored besides is implied by the declaration. -/
structure Agrees (site : Site) (before after : ClassPath) (bindings : Bindings)
    (loose : List String) (type : KnownType) : Prop where
  superclass : ∀ written ∈ site.body.superclass?, ∃ stored, type.superclass = some stored ∧
    site.AgreesOnSupertype before after bindings loose written stored
  interfaces : ∃ stored, stored <+: type.interfaces ∧
    Forall₂ (site.AgreesOnSupertype before after bindings loose) site.body.interfaces stored
  components : ∃ stored, stored <+: type.fields ∧
    Forall₂ (KnownField.AgreesWithComponent bindings loose) site.components stored
  fields : ∃ stored, stored <:+ type.fields ∧
    Forall₂ (KnownField.Agrees bindings loose) (fieldHeaders site.body.members) stored
  methods : ∃ stored, stored <:+ type.methods ∧
    Forall₂ (KnownMethod.Agrees bindings loose) (methodHeaders site.body.members) stored
  constructors : ∃ stored, stored <+: type.constructors ∧
    Forall₂ (KnownMethod.AgreesAsConstructor bindings loose (site.names after) site.bodyScope
      site.components) (constructorHeaders site.body.members) stored

end Site

/-! ### Members -/

theorem forall₂_filterMap {α β γ : Type} {related : β → γ → Prop} {items : List α}
    {first : α → Option β} {second : α → Option γ}
    (each : ∀ item ∈ items, Option.Rel related (first item) (second item)) :
    Forall₂ related (items.filterMap first) (items.filterMap second) := by
  induction items with
  | nil => exact .nil
  | cons item rest ih =>
    have inRest := ih fun other isOther => each other (mem_cons_of_mem _ isOther)
    have inFirst := each item mem_cons_self
    rw [filterMap_cons, filterMap_cons]
    generalize first item = selected at inFirst ⊢
    generalize second item = other at inFirst ⊢
    cases inFirst with
    | none => exact inRest
    | some isRelated => exact .cons isRelated inRest

section Members

variable {bindings : Bindings} {loose : List String} {names : UnitNames} {scope : NameScope}
  {members : List Member} (inInterface : Bool)

theorem Parameter.agrees_effectiveType {parameter : Parameter}
    (records : parameter.type.Avoids others → bindings.Records parameter.type (names.written scope
      parameter.type).type) :
    parameter.Agrees bindings others (names.written scope parameter.effectiveType).type :=
  fun avoids => ⟨_, records avoids, names.type_effectiveType scope parameter⟩

/-- The types in the headers of members are on record, as far as local classes are known. -/
def RecordsMembers (bindings : Bindings) (loose : List String) (names : UnitNames)
    (scope : NameScope) (members : List Member) : Prop :=
  ∀ member ∈ members, ∀ entry ∈ member.signatureTypes, entry.2.Avoids loose →
    bindings.Records entry.2 (names.written (scope.withVariables entry.1) entry.2).type

theorem forall₂_declaredFields (records : RecordsMembers bindings loose names scope members)
    (inInterface : Bool) :
    Forall₂ (KnownField.Agrees bindings loose) (fieldHeaders members)
      (Site.declaredFields (fun written => (names.written scope written).type) inInterface
        members) := by
  refine forall₂_map_left_iff.mpr (forall₂_map_right_iff.mpr (forall₂_same.mpr ?_))
  rintro ⟨header, _⟩ isField
  obtain ⟨member, isMember, isEntry⟩ := mem_filterMap.mp isField
  cases member <;> cases isEntry
  refine ⟨rfl, fun avoids => ?_⟩
  have isRecorded := records _ isMember ([], header.type) mem_cons_self avoids
  rwa [NameScope.withVariables_nil] at isRecorded

theorem forall₂_declaredMethods (records : RecordsMembers bindings loose names scope members)
    (owner : String) (inInterface : Bool) :
    Forall₂ (KnownMethod.Agrees bindings loose) (methodHeaders members)
      (Site.declaredMethods names scope owner inInterface members) := by
  refine forall₂_filterMap fun member isMember => ?_
  cases member with
  | method header body defaultValue =>
    refine .some ⟨rfl, ?_⟩
    refine forall₂_map_right_iff.mpr (forall₂_same.mpr fun parameter isParameter => ?_)
    exact Parameter.agrees_effectiveType fun avoids =>
      records _ isMember _ (mem_map_of_mem isParameter) avoids
  | field | constructor | initializer | type => exact .none

theorem forall₂_declaredConstructors {site : Site} {others : UnitNames}
    (same : ∀ scope written, others.written scope written = names.written scope written)
    (records : RecordsMembers bindings loose names scope site.body.members)
    (inComponents : ∀ component ∈ site.components, component.type.Avoids loose →
      bindings.Records component.type (names.written scope component.type).type) :
    Forall₂ (KnownMethod.AgreesAsConstructor bindings loose others scope site.components)
      (constructorHeaders site.body.members)
      (site.declaredConstructors fun written => (names.written scope written).type) := by
  refine forall₂_filterMap fun member isMember => ?_
  cases member with
  | constructor header call body =>
    have recorded : ∀ parameter ∈ header.parameters, parameter.type.Avoids loose →
        bindings.Records parameter.type (names.written
          (scope.withVariables (header.typeParameters.map TypeParameter.name))
          parameter.type).type :=
      fun parameter isParameter => records _ isMember _ (mem_map_of_mem isParameter)
    refine .some { agrees := ?_, stored := fun notCompact => ?_, recorded := ?_ }
    · refine forall₂_map_right_iff.mpr (forall₂_same.mpr fun parameter isParameter => ?_)
      refine Parameter.agrees_effectiveType fun avoids => ?_
      have avoidsLoose : parameter.type.Avoids loose := fun name isLeading isLoose =>
        avoids name isLeading (mem_append_left _ isLoose)
      split at isParameter
      · exact inComponents parameter isParameter avoidsLoose
      · have isRecorded := recorded parameter isParameter avoidsLoose
        rwa [names.written_withVariables scope fun name isLeading isOwn =>
          avoids name isLeading (mem_append_right _ isOwn)] at isRecorded
    · simp only [notCompact, same, Bool.false_eq_true, if_false]
    · simpa only [same] using recorded
  | field | method | initializer | type => exact .none

end Members

/-! ### Sites -/

namespace Site

theorem components_eq (site : Site) :
    site.components = (site.body.shape?.map TypeShape.components).getD [] := by
  unfold components SiteBody.shape?
  cases site.body with
  | anonymous | constant => rfl
  | named declaration =>
    simp only [Option.map_some, Option.getD_some]
    cases declaration.header.shape <;> rfl

theorem mem_headerTypes_of_component {site : Site} (isComponent : component ∈ site.components) :
    component.type ∈ site.body.headerTypes := by
  rw [components_eq] at isComponent
  unfold SiteBody.headerTypes
  cases isShape : site.body.shape? with
  | none =>
    rw [isShape] at isComponent
    cases isComponent
  | some shape =>
    rw [isShape] at isComponent
    exact mem_append_right _ (mem_map_of_mem isComponent)

theorem mem_headerTypes_of_supertype {site : Site}
    (isSupertype : written ∈ site.body.superclass? ∨ written ∈ site.body.interfaces) :
    written ∈ site.body.headerTypes := by
  unfold SiteBody.superclass? SiteBody.interfaces at isSupertype
  unfold SiteBody.headerTypes
  cases isShape : site.body.shape? with
  | none =>
    rw [isShape] at isSupertype
    rcases isSupertype with isNone | isNone <;> cases isNone
  | some shape =>
    rw [isShape] at isSupertype
    refine mem_append_left _ ?_
    rw [shape.supertypes_eq, mem_append, Option.mem_toList]
    exact isSupertype

theorem components_prefix_impliedMembers (site : Site) (resolve : WrittenType → Ty) :
    (site.components.map fun component : Parameter =>
      ({ name := component.name, type := resolve component.effectiveType, isFinal := true
         isPrivate := true } : KnownField)) <+: (site.impliedMembers resolve).1 := by
  rw [components_eq]
  unfold impliedMembers SiteBody.shape?
  cases site.body with
  | anonymous | constant => exact nil_prefix
  | named declaration =>
    simp only [Option.map_some, Option.getD_some]
    cases declaration.header.shape with
    | record => exact prefix_rfl
    | «class» | interface | enum | annotationType => exact nil_prefix

theorem prefix_addImpliedConstructors (site : Site) (type : KnownType)
    (resolve : WrittenType → Ty) (constructors : List KnownMethod) :
    constructors <+: site.addImpliedConstructors type resolve constructors := by
  unfold addImpliedConstructors
  dsimp only
  generalize isWith : (if site.isRecord && !constructors.any _ then _ else constructors) =
    withCanonical
  have inCanonical : constructors <+: withCanonical := by
    rw [← isWith]
    split
    · exact prefix_append _ _
    · exact prefix_rfl
  split
  next isEmpty =>
    -- Nothing is declared where a constructor is implied.
    rw [Bool.and_eq_true, Bool.and_eq_true, List.isEmpty_iff] at isEmpty
    rw [isEmpty.1.1] at inCanonical
    rw [prefix_nil.mp inCanonical]
    exact nil_prefix
  next => exact inCanonical

end Site

section Units

variable {configuration : Configuration} {units : List (String × CompilationUnit)}
  {platform : ClassPath} {file : String} {unit : CompilationUnit} {site : Site}
  {bindings : Bindings} {written : WrittenType}

open DeclaredTypes

theorem written_fullPath (site : Site) (scope : NameScope) (written : WrittenType) :
    (site.names (fullPath units platform)).written scope written =
      (site.names (supertypePath units platform)).written scope written := by
  have same := sameSkeletons_fullPath units platform
  have alike : UnitNames.Alike (site.names (supertypePath units platform))
      (site.names (fullPath units platform)) := ⟨rfl, rfl, same.knows_eq⟩
  refine alike.written_eq_of_leadingNames (fun name _ => ?_) same.memberType?_eq
  have sameMember := fun owner => same.memberType?_eq owner name
  exact alike.simple?_eq rfl rfl
    (congrArg (scope.enclosing.reverse.findSome? ·) (funext sameMember))
    (alike.importedOnDemand?_eq sameMember)

theorem records_fullPath (isUnit : site.unit = unit)
    (records : (Comparison.among configuration units platform file unit).Records
      bindings.writtenTypes scope written) (avoids : written.Avoids unit.looseClasses) :
    bindings.Records written
      ((site.names (fullPath units platform)).written scope written).type := by
  subst isUnit
  obtain ⟨locals, sameLocals, isRecord⟩ := records
  have alike : UnitNames.Alike (site.names (fullPath units platform))
      (site.names (fullPath units platform)) := ⟨rfl, rfl, fun _ => rfl⟩
  have sameWritten : (site.names (fullPath units platform)).written { scope with locals } written =
      (site.names (fullPath units platform)).written scope written :=
    alike.written_eq_of_leadingNames (fun name isLeading => alike.simple?_eq rfl
      (lookup_eq_of_otherLocals_eq sameLocals (avoids name isLeading)) rfl rfl) fun _ _ => rfl
  rw [← sameWritten]
  exact Bindings.records_of_mem isRecord

theorem written_outlinePath
    (seen : site.SeesAlike (outlinePath units platform) (fullPath units platform)
      unit.looseClasses written) :
    (site.names (fullPath units platform)).written site.bodyScope written =
      (site.names (outlinePath units platform)).written site.headerScope written := by
  have alike : UnitNames.Alike (site.names (outlinePath units platform))
      (site.names (fullPath units platform)) := ⟨rfl, rfl, knows_fullPath units platform⟩
  refine alike.written_eq written fun dotted isIn =>
    { simple := fun first isFirst => ?_, path := seen.path dotted isIn }
  have isLeading : first ∈ written.leadingNames :=
    mem_filterMap.mpr ⟨dotted, isIn, isFirst⟩
  exact alike.simple?_eq rfl rfl (seen.around first isLeading) (seen.imported first isLeading)

section Resolved

variable
  (resolved : (Comparison.among configuration units platform file unit).Resolved
    bindings.writtenTypes site)
  (areSole : ∀ key ∈ site.scope.enclosing ++ [site.key],
    ((Site.ofUnits units).map Site.key).count key = 1) {written : WrittenType} (inInterface : Bool)

include resolved areSole

theorem recordsMembers_supertypePath : RecordsMembers bindings unit.looseClasses
    (site.names (supertypePath units platform)) site.bodyScope site.body.members := by
  intro member isMember entry isEntry
  rw [← written_fullPath]
  exact records_fullPath resolved.unit (resolved.records areSole entry
    (mem_append_right _ (mem_flatMap.mpr ⟨member, isMember, isEntry⟩)))

theorem records_headerType (isIn : written ∈ site.body.headerTypes)
    (avoids : written.Avoids unit.looseClasses) :
    bindings.Records written
      ((site.names (fullPath units platform)).written site.bodyScope written).type := by
  have records := resolved.records areSole ([], written) (mem_append_left _ (mem_map_of_mem isIn))
  rw [NameScope.withVariables_nil] at records
  exact records_fullPath resolved.unit records avoids

theorem records_component (isComponent : component ∈ site.components)
    (avoids : component.type.Avoids unit.looseClasses) :
    bindings.Records component.type ((site.names (supertypePath units platform)).written
      site.bodyScope component.type).type := by
  rw [← written_fullPath]
  exact records_headerType resolved areSole (Site.mem_headerTypes_of_component isComponent) avoids

theorem agreesOnSupertype_outlinePath
    (isSupertype : written ∈ site.body.superclass? ∨ written ∈ site.body.interfaces) :
    site.AgreesOnSupertype (outlinePath units platform) (fullPath units platform) bindings
      unit.looseClasses written ((site.names (outlinePath units platform)).written
        (site.scope.withVariables (site.outline inInterface).typeParameters) written).type := by
  rw [site.typeParameters_outline]
  have recorded := records_headerType resolved areSole
    (Site.mem_headerTypes_of_supertype isSupertype)
  refine { agrees := fun seen => ?_, stored := rfl, recorded }
  show bindings.Records written
    ((site.names (outlinePath units platform)).written site.headerScope written).type
  rw [← written_outlinePath seen]
  exact recorded seen.avoids

theorem agrees_known (permits : List String) :
    site.Agrees (outlinePath units platform) (fullPath units platform) bindings unit.looseClasses
      { site.known inInterface (outlinePath units platform) (supertypePath units platform) with
        permits } := by
  have inMembers := recordsMembers_supertypePath resolved areSole
  obtain ⟨areFields, areMethods, areConstructors⟩ :=
    site.members_known inInterface (outlinePath units platform) (supertypePath units platform)
  refine { superclass := ?_, interfaces := ?_, components := ?_, fields := ?_, methods := ?_
           constructors := ?_ }
  · intro written isSuperclass
    exact ⟨_, Site.superclass_addSupertypes _ _ isSuperclass,
      agreesOnSupertype_outlinePath resolved areSole inInterface (.inl isSuperclass)⟩
  · refine ⟨_, site.interfaces_addSupertypes _ _, ?_⟩
    refine forall₂_map_right_iff.mpr (forall₂_same.mpr fun written isInterface => ?_)
    exact agreesOnSupertype_outlinePath resolved areSole inInterface (.inr isInterface)
  · refine ⟨_, (site.components_prefix_impliedMembers _).trans (areFields ▸ prefix_append _ _), ?_⟩
    refine forall₂_map_right_iff.mpr (forall₂_same.mpr fun component isComponent => ?_)
    exact ⟨rfl, Parameter.agrees_effectiveType (records_component resolved areSole isComponent)⟩
  · exact ⟨_, areFields ▸ suffix_append _ _, forall₂_declaredFields inMembers _⟩
  · exact ⟨_, areMethods ▸ suffix_append _ _, forall₂_declaredMethods inMembers _ _⟩
  · refine ⟨_, areConstructors ▸ site.prefix_addImpliedConstructors _ _ _, ?_⟩
    exact forall₂_declaredConstructors (written_fullPath site) inMembers
      fun component isComponent => records_component resolved areSole isComponent

end Resolved

end Units

/-! ### Compilations -/

def parsedUnits (configuration : Configuration) (sources : List SourceFile) :
    List (String × CompilationUnit) :=
  sources.map fun source => (source.path, (CompilationUnit.parse configuration source.text).1)

/-- The bindings of a compiled unit have the types on record that are written in its classes. The
types of expressions are found after the names are bound, and change none of the records. -/
theorem resolved_compiled {configuration : Configuration} {sources : List SourceFile}
    (pathsDiffer : (sources.map SourceFile.path).Nodup) {source : SourceFile}
    (isSource : source ∈ sources) {site : Site}
    (isSite : site ∈ Site.inFile (declaredIn configuration sources).sites source.path) :
    (Comparison.among configuration (parsedUnits configuration sources) Platform.classPath
      source.path (CompilationUnit.parse configuration source.text).1).Resolved
        (CompiledUnit.among configuration (declaredIn configuration sources)
          source).attribution.bindings.writtenTypes site := by
  have filesDiffer : ((parsedUnits configuration sources).map Prod.fst).Nodup := by
    unfold parsedUnits
    rw [map_map]
    exact pathsDiffer
  exact resolved_among configuration Platform.classPath filesDiffer (mem_map_of_mem isSource)
    (nodup_offsets_inFile pathsDiffer isSource) isSite

/-- The types that a compilation stores for the classes of its sources are those that the bindings
of their units have on record for the types written there. -/
theorem Site.stored_types_recorded (configuration : Configuration) (sources : List SourceFile)
    (pathsDiffer : (sources.map SourceFile.path).Nodup) (source : SourceFile)
    (compiled : CompiledUnit)
    (isUnit : (source, compiled) ∈ sources.zip (compile configuration sources)) (site : Site)
    (isSite : site ∈ inFile (declaredIn configuration sources).sites source.path)
    (areSole : ∀ key ∈ site.scope.enclosing ++ [site.key],
      ((declaredIn configuration sources).sites.map Site.key).count key = 1) :
    ∃ type, (declaredIn configuration sources).classPath.type? site.key = some type ∧
      site.Agrees
        (DeclaredTypes.outlinePath (parsedUnits configuration sources) Platform.classPath)
        (DeclaredTypes.fullPath (parsedUnits configuration sources) Platform.classPath)
        compiled.attribution.bindings compiled.unit.looseClasses type := by
  rw [zip_compile] at isUnit
  obtain ⟨_, isSource, isPair⟩ := mem_map.mp isUnit
  cases isPair
  have resolved := resolved_compiled pathsDiffer isSource isSite
  obtain ⟨permits, isKnown⟩ :=
    DeclaredTypes.type?_ofUnits (parsedUnits configuration sources) Platform.classPath
      (filter_key_of_count (mem_filter.mp isSite).1
        (areSole site.key (mem_append_right _ mem_cons_self)))
  exact ⟨_, isKnown, agrees_known resolved areSole _ _⟩

/-- A source with a class that extends the one of `soleClass` and has a field of that type. -/
def dependentClass : SourceFile := ⟨"B.java", "class B extends A\x7bA f;\x7d"⟩

abbrev dependentPath (pathOf : List (String × CompilationUnit) → ClassPath → ClassPath) :=
  pathOf (parsedUnits {} [soleClass, dependentClass]) Platform.classPath

theorem names_dependentClass :
    ∀ site ∈ Site.inFile (Site.ofUnits (parsedUnits {} [soleClass, dependentClass])) "B.java",
      site.scope.enclosing = [] ∧ site.key = "B" ∧
      site.body.superclass?.map WrittenType.dottedNames = some ["A"] ∧
      (fieldHeaders site.body.members).map (fun header => header.type.dottedNames) = [["A"]] ∧
      (site.names (dependentPath DeclaredTypes.fullPath)).memberAround? site.bodyScope "A" =
        (site.names (dependentPath DeclaredTypes.outlinePath)).memberAround? site.headerScope "A" ∧
      (site.names (dependentPath DeclaredTypes.fullPath)).importedOnDemand? "A" =
        (site.names (dependentPath DeclaredTypes.outlinePath)).importedOnDemand? "A" := by
  decide +kernel

theorem type?_dependentClass :
    ((declaredIn {} [soleClass, dependentClass]).classPath.type? "B").map
      (fun type => (type.superclass, type.fields.map KnownField.type)) =
        some (some (.ofKey "A"), [.ofKey "A"]) := by
  decide +kernel

theorem Site.stored_types_recorded_dependentClass :
    ∃ site ∈ Site.inFile (declaredIn {} [soleClass, dependentClass]).sites dependentClass.path,
      (∃ written ∈ site.body.superclass?,
        (CompiledUnit.among {} (declaredIn {} [soleClass, dependentClass])
          dependentClass).attribution.bindings.Records written (.ofKey "A")) ∧
      ∃ header ∈ fieldHeaders site.body.members,
        (CompiledUnit.among {} (declaredIn {} [soleClass, dependentClass])
          dependentClass).attribution.bindings.Records header.type (.ofKey "A") := by
  have keys : (Site.ofUnits (parsedUnits {} [soleClass, dependentClass])).map Site.key =
      ["A", "B"] := by
    decide +kernel
  have hasSite : (Site.inFile (Site.ofUnits (parsedUnits {} [soleClass, dependentClass]))
      "B.java").head?.isSome = true := by
    decide +kernel
  have noneLoose : (CompilationUnit.parse {} dependentClass.text).1.looseClasses = [] := by
    show (CompilationUnit.ofTokens {} (Grammar.tokensOf {} dependentClass.text)).1.looseClasses = _
    decide +kernel
  obtain ⟨site, isFirst⟩ := Option.isSome_iff_exists.mp hasSite
  have isSite := mem_of_head? isFirst
  obtain ⟨isTop, isKey, superclassNames, fieldNames, around, imported⟩ :=
    names_dependentClass site isSite
  obtain ⟨written, isSuperclass, areNames⟩ := Option.map_eq_some_iff.mp superclassNames
  obtain ⟨header, areHeaders, -⟩ := map_eq_singleton_iff.mp fieldNames
  have isUnit : (dependentClass, CompiledUnit.among {} (declaredIn {} [soleClass, dependentClass])
      dependentClass) ∈ [soleClass, dependentClass].zip
        (compile {} [soleClass, dependentClass]) := by
    exact mem_cons_of_mem _ mem_cons_self
  obtain ⟨type, isType, agrees⟩ := Site.stored_types_recorded {} [soleClass, dependentClass]
    (by decide) dependentClass _ isUnit site isSite (by
      show ∀ key ∈ site.scope.enclosing ++ [site.key],
        ((Site.ofUnits (parsedUnits {} [soleClass, dependentClass])).map Site.key).count key = 1
      rw [isTop, isKey, keys]
      decide)
  have avoidsLoose : ∀ written : WrittenType, written.Avoids
      (CompilationUnit.parse {} dependentClass.text).1.looseClasses := by
    intro written name _
    rw [noneLoose]
    exact not_mem_nil
  have isStored := type?_dependentClass
  rw [isKey] at isType
  rw [isType, Option.map_some, Option.some_inj, Prod.mk.injEq] at isStored
  refine ⟨site, isSite, ⟨written, isSuperclass, ?_⟩, header, ?_, ?_⟩
  · obtain ⟨stored, sameStored, agreed⟩ := agrees.superclass written isSuperclass
    cases sameStored.symm.trans isStored.1
    have leading : written.leadingNames = ["A"] := by
      unfold WrittenType.leadingNames
      rw [areNames]
      decide
    refine agreed.agrees
      { avoids := avoidsLoose written, around := ?_, imported := ?_, path := ?_ }
    · rwa [leading, forall_mem_singleton]
    · rwa [leading, forall_mem_singleton]
    · rw [areNames, forall_mem_singleton]
      intro _ _ _ _
      have noMore : (Text.segments "A").tail = [] := by decide
      exact UnitNames.samePath_nil _ _ _
  · rw [areHeaders]
    exact mem_cons_self
  · obtain ⟨stored, isSuffix, related⟩ := agrees.fields
    rw [areHeaders] at related
    cases related with
    | @cons _ field _ rest agreed none =>
      have isField : field.type ∈ type.fields.map KnownField.type :=
        mem_map_of_mem (isSuffix.subset mem_cons_self)
      rw [isStored.2, mem_singleton] at isField
      rw [← isField]
      exact agreed.2 (avoidsLoose header.type)

end JavaFrontEnd
