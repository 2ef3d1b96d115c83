/-
The constructors of classes without a name. An anonymous class and the body of an enum constant pass
their arguments on to a constructor of the class above. Which one is called depends on the types of
the arguments, but the plan of the class only counts them.
-/

import JavaFrontEnd.Proofs.Overloads
import JavaFrontEnd.Proofs.Resolution.Agreement

namespace JavaFrontEnd

open List

namespace ClassPlan

variable {context : UnitContext} {bindings : Bindings} {type : KnownType} {arguments : List Ty}
  {method : KnownMethod} {phase : Phase}

theorem constructors_ofConstantBody (key : String) (enumMembers members : List Member)
    (count : Nat) : (ofConstantBody context bindings key enumMembers count members).constructors =
      [constructorDescriptor ([.string, .int] ++
        (((constructorHeaders enumMembers).find? fun header =>
          header.parameters.length == count).map fun header =>
            parameterTypes bindings header.parameters).getD [])] := by
  unfold ofConstantBody constructorHeaders
  induction enumMembers with
  | nil => rfl
  | cons member rest ih =>
    cases member with
    | constructor header call body =>
      rw [findSome?_cons, filterMap_cons]
      dsimp only
      rw [find?_cons]
      by_cases isLong : header.parameters.length = count
      · rw [if_pos isLong, beq_iff_eq.mpr isLong]
        rfl
      · rw [if_neg isLong, beq_eq_false_iff_ne.mpr isLong]
        exact ih
    | field | method | type | initializer => exact ih

end ClassPlan

/-! ### What is stored for the constructors of an enum -/

/-- The constructors of an enum have the types on record for the parameters of those it writes; one
that writes none has one without parameters. -/
def StoresConstructors (bindings : Bindings) (members : List Member)
    (constructors : List KnownMethod) : Prop :=
  constructors.map KnownMethod.parameters =
    if (constructorHeaders members).isEmpty then [[]]
    else (constructorHeaders members).map fun header =>
      ClassPlan.parameterTypes bindings header.parameters

theorem Site.constructors_known_of_enum {site : Site} {declaration : TypeDeclaration}
    (isNamed : site.body = .named declaration) (isEnum : declaration.kind = .enum)
    (inInterface : Bool) (outlinePath supertypePath : ClassPath) :
    let declared := site.declaredConstructors fun written =>
      ((site.names supertypePath).written site.bodyScope written).type
    (site.known inInterface outlinePath supertypePath).constructors.map KnownMethod.parameters =
      if declared.isEmpty then [[]] else declared.map KnownMethod.parameters := by
  intro declared
  have isKind : (site.addSupertypes outlinePath (site.outline inInterface)).kind = .enum := by
    obtain ⟨_, _, _, isFilled⟩ := site.addSupertypes_eq outlinePath (site.outline inInterface)
    rw [isFilled]
    unfold outline
    rw [isNamed]
    simp only [isEnum, SiteBody.kind]
  have isBodyKind : site.body.kind = .enum := by
    rw [isNamed]
    exact isEnum
  have isName : site.body.name?.isSome = true := by
    rw [isNamed]
    rfl
  obtain ⟨-, -, areConstructors⟩ := site.members_known inInterface outlinePath supertypePath
  rw [areConstructors]
  unfold addImpliedConstructors isRecord KnownType.isInterface
  simp only [isKind, isBodyKind, isName]
  cases isDeclared : site.declaredConstructors fun written =>
      ((site.names supertypePath).written site.bodyScope written).type with
  | nil =>
    simp [declared, isDeclared]
    rfl
  | cons => simp [declared, isDeclared]

/-- An enum of a compilation. Its key and those of the types around it belong to no other class. The
types of the parameters of its constructors are known alike inside and outside these, and the
bindings of the unit have one type on record for each place. -/
structure IsEnumIn (configuration : Configuration) (sources : List SourceFile)
    (source : SourceFile) (compiled : CompiledUnit) (site : Site)
    (declaration : TypeDeclaration) : Prop where
  pathsDiffer : (sources.map SourceFile.path).Nodup
  isUnit : (source, compiled) ∈ sources.zip (compile configuration sources)
  isSite : site ∈ Site.inFile (declaredIn configuration sources).sites source.path
  areSole : ∀ key ∈ site.scope.enclosing ++ [site.key],
    ((declaredIn configuration sources).sites.map Site.key).count key = 1
  isNamed : site.body = .named declaration
  isEnum : declaration.kind = .enum
  isKnown : ∀ header ∈ constructorHeaders declaration.members, header.compact = false ∧
    ∀ parameter ∈ header.parameters, parameter.type.Avoids
      (compiled.unit.looseClasses ++ header.typeParameters.map TypeParameter.name)
  isSettled : ∀ first ∈ compiled.attribution.bindings.writtenTypes,
    ∀ second ∈ compiled.attribution.bindings.writtenTypes, first.1 = second.1 → first.2 = second.2

/-- The types on record for the parameters of a constructor are those that are stored for it. -/
theorem KnownMethod.AgreesAsConstructor.parameterTypes_eq {bindings : Bindings}
    {loose : List String} {names : UnitNames} {scope : NameScope} {components : List Parameter}
    {header : ConstructorHeader} {method : KnownMethod}
    (agrees : method.AgreesAsConstructor bindings loose names scope components header)
    (isWritten : header.compact = false)
    (avoids : ∀ parameter ∈ header.parameters,
      parameter.type.Avoids (loose ++ header.typeParameters.map TypeParameter.name))
    (isSettled : ∀ first ∈ bindings.writtenTypes, ∀ second ∈ bindings.writtenTypes,
      first.1 = second.1 → first.2 = second.2) :
    ClassPlan.parameterTypes bindings header.parameters = method.parameters := by
  have agreeing := agrees.agrees
  rw [isWritten, if_neg Bool.false_ne_true] at agreeing
  unfold ClassPlan.parameterTypes
  generalize header.parameters = parameters, method.parameters = types at agreeing avoids ⊢
  induction agreeing with
  | nil => rfl
  | cons agreesFirst _ inductionHypothesis =>
    obtain ⟨avoidsFirst, avoidsRest⟩ := forall_mem_cons.mp avoids
    obtain ⟨recorded, records, rfl⟩ := agreesFirst avoidsFirst
    rw [map_cons, inductionHypothesis avoidsRest, records.typeOf_eq fun other isOther =>
      isSettled _ isOther _ records.isRecord rfl]

theorem map_parameterTypes_eq {bindings : Bindings} {loose : List String} {names : UnitNames}
    {scope : NameScope} {components : List Parameter} {headers : List ConstructorHeader}
    {stored : List KnownMethod}
    (agreeing : Forall₂ (KnownMethod.AgreesAsConstructor bindings loose names scope components)
      headers stored)
    (isKnown : ∀ header ∈ headers, header.compact = false ∧ ∀ parameter ∈ header.parameters,
      parameter.type.Avoids (loose ++ header.typeParameters.map TypeParameter.name))
    (isSettled : ∀ first ∈ bindings.writtenTypes, ∀ second ∈ bindings.writtenTypes,
      first.1 = second.1 → first.2 = second.2) :
    headers.map (fun header => ClassPlan.parameterTypes bindings header.parameters) =
      stored.map KnownMethod.parameters := by
  induction agreeing with
  | nil => rfl
  | cons agrees _ inductionHypothesis =>
    obtain ⟨⟨isWritten, avoids⟩, areKnown⟩ := forall_mem_cons.mp isKnown
    rw [map_cons, map_cons, agrees.parameterTypes_eq isWritten avoids isSettled,
      inductionHypothesis areKnown]

theorem IsEnumIn.storesConstructors {configuration : Configuration} {sources : List SourceFile}
    {source : SourceFile} {compiled : CompiledUnit} {site : Site} {declaration : TypeDeclaration}
    (isEnum : IsEnumIn configuration sources source compiled site declaration) {type : KnownType}
    (isType : (declaredIn configuration sources).classPath.type? site.key = some type) :
    StoresConstructors compiled.attribution.bindings declaration.members type.constructors := by
  have isUnit := isEnum.isUnit
  rw [zip_compile] at isUnit
  obtain ⟨_, isSource, isPair⟩ := mem_map.mp isUnit
  cases isPair
  have resolved := resolved_compiled isEnum.pathsDiffer isSource isEnum.isSite
  obtain ⟨permits, isKnown⟩ :=
    DeclaredTypes.type?_ofUnits (parsedUnits configuration sources) Platform.classPath
      (Site.filter_key_of_count (mem_filter.mp isEnum.isSite).1
        (isEnum.areSole site.key (mem_append_right _ mem_cons_self)))
  obtain rfl := Option.some.inj (isType.symm.trans isKnown)
  have agreeing := forall₂_declaredConstructors (written_fullPath site)
    (recordsMembers_supertypePath resolved isEnum.areSole)
    fun component isComponent => records_component resolved isEnum.areSole isComponent
  have isBody : site.body.members = declaration.members := by
    rw [isEnum.isNamed]
    rfl
  rw [isBody] at agreeing
  have sameTypes := map_parameterTypes_eq agreeing isEnum.isKnown isEnum.isSettled
  have sameLength := agreeing.length_eq
  show ((site.known _ _ _).constructors.map KnownMethod.parameters) = _
  rw [Site.constructors_known_of_enum isEnum.isNamed isEnum.isEnum, sameTypes]
  congr 1
  rw [List.isEmpty_iff_length_eq_zero, List.isEmpty_iff_length_eq_zero, sameLength]

namespace ClassPlan

variable {context : UnitContext} {bindings : Bindings} {type : KnownType} {arguments : List Ty}
  {method : KnownMethod} {phase : Phase}

/-- The body of a constant takes, after a string and a number, the parameters of the first
constructor of the enum that has as many parameters as there are arguments. -/
theorem constructors_ofConstantBody_of_stores {enumMembers : List Member}
    (stores : StoresConstructors bindings enumMembers type.constructors) {first : KnownMethod}
    {count : Nat}
    (isFirst : type.constructors.find? (fun other => other.parameters.length == count) = some first)
    (key : String) (members : List Member) :
    (ofConstantBody context bindings key enumMembers count members).constructors =
      [constructorDescriptor ([.string, .int] ++ first.parameters)] := by
  have stored := congrArg (find? fun types => types.length == count) stores
  have isStored : find? ((fun types : List Ty => types.length == count) ∘
    KnownMethod.parameters) type.constructors = some first := isFirst
  rw [find?_map, isStored] at stored
  rw [constructors_ofConstantBody]
  split at stored
  next isNone =>
    -- Nothing is found among the constructors that are written, and nothing is needed.
    obtain ⟨isLong, isEmpty⟩ : 0 = count ∧ [] = first.parameters := by
      simpa [find?_singleton] using stored.symm
    rw [List.isEmpty_iff.mp isNone, ← isEmpty]
    rfl
  next =>
    have sameLengths : (fun types : List Ty => types.length == count) ∘
        (fun header : ConstructorHeader => parameterTypes bindings header.parameters) =
          fun header => header.parameters.length == count := by
      funext header
      simp [parameterTypes]
    rw [find?_map, sameLengths] at stored
    rw [← stored]
    rfl

/-- Where the constructor that is called is chosen without a variable number of arguments, the
constructor of an anonymous class or of the body of a constant takes the parameters of the first
constructor with as many parameters, which is the chosen one if there is no other such. -/
theorem constructors_called
    (isFound : Selection.among context.path type.constructors arguments = .found method phase)
    (fixed : phase ≠ .variadic) (key : String) (members : List Member) :
    ∃ first ∈ type.constructors.find? (fun other => other.parameters.length == arguments.length),
      ((∀ other ∈ type.constructors, other.parameters.length = method.parameters.length →
        other = method) → first = method) ∧
      (∀ (bindings : Bindings) (base : WrittenType),
        (bindings.typeOf base).key?.bind context.path.type? = some type →
        type.isInterface = false →
        (ofAnonymousBody context bindings key base arguments.length members).constructors =
          [constructorDescriptor first.parameters]) ∧
      ∀ (configuration : Configuration) (sources : List SourceFile) (source : SourceFile)
        (compiled : CompiledUnit) (site : Site) (declaration : TypeDeclaration),
        IsEnumIn configuration sources source compiled site declaration →
        (declaredIn configuration sources).classPath.type? site.key = some type →
        (ofConstantBody context compiled.attribution.bindings key declaration.members
          arguments.length members).constructors =
            [constructorDescriptor ([.string, .int] ++ first.parameters)] := by
  obtain ⟨isCandidate, applies⟩ := Selection.mem_rivals_iff.mp (Selection.mem_of_among isFound)
  have isLong := Selection.length_eq_of_applies fixed applies
  have isThere : (type.constructors.find? fun other =>
      other.parameters.length == arguments.length).isSome = true := by
    rw [find?_isSome]
    exact ⟨method, isCandidate, beq_iff_eq.mpr isLong⟩
  obtain ⟨first, isFirst⟩ := Option.isSome_iff_exists.mp isThere
  refine ⟨first, isFirst, fun isSole => ?_, fun bindings base isBase isClass => ?_, ?_⟩
  · have sameLength : first.parameters.length = arguments.length := by
      simpa using find?_some isFirst
    exact isSole first (mem_of_find?_eq_some isFirst) (sameLength.trans isLong.symm)
  · unfold ofAnonymousBody
    rw [isBase, Option.filter_some_pos (by rw [isClass]; rfl)]
    show [constructorDescriptor (((find? _ type.constructors).map _).getD [])] = _
    rw [isFirst]
    rfl
  · intro configuration sources source compiled site declaration isEnum isType
    exact constructors_ofConstantBody_of_stores (isEnum.storesConstructors isType) isFirst key
      members

/-- An enum with constructors that take a number and a string, in this order, and a constant with a
body that gives a string. -/
def overloadedEnum : SourceFile :=
  ⟨"E.java", "enum E\x7bA(\"x\")\x7b\x7d;E(int i)\x7b\x7dE(String s)\x7b\x7d\x7d"⟩

def overloadedContext : UnitContext :=
  let path := (declaredIn {} [overloadedEnum]).classPath.orElse Platform.classPath
  ⟨{}, ⟨path, fun _ _ => none⟩, ⟨none, [], path⟩, "E.java"⟩

theorem sites_overloadedEnum :
    (Site.ofUnits (parsedUnits {} [overloadedEnum])).map (fun site =>
        (site.key, site.scope.enclosing, site.body.kind,
          (constructorHeaders site.body.members).map fun header =>
            (header.compact, header.typeParameters.map TypeParameter.name))) =
      [("E", [], .enum, [(false, []), (false, [])]), ("E$1", ["E"], .class, [])] := by
  decide +kernel

theorem nodup_writtenTypes_overloadedEnum :
    ((CompiledUnit.among {} (declaredIn {} [overloadedEnum])
      overloadedEnum).attribution.bindings.writtenTypes.map Prod.fst).Nodup := by
  show (((CompilationUnit.parse {} overloadedEnum.text).1.bind (.among {}
    (parsedUnits {} [overloadedEnum]) Platform.classPath "E.java" _)).1.writtenTypes.map
      Prod.fst).Nodup
  decide +kernel

theorem isEnumIn_overloadedEnum : ∃ site declaration, site.key = "E" ∧
    IsEnumIn {} [overloadedEnum] overloadedEnum
      (.among {} (declaredIn {} [overloadedEnum]) overloadedEnum) site declaration := by
  have areSites := sites_overloadedEnum
  have keys : (Site.ofUnits (parsedUnits {} [overloadedEnum])).map Site.key = ["E", "E$1"] := by
    decide +kernel
  have noneLoose : (CompilationUnit.parse {} overloadedEnum.text).1.looseClasses = [] := by
    show (CompilationUnit.ofTokens {} (Grammar.tokensOf {} overloadedEnum.text)).1.looseClasses = _
    decide +kernel
  have inFile : ∀ site ∈ Site.ofUnits (parsedUnits {} [overloadedEnum]), site.file = "E.java" := by
    decide +kernel
  cases isList : Site.ofUnits (parsedUnits {} [overloadedEnum]) with
  | nil => rw [isList] at keys; cases keys
  | cons site rest =>
    rw [isList, map_cons] at areSites
    have isFirst := (cons.inj areSites).1
    simp only [Prod.mk.injEq] at isFirst
    obtain ⟨isKey, isTop, isKind, areHeaders⟩ := isFirst
    have isIn : site ∈ Site.ofUnits (parsedUnits {} [overloadedEnum]) := by
      rw [isList]
      exact mem_cons_self
    cases isBody : site.body with
    | anonymous | constant => rw [isBody] at isKind; cases isKind
    | named declaration =>
      rw [isBody] at isKind areHeaders
      refine ⟨site, declaration, isKey,
        { pathsDiffer := by decide, isUnit := by rw [zip_compile]; exact mem_singleton.mpr rfl
          isSite := mem_filter.mpr ⟨isIn, beq_iff_eq.mpr (inFile site isIn)⟩
          areSole := ?_, isNamed := isBody, isEnum := isKind, isKnown := ?_, isSettled := ?_ }⟩
      · intro key isIn
        rw [isTop, isKey] at isIn
        obtain rfl := mem_singleton.mp isIn
        show ((Site.ofUnits (parsedUnits {} [overloadedEnum])).map Site.key).count "E" = 1
        rw [keys]
        decide
      · intro header isHeader
        have isShown := mem_map_of_mem (f := fun header : ConstructorHeader =>
          (header.compact, header.typeParameters.map TypeParameter.name)) isHeader
        have shown := areHeaders ▸ isShown
        obtain ⟨notCompact, noParameters⟩ : header.compact = false ∧
            header.typeParameters.map TypeParameter.name = [] := by
          simpa using shown
        refine ⟨notCompact, fun parameter _ name _ isLoose => ?_⟩
        rw [noParameters, append_nil] at isLoose
        exact absurd (noneLoose ▸ isLoose) not_mem_nil
      · intro first isFirst second isSecond sameOffset
        rw [inj_on_of_nodup_map nodup_writtenTypes_overloadedEnum isFirst isSecond sameOffset]

/-- A string chooses the second constructor, but the body of the constant is planned with the first
one, for a number. -/
theorem constructors_called_overloadedEnum :
    ∃ type method phase enumMembers,
      (declaredIn {} [overloadedEnum]).classPath.type? "E" = some type ∧
      Selection.among overloadedContext.path type.constructors [.string] = .found method phase ∧
      method.parameters = [.string] ∧
      (ofConstantBody overloadedContext (CompiledUnit.among {} (declaredIn {} [overloadedEnum])
        overloadedEnum).attribution.bindings "E$1" enumMembers 1 []).constructors =
          [constructorDescriptor [.string, .int, .int]] := by
  have isSome : ((declaredIn {} [overloadedEnum]).classPath.type? "E").isSome = true := by
    decide +kernel
  obtain ⟨type, isType⟩ := Option.isSome_iff_exists.mp isSome
  let taking (taken : Ty) : KnownMethod :=
    { name := "<init>", parameters := [taken], result := .void, owner := "E" }
  have areConstructors : type.constructors = [taking .int, taking .string] := by
    have isMapped : ((declaredIn {} [overloadedEnum]).classPath.type? "E").map
        KnownType.constructors = some [taking .int, taking .string] := by
      decide +kernel
    rw [isType] at isMapped
    exact Option.some.inj isMapped
  have isFound : Selection.among overloadedContext.path type.constructors [.string] =
      .found (taking .string) .strict := by
    rw [areConstructors]
    decide +kernel
  obtain ⟨site, declaration, isKey, isEnum⟩ := isEnumIn_overloadedEnum
  obtain ⟨first, isFirst, -, -, ofConstant⟩ := constructors_called isFound (by decide) "E$1" []
  rw [areConstructors] at isFirst
  obtain rfl : taking .int = first := Option.some.inj isFirst
  exact ⟨type, _, _, declaration.members, isType, isFound, rfl,
    ofConstant _ _ _ _ _ _ isEnum (by rw [isKey]; exact isType)⟩

end ClassPlan

end JavaFrontEnd
