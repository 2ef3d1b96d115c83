/-
The class files that are planned for a unit, against the classes that get a key. The walk that plans
class files makes one for each class that the list of classes marks as keyed (`names_ofUnit`). In a
compilation of parsed sources with different paths the names of the class files of a source are
those of the keys of its sites (`plans_perm_sites`).
-/

import JavaFrontEnd.Proofs.Listings
import JavaFrontEnd.Proofs.Registration

namespace JavaFrontEnd

open List

/-! The offsets by which classes are found again. Each class that stands in a unit begins at a
landmark of its own: the name of a declaration, or the brace that opens a body. In a unit that was
parsed the landmarks ascend, so that no two classes have the same offset
(`CompilationUnit.nodup_offsets`). -/

section

namespace Visit

variable {visits others : List Visit} {nodes further : List Node}

/-- The keyed ones of some classes begin at landmarks of some nodes, each at its own. -/
def Marked (visits : List Visit) (nodes : List Node) : Prop :=
  (keyed visits).map ClassNode.offset <+~ Node.landmarksOf nodes

theorem Marked.append (first : Marked visits nodes) (second : Marked others further) :
    Marked (visits ++ others) (nodes ++ further) := by
  unfold Marked
  rw [keyed_append, map_append, Node.landmarksOf_append]
  exact Subperm.append first second

theorem Marked.own {node : ClassNode} {span : Span} (isOffset : node.offset = span.start.offset)
    (marked : Marked visits nodes) : Marked (⟨node, true⟩ :: visits) (.name span :: nodes) := by
  show node.offset :: (keyed visits).map _ <+~ span.start.offset :: Node.landmarksOf nodes
  rw [isOffset]
  exact (subperm_cons _).mpr marked

end Visit

open Visit

theorem Site.Course.marked {names : List String}
    (course : Course moved place names visits nodes files run) : Marked visits nodes := by
  induction course with
  | passing place visits nodes =>
    unfold Marked
    rw [keyed_map_unkeyed]
    exact nil_subperm
  | trans _ _ first second => exact first.append second
  | reorder _ same isPart _ _ ih =>
    exact ((same.filterMap _).map ClassNode.offset).symm.subperm.trans (ih.trans isPart)
  | leaving _ ih | withVariables _ ih => exact ih
  | member declaration _ _ _ ih | localClass declaration _ _ _ ih => exact .own rfl (ih "")
  | unnamed body _ isOffset _ _ _ ih => exact .own (body.offset_node.trans isOffset) (ih "")

namespace Visit

theorem marked_ofDeclaration (place : Site.Place) (declaration : TypeDeclaration) :
    Marked (ofDeclaration declaration) [declaration.node] := by
  have inside := (Site.course_inside place "" declaration).marked
  cases declaration
  exact Subperm.trans (Marked.own rfl inside) (TypeDeclaration.landmarks_inside _).subperm

theorem marked_ofUnit (unit : CompilationUnit) : Marked (ofUnit unit) unit.node.parts := by
  let place : Site.Place := { file := "", unit, owner := "", enclosing := [], typeVariables := [] }
  have inTypes : Marked (ofUnit unit) (unit.types.map TypeDeclaration.node) := by
    unfold ofUnit
    induction unit.types with
    | nil => exact nil_subperm
    | cons declaration rest ih => exact (marked_ofDeclaration place declaration).append ih
  exact Subperm.trans inTypes (Node.landmarksOf_sublist (sublist_append_right _ _)).subperm

end Visit

theorem CompilationUnit.ascending_landmarks (config : Configuration) (source : String) :
    (Node.landmarksOf (parse config source).1.node.parts).Pairwise (· < ·) := by
  have parsed := Grammar.parsed_source config source
  rw [parse_eq]
  exact (parsed.gathered.region _ rfl).ascending

theorem CompilationUnit.nodup_offsets (config : Configuration) (source : String) :
    ((Visit.keyed (Visit.ofUnit (parse config source).1)).map ClassNode.offset).Nodup := by
  obtain ⟨marks, same, isSublist⟩ := Visit.marked_ofUnit (parse config source).1
  exact same.nodup_iff.mp
    (((ascending_landmarks config source).sublist isSublist).imp Nat.ne_of_lt)

end

namespace ClassPlan

/-! ### The names of class files -/

def names (plans : List ClassPlan) : List String :=
  (flattenAll plans).map name

theorem flattenAll_eq_flatMap (plans : List ClassPlan) :
    flattenAll plans = plans.flatMap flatten := by
  induction plans with
  | nil => rfl
  | cons plan rest ih =>
    rw [flattenAll, ih, flatMap_cons]

theorem names_append (first second : List ClassPlan) :
    names (first ++ second) = names first ++ names second := by
  unfold names
  rw [flattenAll_eq_flatMap, flattenAll_eq_flatMap, flattenAll_eq_flatMap, flatMap_append,
    map_append]

theorem names_perm {first : List ClassPlan} (same : first.Perm second) :
    (names first).Perm (names second) := by
  unfold names
  rw [flattenAll_eq_flatMap, flattenAll_eq_flatMap]
  exact (same.flatMap_right flatten).map name

theorem names_singleton (plan : ClassPlan) (nested : List ClassPlan) :
    names [{ plan with nested }] = plan.name :: names nested := by
  unfold names
  rw [flattenAll, flattenAll, append_nil, flatten]
  rfl

theorem names_inOrder (located : Located) :
    (names (inOrder located)).Perm (names (located.map Prod.snd)) :=
  names_perm ((mergeSort_perm located _).map Prod.snd)

/-! ### Plans for classes -/

def nameOf (context : UnitContext) (node : ClassNode) : String :=
  Ty.binaryName (context.keyAt node.offset "")

/-- Where the keyed ones of some classes have keys, class files are planned for them, one for each
and for no other. -/
def Plans (context : UnitContext) (located : Located) (visits : List Visit) : Prop :=
  (∀ node ∈ Visit.keyed visits, (context.keyAt? node.offset).isSome = true) →
    (names (located.map Prod.snd)).Perm ((Visit.keyed visits).map (nameOf context))

namespace Plans

variable {context : UnitContext} {located more : Located} {visits others : List Visit}

theorem unkeyed (context : UnitContext) (visits : List Visit) :
    Plans context [] (visits.map Visit.unkeyed) := by
  intro _
  rw [Visit.keyed_map_unkeyed]
  exact .nil

theorem append (first : Plans context located visits) (second : Plans context more others) :
    Plans context (located ++ more) (visits ++ others) := by
  intro registered
  rw [Visit.keyed_append] at registered ⊢
  rw [forall_mem_append] at registered
  rw [map_append, map_append, names_append]
  exact (first registered.1).append (second registered.2)

theorem reorder (plans : Plans context located visits) (same : visits.Perm others)
    (sameFiles : located.Perm more) : Plans context more others := by
  intro registered
  have sameKeyed : (Visit.keyed visits).Perm (Visit.keyed others) := same.filterMap _
  refine (names_perm (sameFiles.map Prod.snd)).symm.trans ?_
  refine (plans fun node isKeyed => registered node (sameKeyed.mem_iff.mp isKeyed)).trans ?_
  exact sameKeyed.map (nameOf context)

theorem own {plan : ClassPlan} {node : ClassNode} (substitute : String)
    (isNamed : plan.name = Ty.binaryName (context.keyAt node.offset substitute))
    (inside : Plans context located visits) :
    Plans context [(offset, { plan with nested := inOrder located })] (⟨node, true⟩ :: visits) := by
  intro registered
  have isKeyed : Visit.keyed (⟨node, true⟩ :: visits) = node :: Visit.keyed visits := rfl
  rw [isKeyed] at registered ⊢
  obtain ⟨hasKey, others⟩ := forall_mem_cons.mp registered
  obtain ⟨key, isKey⟩ := Option.isSome_iff_exists.mp hasKey
  have sameName : plan.name = nameOf context node := by
    rw [isNamed, nameOf]
    unfold UnitContext.keyAt
    rw [isKey, Option.getD_some, Option.getD_some]
  rw [map_singleton, names_singleton, map_cons, sameName]
  exact ((names_inOrder located).trans (inside others)).cons _

end Plans

end ClassPlan

open ClassPlan

theorem Site.Course.plans {names : List String}
    (course : Course moved place names visits nodes files run) (context : UnitContext)
    (bindings : Bindings) (owner : String) :
    Plans context (files context bindings owner) visits := by
  induction course generalizing owner with
  | passing _ visits => exact .unkeyed context visits
  | trans _ _ first second => exact (first owner).append (second owner)
  | reorder _ same _ sameFiles _ ih =>
    exact (ih owner).reorder same (sameFiles context bindings owner)
  | leaving _ ih | withVariables _ ih => exact ih owner
  | member declaration _ substitute _ ih | localClass declaration _ substitute _ ih =>
    exact .own (substitute owner) (name_ofHeader _ _) (ih "" _)
  | unnamed body _ isOffset _ isNamed _ ih =>
    exact .own s!"{owner}$" (by rw [isNamed, body.offset_node, isOffset]) (ih "" _)

namespace ClassPlan

variable {context : UnitContext} {bindings : Bindings}

theorem plans_ofDeclaration (place : Site.Place) (substitute : String)
    (declaration : TypeDeclaration) :
    Plans context [(0, ofDeclaration context bindings
        (context.keyAt declaration.header.nameSpan.start.offset substitute) declaration)]
      (Visit.ofDeclaration declaration) := by
  have inside := (Site.course_inside place "" declaration).plans context bindings
  cases declaration
  exact .own substitute (name_ofHeader _ _) (inside _)

theorem plans_ofUnit (unit : CompilationUnit) :
    Plans context ((ofUnit context bindings unit).map (Prod.mk 0)) (Visit.ofUnit unit) := by
  unfold ofUnit Visit.ofUnit
  let place : Site.Place := { file := "", unit, owner := "", enclosing := [], typeVariables := [] }
  generalize unit.qualify = qualify
  induction unit.types with
  | nil => exact fun _ => .nil
  | cons declaration rest ih =>
    exact (plans_ofDeclaration place (qualify declaration.name) declaration).append ih

theorem names_ofUnit
    (registered : ∀ node ∈ Visit.keyed (Visit.ofUnit unit), (context.keyAt? node.offset).isSome =
      true) :
    (names (ofUnit context bindings unit)).Perm
      ((Visit.keyed (Visit.ofUnit unit)).map (nameOf context)) := by
  have planned := @plans_ofUnit context bindings unit registered
  rw [map_map] at planned
  have same : (ofUnit context bindings unit).map (Prod.snd ∘ Prod.mk 0) =
      ofUnit context bindings unit := map_id _
  rwa [same] at planned

end ClassPlan

/-! ### The sites of a file -/

namespace Site

def inFile (sites : List Site) (file : String) : List Site :=
  sites.filter fun site => site.file == file

theorem inFile_append (first second : List Site) (file : String) :
    inFile (first ++ second) file = inFile first file ++ inFile second file :=
  filter_append ..

theorem nodes_inFile_ofUnits (units : List (String × CompilationUnit)) (file : String) :
    ((inFile (ofUnits units) file).map fun site => site.body.node).Perm
      ((units.filter fun entry => entry.1 == file).flatMap fun entry =>
        Visit.keyed (Visit.ofUnit entry.2)) := by
  have general : ∀ found : Found,
      ((inFile (units.foldl (fun found entry => ofUnit found entry.1 entry.2) found).sites
        file).map fun site => site.body.node).Perm
        ((units.filter fun entry => entry.1 == file).flatMap (fun entry =>
          Visit.keyed (Visit.ofUnit entry.2)) ++
            (inFile found.sites file).map fun site => site.body.node) := by
    induction units with
    | nil => exact fun _ => .refl _
    | cons first rest ih =>
      intro found
      obtain ⟨added, isAdded, inFirst, same⟩ := adds_ofUnit found first.1 first.2
      refine (ih (ofUnit found first.1 first.2)).trans ?_
      rw [isAdded, inFile_append, map_append]
      by_cases isFile : (first.1 == file) = true
      · have all : inFile added file = added := by
          refine filter_eq_self.mpr fun site isSite => ?_
          rw [inFirst site isSite]
          exact isFile
        rw [filter_cons, if_pos isFile, flatMap_cons, all, append_assoc]
        refine Perm.trans ?_ (perm_append_comm_assoc _ _ _)
        exact (same.append_right _).append_left _
      · have none : inFile added file = [] := by
          refine filter_eq_nil_iff.mpr fun site isSite => ?_
          rw [inFirst site isSite]
          exact isFile
        rw [filter_cons, if_neg isFile, none, map_nil, nil_append]
  have isReversed : (inFile (ofUnits units) file).Perm
      (inFile (units.foldl (fun found entry => ofUnit found entry.1 entry.2)
        { sites := [], locals := [] }).sites file) :=
    (reverse_perm _).filter _
  have all := general { sites := [], locals := [] }
  have none : inFile [] file = [] := rfl
  rw [none, map_nil, append_nil] at all
  exact (isReversed.map _).trans all

end Site

theorem DeclaredTypes.keyAt?_of_mem {declared : DeclaredTypes} {file : String}
    (differ : ((Site.inFile declared.sites file).map fun site => site.body.offset).Nodup)
    {site : Site} (isSite : site ∈ Site.inFile declared.sites file) :
    declared.keyAt? file site.body.offset = some site.key := by
  obtain ⟨isListed, inFile⟩ := mem_filter.mp isSite
  have isThere : (declared.sites.reverse.find? fun other =>
      other.file == file && other.body.offset == site.body.offset).isSome = true := by
    rw [find?_isSome]
    refine ⟨site, mem_reverse.mpr isListed, ?_⟩
    rw [inFile, beq_self_eq_true, Bool.and_true]
  obtain ⟨other, isFound⟩ := Option.isSome_iff_exists.mp isThere
  have isSame := find?_some isFound
  rw [Bool.and_eq_true, beq_iff_eq (a := other.body.offset)] at isSame
  have isOther : other ∈ Site.inFile declared.sites file :=
    mem_filter.mpr ⟨mem_reverse.mp (mem_of_find?_eq_some isFound), isSame.1⟩
  unfold keyAt?
  rw [isFound, Option.map_some, inj_on_of_nodup_map differ isOther isSite isSame.2]

/-! ### The class files of a compilation -/

theorem filter_name_cases {α : Type} {items : List α} {name : α → String}
    (differ : (items.map name).Nodup) (wanted : String) :
    (items.filter fun item => name item == wanted) = [] ∨
      ∃ item, (items.filter fun item => name item == wanted) = [item] := by
  have isNamed : ∀ item ∈ items.filter (fun item => name item == wanted), name item = wanted :=
    fun item isItem => eq_of_beq (mem_filter.mp isItem).2
  have apart : (items.filter fun item => name item == wanted).Pairwise fun first second =>
      name first ≠ name second :=
    (pairwise_map.mp differ).filter _
  cases areNamed : items.filter fun item => name item == wanted with
  | nil => exact .inl rfl
  | cons first rest =>
    cases rest with
    | nil => exact .inr ⟨first, rfl⟩
    | cons second rest =>
      rw [areNamed] at isNamed apart
      refine absurd ?_ ((pairwise_cons.mp apart).1 second mem_cons_self)
      rw [isNamed first mem_cons_self, isNamed second (mem_cons_of_mem _ mem_cons_self)]

theorem filter_name_eq_singleton {α : Type} {items : List α} {name : α → String}
    (differ : (items.map name).Nodup) {item : α} (isItem : item ∈ items) :
    (items.filter fun other => name other == name item) = [item] := by
  have isNamed : item ∈ items.filter fun other => name other == name item :=
    mem_filter.mpr ⟨isItem, beq_self_eq_true _⟩
  rcases filter_name_cases differ (name item) with none | ⟨other, one⟩
  · rw [none] at isNamed
    cases isNamed
  · rw [one] at isNamed ⊢
    rw [mem_singleton.mp isNamed]

theorem nodes_inFile_declaredIn {config : Configuration} {sources : List SourceFile}
    (differ : (sources.map SourceFile.path).Nodup) {source : SourceFile}
    (isSource : source ∈ sources) :
    ((Site.inFile (declaredIn config sources).sites source.path).map fun site =>
      site.body.node).Perm
      (Visit.keyed (Visit.ofUnit (CompilationUnit.parse config source.text).1)) := by
  let units := sources.map fun source => (source.path, (CompilationUnit.parse config source.text).1)
  have isEntry : (source.path, (CompilationUnit.parse config source.text).1) ∈ units :=
    mem_map_of_mem isSource
  have pathsDiffer : (units.map Prod.fst).Nodup := by
    rw [map_map]
    exact differ
  have listed := Site.nodes_inFile_ofUnits units source.path
  rw [filter_name_eq_singleton pathsDiffer isEntry, flatMap_singleton] at listed
  exact listed

theorem nodup_offsets_inFile {sources : List SourceFile}
    (differ : (sources.map SourceFile.path).Nodup) (isSource : source ∈ sources) :
    ((Site.inFile (declaredIn config sources).sites source.path).map fun site =>
      site.body.offset).Nodup := by
  have offsets :=
    (@nodes_inFile_declaredIn config sources differ source isSource).map ClassNode.offset
  simp only [map_map, Function.comp_def, SiteBody.offset_node] at offsets
  rw [offsets.nodup_iff]
  exact CompilationUnit.nodup_offsets config source.text

/-- The class files of each source have the names of the keys that are registered for the classes
of its unit: as many class files for a name as there are classes with its key. -/
theorem plans_perm_sites (configuration : Configuration) (sources : List SourceFile)
    (differ : (sources.map SourceFile.path).Nodup) (source : SourceFile) (unit : CompiledUnit)
    (isUnit : (source, unit) ∈ sources.zip (compile configuration sources)) :
    (ClassPlan.names unit.plans).Perm
      ((Site.inFile (declaredIn configuration sources).sites source.path).map fun site =>
        Ty.binaryName site.key) := by
  rw [zip_compile] at isUnit
  obtain ⟨_, isSource, isPair⟩ := mem_map.mp isUnit
  cases isPair
  have nodes := @nodes_inFile_declaredIn configuration sources differ source isSource
  have hasKey : ∀ site ∈ Site.inFile (declaredIn configuration sources).sites source.path,
      (declaredIn configuration sources).index.keyAt? source.path site.body.offset =
        some site.key :=
    fun site isSite => DeclaredTypes.keyAt?_of_mem (nodup_offsets_inFile differ isSource) isSite
  refine (ClassPlan.names_ofUnit fun node isKeyed => ?_).trans ?_
  · obtain ⟨site, isSite, rfl⟩ := mem_map.mp (nodes.mem_iff.mpr isKeyed)
    rw [SiteBody.offset_node]
    exact Option.isSome_of_eq_some (hasKey site isSite)
  · refine (nodes.symm.map _).trans (List.Perm.of_eq ?_)
    rw [map_map]
    refine map_congr_left fun site isSite => ?_
    have isKey := hasKey site isSite
    unfold Function.comp ClassPlan.nameOf UnitContext.keyAt UnitContext.keyAt?
    rw [SiteBody.offset_node, isKey, Option.getD_some]

def soleClass : SourceFile := ⟨"A.java", "class A\x7b\x7d"⟩

theorem plans_perm_sites_soleClass :
    (ClassPlan.names (CompiledUnit.among {} (declaredIn {} [soleClass]) soleClass).plans).Perm
      ["A"] := by
  have isUnit : (soleClass, CompiledUnit.among {} (declaredIn {} [soleClass]) soleClass) ∈
      [soleClass].zip (compile {} [soleClass]) := by
    exact mem_cons_self
  have planned := plans_perm_sites {} [soleClass] (nodup_singleton _) soleClass _ isUnit
  have isName : ((Site.inFile (declaredIn {} [soleClass]).sites soleClass.path).map fun site =>
      Ty.binaryName site.key) = ["A"] := by
    decide +kernel
  rwa [isName] at planned

end JavaFrontEnd
