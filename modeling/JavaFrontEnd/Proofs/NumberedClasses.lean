/-
The numbers of anonymous classes and of the bodies of enum constants. Among those of one class they
count in the order in which the walk over the units comes to them, which is the order of the text
but for some pairs (`Site.overtakings`).
-/

import JavaFrontEnd.Proofs.BinaryNames
import JavaFrontEnd.Proofs.Resolution.Agreement

namespace JavaFrontEnd

open List

namespace Site

/-! ### Numbers count in the order of the walk -/

/-- An anonymous class, or the body of an enum constant, that stands in a class. -/
structure IsUnnamedIn (owner : String) (site : Site) : Prop where
  isLocal : site.isLocal = true
  outer : site.outer = some owner
  name : site.body.name? = none

/-- Of two classes without a name in an owner the first has a smaller number. -/
def HasSmallerNumber (owner : String) (first second : Site) : Prop :=
  ∃ number greater : Nat, number < greater ∧ first.key = innerKey owner (toString number) ∧
    second.key = innerKey owner (toString greater)

variable {tops : List Slot} {sites between before : List Site} {owner : String}
  {site first second : Site}

theorem Laid.key_unnamed (laid : Laid tops (between ++ site :: before))
    (isUnnamed : site.IsUnnamedIn owner) :
    site.key = innerKey owner (toString (before.countP (inSeries owner none) + 1)) := by
  obtain ⟨isLocal, isOuter, isNone⟩ := isUnnamed
  cases laid.follows.1 with
  | top isFixed => rw [isLocal] at isFixed; cases isFixed
  | member _ _ isFixed => rw [isLocal] at isFixed; cases isFixed
  | numbered other _ isOther isKey =>
    obtain rfl : owner = other := Option.some.inj (isOuter.symm.trans isOther)
    rwa [isNone, Option.getD_none, String.append_empty] at isKey

/-- The sites are listed from the last to the first. -/
theorem Laid.hasSmallerNumber (laid : Laid tops sites) (isPair : [second, first] <+ sites)
    (unnamed : first.IsUnnamedIn owner) (unnamedToo : second.IsUnnamedIn owner) :
    HasSmallerNumber owner first second := by
  obtain ⟨later, earlier, rfl, isSecond, isFirst⟩ := cons_sublist_iff.mp isPair
  obtain ⟨last, middle, rfl⟩ := append_of_mem isSecond
  obtain ⟨between, before, rfl⟩ := append_of_mem (singleton_sublist.mp isFirst)
  have isCounted : inSeries owner none first = true := by
    simp [inSeries, unnamed.outer, unnamed.name]
  rw [append_assoc, cons_append] at laid
  have laidBefore : Laid tops ((middle ++ between) ++ first :: before) := by
    rw [append_assoc]
    exact laid.follows.2
  refine ⟨_, _, ?_, laidBefore.key_unnamed unnamed, laid.key_unnamed unnamedToo⟩
  simp only [countP_append, countP_cons_of_pos isCounted]
  omega

/-! ### The order of the walk and the order of the text -/

/-- A walk adds sites at landmarks of some nodes. One comes before another if it stands before it,
or if it may move before it. -/
def Found.InOrder (moved : List (Nat × Nat)) (nodes : List Node) (before after : Found) : Prop :=
  ∃ added : List Site, after.sites = added ++ before.sites ∧
    (∀ site ∈ added, site.body.offset ∈ Node.landmarksOf nodes) ∧
    ∀ first second, [second, first] <+ added →
      [first.body.offset, second.body.offset] <+ Node.landmarksOf nodes ∨
        (first.body.offset, second.body.offset) ∈ moved

open Found

namespace Found.InOrder

variable {moved others : List (Nat × Nat)} {nodes further : List Node}
  {before between after : Found}

theorem trans (inFirst : InOrder moved nodes before between)
    (inSecond : InOrder others further between after) :
    InOrder (moved ++ others) (nodes ++ further) before after := by
  obtain ⟨added, isAdded, areMarks, keeps⟩ := inFirst
  obtain ⟨more, isMore, areMarksToo, keepsToo⟩ := inSecond
  refine ⟨more ++ added, by rw [isMore, isAdded, append_assoc], ?_, ?_⟩
  · rw [Node.landmarksOf_append]
    exact forall_mem_append.mpr ⟨fun site isSite => mem_append_right _ (areMarksToo site isSite),
      fun site isSite => mem_append_left _ (areMarks site isSite)⟩
  · intro first second isPair
    rw [Node.landmarksOf_append, pair_sublist_append, mem_append]
    rcases pair_sublist_append.mp isPair with inMore | inAdded | ⟨isSecond, isFirst⟩
    · exact (keepsToo first second inMore).imp (fun inFurther => .inr (.inl inFurther)) .inr
    · exact (keeps first second inAdded).imp .inl .inl
    · exact .inl (.inr (.inr ⟨areMarks first isFirst, areMarksToo second isSecond⟩))

theorem declared {place : Place} {key : String} {body : SiteBody} {outer : Option String}
    {isLocal : Bool} {span : Span} (isOffset : body.offset = span.start.offset)
    (inside : InOrder moved nodes (before.add place key body outer isLocal) after) :
    InOrder moved (.name span :: nodes) before (after.leaving before) := by
  have isMark : Node.landmarksOf [.name span] = [body.offset] := by
    rw [isOffset]
    rfl
  have own : InOrder [] [.name span] before (before.add place key body outer isLocal) := by
    refine ⟨[_], rfl, ?_, fun first second isPair => ?_⟩
    · rw [isMark]
      exact forall_mem_singleton.mpr mem_cons_self
    · exact absurd isPair.length_le (Nat.not_succ_le_self 1)
  exact own.trans inside

theorem nothing (found : Found) : InOrder moved nodes found found :=
  ⟨[], rfl, forall_mem_nil _, fun _ _ isPair => absurd isPair.length_le (Nat.not_succ_le_zero 1)⟩

theorem widened {wider : List Node} (inOrder : InOrder moved nodes before after)
    (isPart : Node.landmarksOf nodes <+~ Node.landmarksOf wider)
    (keepsPairs : moved ⊆ others ∧ ∀ first second, [first, second] <+ Node.landmarksOf nodes →
      [first, second] <+ Node.landmarksOf wider ∨ (first, second) ∈ others) :
    InOrder others wider before after := by
  obtain ⟨added, isAdded, areMarks, keeps⟩ := inOrder
  refine ⟨added, isAdded, fun site isSite => isPart.subset (areMarks site isSite), ?_⟩
  exact fun first second isPair =>
    (keeps first second isPair).elim (keepsPairs.2 _ _) fun isMoved => .inr (keepsPairs.1 isMoved)

theorem within {wider : List Node} (inOrder : InOrder moved nodes before after)
    (isPart : Node.landmarksOf nodes <+ Node.landmarksOf wider) :
    InOrder moved wider before after :=
  inOrder.widened isPart.subperm ⟨Subset.refl _, fun _ _ isPair => .inl (isPair.trans isPart)⟩

end Found.InOrder

theorem Course.inOrder {moved : List (Nat × Nat)} {place : Place} {names : List String}
    {visits : List Visit} {nodes : List Node} {files : ClassPlan.Files} {run : Found → Found}
    (course : Course moved place names visits nodes files run) (found : Found) :
    InOrder moved nodes found (run found) := by
  induction course generalizing found with
  | passing =>
    exact .nothing found
  | trans _ _ first second => exact (first found).trans (second _)
  | reorder _ _ isPart _ keepsPairs inductionHypothesis =>
    exact (inductionHypothesis found).widened isPart keepsPairs
  | leaving _ inductionHypothesis | withVariables _ inductionHypothesis =>
    exact inductionHypothesis found
  | member _ _ _ _ inductionHypothesis | localClass _ _ _ _ inductionHypothesis =>
    exact .declared rfl (inductionHypothesis _ _)
  | unnamed _ _ isOffset _ _ _ inductionHypothesis =>
    exact .declared isOffset (inductionHypothesis _ _)

theorem inOrder_ofUnit (file : String) (unit : CompilationUnit) (found : Found) :
    InOrder (Gather.ofUnit overtakings unit) unit.node.parts found (ofUnit found file unit) := by
  refine .within (@ofUnit_induction file unit (fun declarations => InOrder
    (declarations.flatMap (Gather.ofDeclaration overtakings))
    (declarations.map TypeDeclaration.node)) .nothing (fun place declaration _ _ _ _ _ _ => ?_)
      found) (Node.landmarksOf_sublist (sublist_append_right _ _))
  rw [ofDeclaration_eq]
  exact .trans ((InOrder.declared rfl ((course_inside place _ declaration).inOrder _)).within
    declaration.landmarks_inside)

/-- Two entries of a list stand in it in one order or the other. -/
theorem pair_sublist_or {α : Type} {one other : α} {list : List α} (isOne : one ∈ list)
    (isOther : other ∈ list) (differ : one ≠ other) :
    [one, other] <+ list ∨ [other, one] <+ list := by
  obtain ⟨before, after, rfl⟩ := append_of_mem isOne
  rcases mem_append.mp isOther with isBefore | isAfter
  · exact .inr (pair_sublist_append.mpr (.inr (.inr ⟨isBefore, mem_cons_self⟩)))
  · rcases mem_cons.mp isAfter with rfl | isLater
    · exact absurd rfl differ
    · exact .inl (((singleton_sublist.mpr isLater).cons_cons one).trans (sublist_append_right _ _))

theorem laid_ofUnits (units : List (String × CompilationUnit)) :
    Laid (units.flatMap fun entry => topSlots entry.2) (ofUnits units).reverse := by
  obtain ⟨_, -, keeps, -⟩ :=
    lays_ofUnits units { sites := [], locals := [] } fun _ isTop => isTop
  unfold ofUnits
  rw [reverse_reverse]
  exact keeps trivial

/-- Of two anonymous classes or bodies of enum constants in one class, the one that stands before
the other in its source has the smaller number, unless they are a pair of those in the unit which
the walk takes the other way round. -/
theorem unnamed_numbered (configuration : Configuration) (sources : List SourceFile)
    (pathsDiffer : (sources.map SourceFile.path).Nodup) (source : SourceFile)
    (isSource : source ∈ sources) (first second : Site)
    (isFirst : first ∈ inFile (declaredIn configuration sources).sites source.path)
    (isSecond : second ∈ inFile (declaredIn configuration sources).sites source.path)
    (owner : String) (unnamed : first.IsUnnamedIn owner) (unnamedToo : second.IsUnnamedIn owner)
    (isEarlier : first.body.offset < second.body.offset) :
    HasSmallerNumber owner first second ∨ (second.body.offset, first.body.offset) ∈
      Gather.ofUnit overtakings (CompilationUnit.parse configuration source.text).1 := by
  have filesDiffer : ((parsedUnits configuration sources).map Prod.fst).Nodup := by
    unfold parsedUnits
    rw [map_map]
    exact pathsDiffer
  obtain ⟨found, -, ⟨later, areAll⟩, areAdded⟩ :=
    exists_added_ofUnit filesDiffer (mem_map_of_mem isSource)
  obtain ⟨added, isAdded, -, inOrder⟩ := inOrder_ofUnit source.path
    (CompilationUnit.parse configuration source.text).1 found
  have isHere := (areAdded added isAdded first).mp isFirst
  have isHereToo := (areAdded added isAdded second).mp isSecond
  have differ : second ≠ first := by
    rintro rfl
    exact Nat.lt_irrefl _ isEarlier
  rcases pair_sublist_or isHereToo isHere differ with isPair | isPair
  · have isWhole : [second, first] <+ (ofUnits (parsedUnits configuration sources)).reverse := by
      rw [areAll, isAdded]
      exact (isPair.trans (sublist_append_left _ _)).trans (sublist_append_right _ _)
    exact .inl ((laid_ofUnits _).hasSmallerNumber isWhole unnamed unnamedToo)
  · rcases inOrder second first isPair with inText | isMoved
    · have ascending := CompilationUnit.ascending_landmarks configuration source.text
      have isLater := (pairwise_pair.mp (ascending.sublist inText))
      omega
    · exact .inr isMoved

/-- A class in the body of a `do` statement, and one in its condition. -/
def doStatement : SourceFile :=
  ⟨"A.java", "class A\x7b\x7bdo new A()\x7b\x7d;while(new A()\x7b\x7d);\x7d\x7d"⟩

/-- What the numbering reads of a site. -/
def outlineOf (site : Site) : String × Nat × Bool × Option String × Option String :=
  (site.key, site.body.offset, site.isLocal, site.outer, site.body.name?)

theorem sites_doStatement :
    (inFile (declaredIn {} [doStatement]).sites doStatement.path).map outlineOf =
      [("A", 6, false, none, some "A"), ("A$1", 35, true, some "A", none),
        ("A$2", 19, true, some "A", none)] := by
  show (inFile (ofUnits (parsedUnits {} [doStatement])) "A.java").map outlineOf = _
  decide +kernel

theorem unnamed_numbered_doStatement : ∃ first second : Site,
    first.key = "A$2" ∧ second.key = "A$1" ∧ first.body.offset < second.body.offset ∧
      (HasSmallerNumber "A" first second ∨ (second.body.offset, first.body.offset) ∈
        Gather.ofUnit overtakings (CompilationUnit.parse {} doStatement.text).1) := by
  have exists_of_mem : ∀ outline ∈ [("A$1", 35, true, some "A", none),
      ("A$2", 19, true, some "A", none)], ∃ site ∈ inFile (declaredIn {} [doStatement]).sites
        doStatement.path, outlineOf site = outline := by
    intro outline isOutline
    refine mem_map.mp ?_
    rw [sites_doStatement]
    exact mem_cons_of_mem _ isOutline
  obtain ⟨second, isSecond, showsSecond⟩ := exists_of_mem _ mem_cons_self
  obtain ⟨first, isFirst, showsFirst⟩ := exists_of_mem _ (mem_cons_of_mem _ mem_cons_self)
  unfold outlineOf at showsFirst showsSecond
  simp only [Prod.mk.injEq] at showsFirst showsSecond
  obtain ⟨key, offset, isLocal, outer, name⟩ := showsFirst
  obtain ⟨keyToo, offsetToo, isLocalToo, outerToo, nameToo⟩ := showsSecond
  have isEarlier : first.body.offset < second.body.offset := by
    rw [offset, offsetToo]
    decide
  exact ⟨first, second, key, keyToo, isEarlier, unnamed_numbered {} [doStatement]
    (nodup_singleton _) doStatement mem_cons_self first second isFirst isSecond "A"
    ⟨isLocal, outer, name⟩ ⟨isLocalToo, outerToo, nameToo⟩ isEarlier⟩

end Site

end JavaFrontEnd
