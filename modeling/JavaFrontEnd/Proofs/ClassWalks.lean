/-
The walks over the classes of a unit: one gives classes their keys, another plans class files, and
the list of classes that stand in a unit is read off in an order of its own. They are gone through
side by side, with the nodes of the text (`Site.Course`), so that what one of them does can be told
from the others.
-/

import JavaFrontEnd.ClassFile.Plan
import JavaFrontEnd.Proofs.Tree.Expressions
import JavaFrontEnd.Proofs.Tree.Nodes
import Mathlib.Data.List.Perm.Subperm

namespace JavaFrontEnd

open List

/-! The classes that stand in a unit: its type declarations, wherever they are, and the bodies of
anonymous classes and of enum constants, in the order in which the walk that binds names comes to
them. Beside each stands whether the walk that gives classes their keys comes there too. It does not
come to local classes in the blocks of lambdas and of switch expressions, nor to the default value
of a method, nor to what is inside such a class. -/

/-- A class that stands in a unit: a type declaration, or a class body without a name. -/
inductive ClassNode where
  | declaration (declaration : TypeDeclaration)
  | body (body : ClassBody)

/-- The offset by which a class is found again: that of its name, or of the brace that opens its
body. -/
def ClassNode.offset : ClassNode → Nat
  | .declaration declared => declared.header.nameSpan.start.offset
  | .body members => members.span.start.offset

def SiteBody.node : SiteBody → ClassNode
  | .named declaration => .declaration declaration
  | .anonymous _ body | .constant _ body => .body body

@[simp]
theorem SiteBody.offset_node (body : SiteBody) : body.node.offset = body.offset := by
  cases body <;> rfl

structure Visit where
  node : ClassNode
  /-- The walk that gives classes their keys comes here. -/
  isKeyed : Bool

namespace Visit

def unkeyed (visit : Visit) : Visit :=
  { visit with isKeyed := false }

def keyed (visits : List Visit) : List ClassNode :=
  visits.filterMap fun visit => if visit.isKeyed then some visit.node else none

@[simp]
theorem keyed_append (first second : List Visit) :
    keyed (first ++ second) = keyed first ++ keyed second :=
  List.filterMap_append

@[simp]
theorem keyed_map_unkeyed (visits : List Visit) : keyed (visits.map unkeyed) = [] := by
  simp [keyed, unkeyed]

theorem mem_keyed_iff (visits : List Visit) (node : ClassNode) :
    node ∈ keyed visits ↔ ⟨node, true⟩ ∈ visits := by
  simp only [keyed, List.mem_filterMap]
  constructor
  · rintro ⟨⟨other, isKeyed⟩, member, same⟩
    cases isKeyed with
    | false => cases same
    | true =>
      obtain rfl : other = node := Option.some.inj same
      exact member
  · exact fun member => ⟨_, member, rfl⟩

/-! ### The classes of a unit -/

/-- Lists of the classes that stand in a unit, with entries of a type `α`. Values of a type `σ` tell
where a local class stands. -/
class ClassList (α : Type) (σ : outParam Type) where
  type : TypeDeclaration → List α → List α
  body : ClassBody → List α → List α
  localClass : σ → TypeDeclaration → List α → List α
  /-- What is in the default value of a method. -/
  aside : List α → List α
  /-- Directly in the body of a member. -/
  inMember : σ
  /-- In a block or in a switch inside an expression. -/
  inExpression : σ
  /-- In a block that is a statement or is guarded by a lock. -/
  inBlock : σ → σ
  /-- In any other part of a statement. -/
  below : σ → σ

instance : ClassList Visit Bool where
  type declaration inside := ⟨.declaration declaration, true⟩ :: inside
  body body inside := ⟨.body body, true⟩ :: inside
  localClass declares _ visits := if declares then visits else visits.map unkeyed
  aside := map unkeyed
  inMember := true
  inExpression := false
  inBlock := id
  below := id

section

open ClassList

variable [ClassList α σ]

mutual

def ofDeclaration : TypeDeclaration → List α
  | ⟨header, constants, members⟩ =>
    type ⟨header, constants, members⟩ (ofConstants constants ++ ofMembers members)

def ofConstants : List EnumConstant → List α
  | [] => []
  | ⟨_, arguments, body⟩ :: rest =>
    ofExpressions arguments ++ (ofOptionalBody body ++ ofConstants rest)

def ofOptionalBody : Option ClassBody → List α
  | none => []
  | some ⟨members, span⟩ => body ⟨members, span⟩ (ofMembers members)

def ofMembers : List Member → List α
  | [] => []
  | member :: rest => ofMember member ++ ofMembers rest

def ofMember : Member → List α
  | .type declaration => ofDeclaration declaration
  | .field _ initializer => ofOptional initializer
  | .method _ body value => ofOptionalBlock (inMember α) body ++ aside (ofOptional value)
  | .constructor _ call body => ofCall call ++ ofBlock (inMember α) body
  | .initializer _ body _ => ofBlock (inMember α) body

def ofCall : ConstructorCall → List α
  | .implicit => []
  | .this arguments _ | .super arguments _ => ofExpressions arguments

def ofExpressions : List Expression → List α
  | [] => []
  | expression :: rest => ofExpression expression ++ ofExpressions rest

def ofOptional : Option Expression → List α
  | none => []
  | some expression => ofExpression expression

def ofExpression : Expression → List α
  | .field target .. => ofExpression target
  | .call target _ _ _ arguments _ _ => ofOptional target ++ ofExpressions arguments
  | .binary _ left right _ => ofExpression left ++ ofExpression right
  | .unary _ operand _ => ofExpression operand
  | .assignment _ target value _ => ofExpression target ++ ofExpression value
  | .index array index _ => ofExpression array ++ ofExpression index
  | .cast _ _ operand _ => ofExpression operand
  | .instanceOf operand _ _ | .instanceOfPattern operand _ _ => ofExpression operand
  | .conditional condition yes no _ =>
    ofExpression condition ++ (ofExpression yes ++ ofExpression no)
  | .create outer _ arguments body _ _ =>
    ofOptional outer ++ (ofExpressions arguments ++ ofOptionalBody body)
  | .createArray _ sizes _ initializer _ => ofExpressions sizes ++ ofOptional initializer
  | .arrayInitializer elements _ => ofExpressions elements
  | .lambda _ body _ => ofExpression body
  | .blockLambda _ body _ => ofBlock (inExpression α) body
  | .methodReference target _ _ => ofExpression target
  | .switch selector cases _ _ => ofExpression selector ++ ofCases (inExpression α) cases
  | .parenthesized inner _ => ofExpression inner
  | .literal .. | .name .. | .typeMethodReference .. | .this .. | .super _ | .classLiteral ..
  | .erroneous _ => []

def ofBlock (place : σ) : Block → List α
  | ⟨statements, _⟩ => ofStatements place statements

def ofOptionalBlock (place : σ) : Option Block → List α
  | none => []
  | some block => ofBlock place block

def ofStatements (place : σ) : List Statement → List α
  | [] => []
  | statement :: rest => ofStatement place statement ++ ofStatements place rest

def ofOptionalStatement (place : σ) : Option Statement → List α
  | none => []
  | some statement => ofStatement place statement

def ofStatement (place : σ) : Statement → List α
  | .typeDeclaration declaration => localClass place declaration (ofDeclaration declaration)
  | .expression expression _ => ofExpression expression
  | .locals _ declarations _ => ofDeclarators declarations
  | .conditional condition yes no _ =>
    ofExpression condition ++
      (ofStatement (below α place) yes ++ ofOptionalStatement (below α place) no)
  | .while condition body _ => ofExpression condition ++ ofStatement (below α place) body
  | .doWhile body condition _ => ofStatement (below α place) body ++ ofExpression condition
  | .for initial condition update body _ =>
    ofStatements (below α place) initial ++
      (ofOptional condition ++ (ofStatement (below α place) body ++ ofExpressions update))
  | .forEach _ iterable body _ => ofExpression iterable ++ ofStatement (below α place) body
  | .switch selector cases _ _ => ofExpression selector ++ ofCases (below α place) cases
  | .return value _ => ofOptional value
  | .yield value _ | .throw value _ => ofExpression value
  | .try resources body catches finallyBlock _ =>
    (ofResources resources ++ ofBlock (below α place) body) ++
      (ofCatches (below α place) catches ++ ofOptionalBlock (below α place) finallyBlock)
  | .assert condition message _ => ofExpression condition ++ ofOptional message
  | .synchronized lock body _ => ofExpression lock ++ ofBlock (inBlock α place) body
  | .labeled _ body _ => ofStatement (below α place) body
  | .block body => ofBlock (inBlock α place) body
  | .break .. | .continue .. | .empty _ => []

def ofDeclarators : List Declarator → List α
  | [] => []
  | ⟨_, initializer⟩ :: rest => ofOptional initializer ++ ofDeclarators rest

def ofResources : List Resource → List α
  | [] => []
  | .declared _ initializer _ :: rest => ofExpression initializer ++ ofResources rest
  | .expression expression _ :: rest => ofExpression expression ++ ofResources rest

def ofCatches (place : σ) : List CatchClause → List α
  | [] => []
  | ⟨_, _, block, _⟩ :: rest => ofBlock place block ++ ofCatches place rest

def ofCases (place : σ) : List SwitchCase → List α
  | [] => []
  | .group labels statements _ :: rest =>
    ofLabels labels ++ ofStatements place statements ++ ofCases place rest
  | .valueRule label value _ :: rest | .throwRule label value _ _ :: rest =>
    ofLabel label ++ ofExpression value ++ ofCases place rest
  | .blockRule label block _ :: rest => ofLabel label ++ ofBlock place block ++ ofCases place rest

def ofLabels : List SwitchLabel → List α
  | [] => []
  | label :: rest => ofLabel label ++ ofLabels rest

def ofLabel : SwitchLabel → List α
  | ⟨elements, guard, _⟩ => ofElements elements ++ ofOptional guard

def ofElements : List CaseElement → List α
  | [] => []
  | .constant value :: rest => ofExpression value ++ ofElements rest
  | .pattern _ :: rest | .null _ :: rest | .default _ :: rest => ofElements rest

end

end

def ofUnit (unit : CompilationUnit) : List Visit :=
  unit.types.flatMap ofDeclaration

end Visit

def Member.typeNames : Member → List String
  | .type declaration => [declaration.name]
  | .field .. | .method .. | .constructor .. | .initializer .. => []

namespace ClassPlan

abbrev Files := UnitContext → Bindings → String → Located

instance : Append Files :=
  ⟨fun first second context bindings owner =>
    first context bindings owner ++ second context bindings owner⟩

def Files.under (plan : UnitContext → Bindings → String → ClassPlan) (offset : Nat)
    (substitute : String → String) (files : Files) : Files :=
  fun context bindings owner =>
    let key := context.keyAt offset (substitute owner)
    [(offset, { plan context bindings key with nested := inOrder (files context bindings key) })]

end ClassPlan

namespace Site

open ClassPlan (Files)

/-! ### The course of the walks -/

def declare (place : Place) (body : SiteBody) (outer : Option String) (isLocal : Bool)
    (inside : String → Found → Found) (key : String) (found : Found) : Found :=
  (inside key (found.add place key body outer isLocal)).leaving found

def insideDeclaration (place : Place) (declaration : TypeDeclaration) (key : String)
    (found : Found) : Found :=
  let inner := place.inside key (declaration.header.shape.typeParameters.map TypeParameter.name)
  ofMembers inner declaration.members (ofConstants inner declaration.constants found)

theorem ofDeclaration_eq (place : Place) (key : String) (outer : Option String) (isLocal : Bool)
    (declaration : TypeDeclaration) :
    ofDeclaration place key outer isLocal declaration = declare place (.named declaration) outer
      isLocal (insideDeclaration place declaration) key := by
  cases declaration
  rfl

/-- What is true of the walk over no declaration, and of that over some if the first one is walked
over before, is true of the walk over a unit. -/
theorem ofUnit_induction {file : String} {unit : CompilationUnit}
    {holds : List TypeDeclaration → Found → Found → Prop} (nothing : ∀ found, holds [] found found)
    (next : ∀ (place : Place) declaration rest found after, place.file = file →
      place.unit = unit → declaration ∈ unit.types →
      holds rest (ofDeclaration place (unit.qualify declaration.name) none false declaration found)
        after → holds (declaration :: rest) found after) (found : Found) :
    holds unit.types found (ofUnit found file unit) := by
  have general : ∀ declarations ⊆ unit.types, ∀ found, holds declarations found
      (declarations.foldl (fun found declaration => ofDeclaration ⟨file, unit, "", [], []⟩
        (unit.qualify declaration.name) none false declaration found) found) := by
    intro declarations isPart
    induction declarations with
    | nil => exact nothing
    | cons declaration rest inductionHypothesis =>
      obtain ⟨isFirst, areRest⟩ := cons_subset.mp isPart
      exact fun found => next _ _ _ _ _ rfl rfl isFirst (inductionHypothesis areRest _)
  exact general unit.types (Subset.refl _) found

/-- What the walks at a place are made of: they come to classes, one of which may be a member type,
a local class or a class without a name, and they pass by others. Beside the walk that gives keys
stand the names of the member types that it comes to, the classes of its part of the unit in any
order, the nodes of the part in the order of the text, and its class files. Before them stand the
pairs of landmarks of which the walk may come to the first before the second although it stands
behind it. -/
inductive Course : List (Nat × Nat) →
    Place → List String → List Visit → List Node → Files → (Found → Found) → Prop
  | passing {moved} (place : Place) (visits : List Visit) (nodes : List Node) :
    Course moved place [] (visits.map Visit.unkeyed) nodes (fun _ _ _ => []) fun found => found
  | trans {moved alsoMoved place names more visits others nodes further files filed run later}
      (first : Course moved place names visits nodes files run)
      (second : Course alsoMoved place more others further filed later) :
    Course (moved ++ alsoMoved) place (names ++ more) (visits ++ others) (nodes ++ further)
      (files ++ filed) fun found => later (run found)
  | reorder {moved allMoved place names visits others nodes wider files filed run}
      (course : Course moved place names visits nodes files run) (same : visits.Perm others)
      (isPart : Node.landmarksOf nodes <+~ Node.landmarksOf wider)
      (sameFiles : ∀ context bindings owner,
        (files context bindings owner).Perm (filed context bindings owner))
      (keepsPairs : moved ⊆ allMoved ∧ ∀ first second, [first, second] <+ Node.landmarksOf nodes →
        [first, second] <+ Node.landmarksOf wider ∨ (first, second) ∈ allMoved) :
    Course allMoved place names others wider filed run
  | leaving {moved place names visits nodes files run}
      (course : Course moved place names visits nodes files run) :
    Course moved place names visits nodes files fun found => (run found).leaving found
  | withVariables {moved place names visits nodes files run} {parameters : List TypeParameter}
      (course : Course moved (place.withVariables parameters) names visits nodes files run) :
    Course moved place names visits nodes files run
  | member {moved place visits nodes files} {inside : String → Found → Found}
      (declaration : TypeDeclaration) (parameters : List String) (substitute : String → String)
      (course : ∀ key, Course moved (place.inside key parameters)
        (declaration.members.flatMap Member.typeNames) visits nodes files (inside key)) :
    Course moved place [declaration.name] (⟨.declaration declaration, true⟩ :: visits)
      (.name declaration.header.nameSpan :: nodes)
      (files.under (.ofHeader · · · declaration)
        declaration.header.nameSpan.start.offset substitute)
      (declare place (.named declaration) (some place.owner) false inside
        s!"{place.owner}${declaration.name}")
  | localClass {moved place visits nodes files} {inside : String → Found → Found}
      (declaration : TypeDeclaration) (parameters : List String) (substitute : String → String)
      (course : ∀ key, Course moved (place.inside key parameters)
        (declaration.members.flatMap Member.typeNames) visits nodes files (inside key)) :
    Course moved place [] (⟨.declaration declaration, true⟩ :: visits)
      (.name declaration.header.nameSpan :: nodes)
      (files.under (.ofHeader · · · declaration)
        declaration.header.nameSpan.start.offset substitute) fun found =>
      let number := found.nextLocal place.owner declaration.name
      let key := s!"{place.owner}${number}{declaration.name}"
      declare place (.named declaration) (some place.owner) true inside key
        { found with locals := found.locals ++ [(declaration.name, key)] }
  | unnamed {moved place visits nodes files} {inside : String → Found → Found} {span : Span}
      (body : SiteBody) (isUnnamed : body.name? = none)
      (isOffset : body.offset = span.start.offset)
      (plan : UnitContext → Bindings → String → ClassPlan)
      (isNamed : ∀ context bindings key, (plan context bindings key).name = Ty.binaryName key)
      (course : ∀ key, Course moved (place.inside key [])
        (body.members.flatMap Member.typeNames) visits nodes files (inside key)) :
    Course moved place [] (⟨body.node, true⟩ :: visits) (.name span :: nodes)
      (files.under plan span.start.offset fun owner => s!"{owner}$") fun found =>
      let number := found.nextAnonymous place.owner
      declare place body (some place.owner) true inside s!"{place.owner}${number}" found

/-- The pairs of a landmark of some nodes and one of others. -/
def crossing (nodes further : List Node) : List (Nat × Nat) :=
  (Node.landmarksOf nodes).flatMap fun first => (Node.landmarksOf further).map (Prod.mk first)

/-- The landmarks of some nodes move before those of others. -/
def Crosses (moved : List (Nat × Nat)) (nodes further : List Node) : Prop :=
  ∀ first second, first ∈ Node.landmarksOf nodes → second ∈ Node.landmarksOf further →
    (first, second) ∈ moved

theorem crosses_crossing (nodes further : List Node) :
    Crosses (crossing nodes further) nodes further :=
  fun first _ isFirst isSecond => mem_flatMap.mpr ⟨first, isFirst, mem_map_of_mem isSecond⟩

theorem pair_sublist_append {α : Type} {one other : α} {first second : List α} :
    [one, other] <+ first ++ second ↔
      [one, other] <+ first ∨ [one, other] <+ second ∨ one ∈ first ∧ other ∈ second := by
  constructor
  · intro isPair
    obtain ⟨left, right, isWhole, inFirst, inSecond⟩ := sublist_append_iff.mp isPair
    match left, right, isWhole with
    | [], _, rfl => exact .inr (.inl inSecond)
    | [_], _, rfl => exact .inr (.inr ⟨singleton_sublist.mp inFirst, singleton_sublist.mp inSecond⟩)
    | [_, _], [], rfl => exact .inl inFirst
  · rintro (inFirst | inSecond | ⟨isOne, isOther⟩)
    · exact inFirst.trans (sublist_append_left _ _)
    · exact inSecond.trans (sublist_append_right _ _)
    · exact (singleton_sublist.mpr isOne).append (singleton_sublist.mpr isOther)

theorem perm_around {α : Type} (first second third fourth : List α) :
    (first ++ (second ++ third ++ fourth)).Perm (second ++ (first ++ third ++ fourth)) := by
  rw [append_assoc, append_assoc]
  exact perm_append_comm_assoc ..

namespace Course

variable {moved moved₂ moved₃ allMoved : List (Nat × Nat)} {place : Place} {names : List String}
  {visits others others₂ others₃ : List Visit} {nodes further further₂ further₃ : List Node}
  {files filed filed₂ filed₃ : Files}  {run later last : Found → Found}

theorem nothing : Course moved place [] [] nodes (fun _ _ _ => []) fun found => found :=
  passing place [] nodes

section Around

variable (course : Course moved place names visits nodes files run)
include course

theorem rearranged (same : visits.Perm others)
    (isPart : Node.landmarksOf nodes <+ Node.landmarksOf further)
    (sameFiles : ∀ context bindings owner,
      (files context bindings owner).Perm (filed context bindings owner)) :
    Course moved place names others further filed run :=
  course.reorder same isPart.subperm sameFiles
    ⟨Subset.refl _, fun _ _ isPair => .inl (isPair.trans isPart)⟩

theorem within (isPart : Node.landmarksOf nodes <+ Node.landmarksOf further) :
    Course moved place names visits further files run :=
  course.rearranged (.refl _) isPart fun _ _ _ => .refl _

theorem allowing (areMoved : moved ⊆ allMoved) :
    Course allMoved place names visits nodes files run :=
  course.reorder (.refl _) (.refl _) (fun _ _ _ => .refl _) ⟨areMoved, fun _ _ => .inl⟩

theorem before (others : List Node) : Course moved place names visits (nodes ++ others) files run :=
  course.within (Node.landmarksOf_sublist (sublist_append_left _ _))

theorem behind (others : List Node) : Course moved place names visits (others ++ nodes) files run :=
  course.within (Node.landmarksOf_sublist (sublist_append_right _ _))

theorem lowered : Course moved place names visits (nodes.map Node.lowered) files run :=
  course.within (Node.landmarksOf_lowered nodes ▸ .refl _)

theorem inside {sort : NodeSort} {deeper : Bool} {span : Span}
    (isNoMark : sort ≠ .annotationUse := by nofun) :
    Course moved place names visits [⟨sort, deeper, span, nodes⟩] files run := by
  refine course.within ?_
  rw [Node.landmarksOf_singleton]
  exact @Node.landmarksOf_parts_sublist ⟨sort, deeper, span, nodes⟩ isNoMark

end Around

theorem either (course : Course moved place names visits [node] files run) (isSame : Prop)
    [Decidable isSame] :
    Course moved place names visits [if isSame then node else node.lowered] files run := by
  split
  · exact course
  · exact course.lowered

theorem next (first : Course moved place [] visits nodes files run)
    (second : Course moved₂ place [] others further filed later) :
    Course (moved ++ moved₂) place [] (visits ++ others) (nodes ++ further)
      (files ++ filed) fun found => later (run found) :=
  first.trans second

theorem next₂ (first : Course moved place [] visits nodes files run)
    (second : Course moved₂ place [] others further filed later)
    (third : Course moved₃ place [] others₂ further₂ filed₂ last) :
    Course (moved ++ moved₂ ++ moved₃) place [] (visits ++ (others ++ others₂))
      (nodes ++ further ++ further₂) (files ++ filed ++ filed₂)
      fun found => last (later (run found)) :=
  ((first.next second).next third).rearranged (.of_eq (append_assoc ..)) (.refl _)
    fun _ _ _ => .refl _

theorem also (first : Course moved place [] visits nodes files run)
    (second : Course moved₂ place [] others further filed later) (areMoved : moved₂ ⊆ moved) :
    Course moved place [] (visits ++ others) (nodes ++ further)
      (files ++ filed) fun found => later (run found) :=
  (first.next second).allowing (append_subset.mpr ⟨Subset.refl _, areMoved⟩)

theorem swapped (first : Course moved place [] visits nodes files run)
    (second : Course moved₂ place [] others further filed later) :
    Course (crossing nodes further ++ (moved₂ ++ moved)) place [] (others ++ visits)
      (further ++ nodes) (filed ++ files) fun found => later (run found) := by
  refine (first.next second).reorder perm_append_comm ?_ (fun _ _ _ => perm_append_comm) ⟨?_, ?_⟩
  · rw [Node.landmarksOf_append, Node.landmarksOf_append]
    exact perm_append_comm.subperm
  · exact fun _ isPair => mem_append_right _ (perm_append_comm.subset isPair)
  · intro one other isPair
    simp only [Node.landmarksOf_append, pair_sublist_append, mem_append] at isPair ⊢
    have crosses := crosses_crossing nodes further one other
    tauto

/-- A case of a switch whose labels are walked over before other cases, and its body after them. -/
theorem around {span : Span} (first : Course moved place [] visits nodes files run)
    (second : Course allMoved place [] (others ++ others₂ ++ others₃)
      (further ++ further₂ ++ further₃) (filed ++ filed₂ ++ filed₃) later)
    (areMoved : moved ⊆ allMoved) (crosses : Crosses allMoved nodes further) :
    Course allMoved place [] (others ++ (visits ++ others₂ ++ others₃))
      (further ++ ⟨.other, false, span, nodes ++ further₂⟩ :: further₃)
      (filed ++ (files ++ filed₂ ++ filed₃)) fun found => later (run found) := by
  have isCase : Node.landmarks ⟨.other, false, span, nodes ++ further₂⟩ =
    Node.landmarksOf (nodes ++ further₂) := rfl
  refine (first.next second).reorder (perm_around ..) ?_ (fun _ _ _ => perm_around ..)
    ⟨append_subset.mpr ⟨areMoved, Subset.refl _⟩, ?_⟩
  · simp only [Node.landmarksOf_append, Node.landmarksOf_cons, isCase]
    exact (perm_around ..).subperm
  · intro one other isPair
    simp only [Node.landmarksOf_append, Node.landmarksOf_cons, isCase, pair_sublist_append,
      mem_append] at isPair ⊢
    have crossing := crosses one other
    tauto

theorem past {span : Span} (first : Course moved place [] visits nodes files run)
    (second : Course allMoved place [] (others ++ others₂) (further ++ further₂) (filed ++ filed₂)
      later) (areMoved : moved ⊆ allMoved) (crosses : Crosses allMoved nodes further) :
    Course allMoved place [] (others ++ (visits ++ others₂))
      (further ++ ⟨.other, false, span, nodes⟩ :: further₂)
      (filed ++ (files ++ filed₂)) fun found => later (run found) := by
  have noFiles : ∀ files : Files, files ++ (fun _ _ _ => []) = files :=
    fun _ => funext fun _ => funext fun _ => funext fun _ => append_nil _
  have whole := @around _ allMoved _ _ others [] others₂ _ further [] further₂ _ filed
    (fun _ _ _ => []) filed₂ _ later span first
  simp only [append_nil, noFiles] at whole
  exact whole second areMoved crosses

theorem besides (course : Course moved place [] visits nodes files run) (passed : List Visit) :
    Course moved place [] (visits ++ passed.map Visit.unkeyed) nodes files run := by
  refine (course.also (.passing place passed []) (nil_subset _)).rearranged (.refl _) ?_
    fun _ _ _ => .of_eq (append_nil _)
  rw [append_nil]

end Course

end Site

namespace ClassPlan

variable {context : UnitContext} {bindings : Bindings}

theorem name_addConstructors (hidden : List Ty) (known : Option KnownType)
    (declaration : TypeDeclaration) (plan : ClassPlan) :
    (addConstructors bindings hidden known declaration plan).name = plan.name := by
  unfold addConstructors
  dsimp only
  split <;> rfl

theorem name_ofHeader (key : String) (declaration : TypeDeclaration) :
    (ofHeader context bindings key declaration).name = Ty.binaryName key := by
  unfold ofHeader
  split
  · exact name_addConstructors _ _ _ _
  · rfl
  · exact name_addConstructors _ _ _ _
  · rfl
  · rfl

end ClassPlan

def ClassPlan.inDeclaration (declaration : TypeDeclaration) : Files :=
  fun context bindings key => ofConstants context bindings key declaration.members
    declaration.constants ++ ofMembers context bindings key declaration.members

theorem TypeDeclaration.landmarks_inside (declaration : TypeDeclaration) :
    Node.landmarksOf (.name declaration.header.nameSpan ::
      (EnumConstant.nodes declaration.constants ++ Member.nodes declaration.members)) <+
        Node.landmarksOf [declaration.node] := by
  obtain ⟨header, constants, members⟩ := declaration
  have inMembers : Node.landmarksOf (header.shape.kind.loweredMembers (Member.nodes members)) =
      Node.landmarksOf (Member.nodes members) := by
    unfold TypeKind.loweredMembers
    split
    · rfl
    · exact Node.landmarksOf_lowered _
  have own : .name header.nameSpan :: (EnumConstant.nodes constants ++
      header.shape.kind.loweredMembers (Member.nodes members)) <+
        (TypeDeclaration.mk header constants members).node.parts := by
    show [_] ++ (_ ++ _) <+ _ ++ _ ++ _ ++ _ ++ _
    rw [← append_assoc]
    refine Sublist.append_right (Sublist.append_right ?_ _) _
    exact (sublist_append_right _ _).trans (sublist_append_left _ _)
  have isPart := (Node.landmarksOf_sublist own).trans (Node.landmarksOf_parts_sublist nofun)
  rw [Node.landmarksOf_cons, Node.landmarksOf_append] at isPart ⊢
  rw [inMembers] at isPart
  rw [Node.landmarksOf_singleton]
  exact isPart

namespace Site

open ClassPlan (Files)

/-! ### Where the walk leaves the order of the text -/

/-- The part of a case that the walk over a `switch` statement comes to before all statements. -/
def headOf : SwitchCase → List Node
  | .group labels _ _ => SwitchLabel.nodes labels
  | .blockRule label _ _ => [label.node]
  | .valueRule label value _ => [label.node] ++ [value.node.lowered]
  | .throwRule label value throwSpan _ =>
    [label.node] ++ [⟨.other, false, throwSpan, [value.node.lowered]⟩]

def bodyOf : SwitchCase → List Node
  | .group _ statements _ => Statement.nodes statements
  | .blockRule _ block _ => [block.node]
  | .valueRule .. | .throwRule .. => []

/-- Pairs of landmarks, of which the walk may come to the first before the second although it stands
behind it: the body of a creation and its arguments, and, in the body of a member, the condition of
a `do` statement and its body, the condition or an update of a `for` statement and its initial part,
and the labels and values of a `switch` statement and the statements in its cases. -/
def overtakings : Gather.Rule (Nat × Nat) where
  expression := fun expression =>
    match expression with
    | .create outer type arguments (some body) _ _ =>
      crossing (ClassBody.optional (some body))
        (Expression.optional outer ++ [type.node.lowered] ++ Expression.lowered arguments)
    | _ => []
  branching := fun statement =>
    match statement with
    | .doWhile body condition _ => crossing [condition.node.lowered] [body.node.lowered]
    | .for initial condition update _ _ =>
      crossing (Expression.optionalLowered condition ++ Expression.lowered update)
        (Statement.nodes initial)
    | .switch _ cases _ _ => crossing (cases.flatMap headOf) (cases.flatMap bodyOf)
    | _ => []

theorem left {α : Type} {first second whole : List α} (within : first ++ second ⊆ whole) :
    first ⊆ whole :=
  (append_subset.mp within).1

theorem right {α : Type} {first second whole : List α} (within : first ++ second ⊆ whole) :
    second ⊆ whole :=
  (append_subset.mp within).2

section Crosses

variable {moved : List (Nat × Nat)} {nodes : List Node} {switchCase : SwitchCase}
  {rest : List SwitchCase} (crosses : Crosses moved ((switchCase :: rest).flatMap headOf)
    (nodes ++ (switchCase :: rest).flatMap bodyOf))
include crosses

theorem Crosses.first : Crosses moved (headOf switchCase) nodes := by
  intro one other isOne isOther
  refine crosses one other ?_ ?_
  · rw [flatMap_cons, Node.landmarksOf_append]
    exact mem_append_left _ isOne
  · rw [Node.landmarksOf_append]
    exact mem_append_left _ isOther

theorem Crosses.later :
    Crosses moved (rest.flatMap headOf) (nodes ++ bodyOf switchCase ++ rest.flatMap bodyOf) := by
  intro one other isOne isOther
  refine crosses one other ?_ ?_
  · rw [flatMap_cons, Node.landmarksOf_append]
    exact mem_append_right _ isOne
  · rwa [flatMap_cons, ← append_assoc]

end Crosses

-- The induction follows the tree. The walks, the list of classes and the nodes unfold by
-- computation, so that each case only says in which order the parts of the node are walked over
-- and which of its nodes hold them.
mutual

theorem course_inside (place : Place) (key : String) : ∀ declaration : TypeDeclaration,
    Course (Gather.ofDeclaration overtakings declaration)
      (place.inside key (declaration.header.shape.typeParameters.map TypeParameter.name))
      (declaration.members.flatMap Member.typeNames)
      (Visit.ofConstants declaration.constants ++ Visit.ofMembers declaration.members)
      (EnumConstant.nodes declaration.constants ++ Member.nodes declaration.members)
      (ClassPlan.inDeclaration declaration) (insideDeclaration place declaration key)
  | ⟨_, constants, members⟩ =>
    (course_ofConstants members constants).trans (course_ofMembers members)

theorem course_ofConstants (enumMembers : List Member) : ∀ constants : List EnumConstant,
    Course (Gather.ofConstants overtakings constants) place [] (Visit.ofConstants constants)
      (EnumConstant.nodes constants) (ClassPlan.ofConstants · · · enumMembers constants)
      (ofConstants place constants)
  | [] => .nothing
  | ⟨_, arguments, none⟩ :: rest =>
    ((((course_ofExpressions arguments).behind _).before _).inside.allowing
      (subset_append_left _ _)).next (course_ofConstants enumMembers rest)
  | ⟨header, arguments, some body⟩ :: rest => by
    have inBody := course_ofBody place (.constant place.owner) (.inr ⟨_, rfl⟩)
      (ClassPlan.ofConstantBody · · · enumMembers arguments.length body.members) (fun _ _ _ => rfl)
      body
    have inArguments := (@course_ofExpressions place arguments).behind
      (header.annotations.map AnnotationUse.node ++ [.name header.nameSpan])
    have inConstant : Course _ _ _ _ [EnumConstant.node ⟨header, arguments, some body⟩] _ _ :=
      (inArguments.next inBody).inside
    cases body
    exact (inConstant.next (course_ofConstants enumMembers rest)).rearranged
      (.of_eq (append_assoc ..)) (.refl _) fun _ _ _ => .of_eq (append_assoc ..)

theorem course_ofBody (place : Place) (site : ClassBody → SiteBody)
    (isBody : (∃ base, site = .anonymous base) ∨ ∃ enumKey, site = .constant enumKey)
    (plan : UnitContext → Bindings → String → ClassPlan)
    (isNamed : ∀ context bindings key, (plan context bindings key).name = Ty.binaryName key) :
    ∀ body : ClassBody,
    Course (Gather.ofBody overtakings body) place [] (Visit.ofOptionalBody (some body))
      (ClassBody.optional (some body))
      (Files.under plan body.span.start.offset (fun owner => s!"{owner}$")
        (ClassPlan.ofMembers · · · body.members)) (ofBody place site body)
  | ⟨members, span⟩ => by
    have inside := fun key => (@course_ofMembers (place.inside key []) members).lowered
    have isPart : Node.landmarksOf (.name span :: (Member.nodes members).map Node.lowered) <+
        Node.landmarksOf (ClassBody.optional (some ⟨members, span⟩)) :=
      sublist_append_left _ []
    rcases isBody with ⟨base, rfl⟩ | ⟨enumKey, rfl⟩
    · exact .within (.unnamed (.anonymous base ⟨_, _⟩) rfl rfl plan isNamed inside) isPart
    · exact .within (.unnamed (.constant enumKey ⟨_, _⟩) rfl rfl plan isNamed inside) isPart

theorem course_ofMembers : ∀ members : List Member,
    Course (Gather.ofMembers overtakings members) place (members.flatMap Member.typeNames)
      (Visit.ofMembers members) (Member.nodes members) (ClassPlan.ofMembers · · · members)
      (ofMembers place members)
  | [] => .nothing
  | member :: rest =>
    (course_ofMember member).trans (course_ofMembers rest)

theorem course_ofMember : ∀ member : Member,
    Course (Gather.ofMember overtakings member) place member.typeNames (Visit.ofMember member)
      [member.node] (ClassPlan.ofMember · · · member) (ofMember place member)
  | .type ⟨header, constants, members⟩ =>
    .within (.member _ _ _ fun key => course_inside place key ⟨header, constants, members⟩)
      (TypeDeclaration.landmarks_inside _)
  | .field _ initializer =>
    ((course_ofOptionalLowered initializer).behind _).inside
  | .method _ none _ => .passing place _ _
  | .method header (some body) _ =>
    ((((course_ofBlock true body).allowing (subset_append_right _ _)).withVariables.leaving.besides
      _).behind _).inside
  | .constructor header call body =>
    ((((course_ofCall call).behind _).next (course_ofBlock true body)).inside).withVariables.leaving
  | .initializer _ body _ => (course_ofBlock true body).leaving.inside

theorem course_ofCall : ∀ call : ConstructorCall,
    Course (Gather.ofCall overtakings call) place [] (Visit.ofCall call)
      (ConstructorCall.nodes call) (ClassPlan.ofCall · · · call) (ofCall place call)
  | .implicit => .nothing
  | .this arguments _ | .super arguments _ =>
    (course_ofExpressions arguments).inside

theorem course_ofExpressions : ∀ expressions : List Expression,
    Course (Gather.ofExpressions overtakings expressions) place [] (Visit.ofExpressions expressions)
      (Expression.lowered expressions) (ClassPlan.ofExpressions · · · expressions)
      (ofExpressions place expressions)
  | [] => .nothing
  | expression :: rest =>
    (course_ofExpression expression).lowered.next (course_ofExpressions rest)

theorem course_ofOptional : ∀ expression : Option Expression,
    Course (Gather.ofOptional overtakings expression) place [] (Visit.ofOptional expression)
      (Expression.optional expression) (ClassPlan.ofOptionalExpression · · · expression)
      (ofOptionalExpression place expression)
  | none => .nothing
  | some expression => course_ofExpression expression

theorem course_ofOptionalLowered : ∀ expression : Option Expression,
    Course (Gather.ofOptional overtakings expression) place [] (Visit.ofOptional expression)
      (Expression.optionalLowered expression) (ClassPlan.ofOptionalExpression · · · expression)
      (ofOptionalExpression place expression)
  | none => .nothing
  | some expression => (course_ofExpression expression).lowered

theorem course_ofExpression : ∀ expression : Expression,
    Course (Gather.ofExpression overtakings expression) place [] (Visit.ofExpression expression)
      [expression.node] (ClassPlan.ofExpression · · · expression) (ofExpression place expression)
  | .field target .. | .instanceOf target _ _
  | .instanceOfPattern target _ _ =>
    ((course_ofExpression target).before _).inside
  | .unary _ operand _ => ((course_ofExpression operand).either _).inside
  | .cast _ _ target _ | .lambda _ target _ =>
    ((course_ofExpression target).lowered.behind _).inside
  | .methodReference target _ _ => (course_ofExpression target).inside
  | .parenthesized target _ => (course_ofExpression target).lowered.inside
  | .call target _ _ _ arguments _ _ =>
    ((((course_ofOptional target).before _).before _).next (course_ofExpressions arguments)).inside
  | .binary _ left right _ | .assignment _ left right _
  | .index left right _ =>
    ((course_ofExpression left).next (course_ofExpression right).lowered).inside
  | .conditional condition yes no _ =>
    ((course_ofExpression condition).next₂ (course_ofExpression yes).lowered
      (course_ofExpression no).lowered).inside
  | .create outer _ arguments none _ _ =>
    ((((course_ofOptional outer).before _).next
      (((course_ofExpressions arguments).allowing (subset_append_left _ _)).besides
        [])).before _).inside
  | .create outer type arguments (some body) _ _ => by
    have inBody := course_ofBody place (.anonymous type) (.inl ⟨_, rfl⟩)
      (ClassPlan.ofAnonymousBody · · · type arguments.length body.members) (fun _ _ _ => rfl) body
    have parts := inBody.swapped (((course_ofOptional outer).before [type.node.lowered]).next
      (course_ofExpressions arguments))
    rw [append_assoc (Gather.ofOptional _ _)] at parts
    cases body
    exact (parts.rearranged (.of_eq (append_assoc ..)) (.refl _)
      fun _ _ _ => perm_append_comm).inside
  | .createArray _ sizes _ initializer _ =>
    (((course_ofExpressions sizes).behind _).next (course_ofOptionalLowered initializer)).inside
  | .arrayInitializer elements _ => (course_ofExpressions elements).inside
  | .blockLambda _ body _ => ((course_ofBlock false body).behind _).inside
  | .switch selector cases _ _ =>
    (((course_ofExpression selector).lowered.behind _).next (course_ofCases false cases)).inside
  | .literal .. | .name .. | .typeMethodReference .. | .this .. | .super _
  | .classLiteral .. | .erroneous _ => .nothing

theorem course_ofBlock (declares : Bool) : ∀ block : Block,
    Course (Gather.ofBlock overtakings block) place [] (Visit.ofBlock declares block) [block.node]
      (ClassPlan.ofBlock · · · declares block) (ofBlock place declares block)
  | ⟨statements, _⟩ => (course_ofStatements declares statements).inside

theorem course_ofOptionalBlock (declares : Bool) : ∀ block : Option Block,
    Course (Gather.ofOptionalBlock overtakings block) place []
      (Visit.ofOptionalBlock declares block) (Block.optional block)
      (ClassPlan.ofOptionalBlock · · · declares block) (ofOptionalBlock place declares block)
  | none => .nothing
  | some block => course_ofBlock declares block

theorem course_ofStatements (declares : Bool) : ∀ statements : List Statement,
    Course (Gather.ofStatements overtakings statements) place []
      (Visit.ofStatements declares statements) (Statement.nodes statements)
      (ClassPlan.ofStatements · · · declares statements) (ofStatements place declares statements)
  | [] => .nothing
  | statement :: rest =>
    (course_ofStatement declares statement).next (course_ofStatements declares rest)

theorem course_ofOptionalStatement (declares : Bool) : ∀ statement : Option Statement,
    Course (Gather.ofOptionalStatement overtakings statement) place []
      (Visit.ofOptionalStatement declares statement) (Statement.optionalLowered statement)
      (ClassPlan.ofOptionalStatement · · · declares statement)
      (ofOptionalStatement place declares statement)
  | none => .nothing
  | some statement => (course_ofStatement declares statement).lowered

theorem course_ofStatement (declares : Bool) : ∀ statement : Statement,
    Course (Gather.ofStatement overtakings statement) place []
      (Visit.ofStatement declares statement) [statement.node]
      (ClassPlan.ofStatement · · · declares statement) (ofStatement place declares statement)
  | .typeDeclaration ⟨header, constants, members⟩ => by
    cases declares with
    | true =>
      exact .within (.localClass _ _ _ fun key =>
        course_inside place key ⟨header, constants, members⟩) (TypeDeclaration.landmarks_inside _)
    | false => exact .passing place _ _
  | .expression value _ | .yield value _ | .throw value _ =>
    (course_ofExpression value).lowered.inside
  | .locals _ declarations _ =>
    ((course_ofDeclarators declarations).behind _).inside
  | .conditional condition yes no _ =>
    ((course_ofExpression condition).lowered.next₂ (course_ofStatement declares yes).lowered
      (course_ofOptionalStatement declares no)).inside.leaving
  | .while condition body _ =>
    ((course_ofExpression condition).lowered.next
      (course_ofStatement declares body).lowered).inside.leaving
  | .forEach _ iterable body _ =>
    (((course_ofExpression iterable).lowered.behind _).next
      (course_ofStatement declares body).lowered).inside.leaving
  | .doWhile body condition _ => by
    have inCondition := (@course_ofExpression place condition).lowered
    have inBody := fun declares => (@course_ofStatement place declares body).lowered
    cases declares with
    | true => exact (inCondition.swapped (inBody true)).inside.leaving
    | false => exact (((inBody false).next inCondition).allowing (subset_append_right _ _)).inside
  | .for initial condition update body _ => by
    have inInitial := fun declares => @course_ofStatements place declares initial
    have inCondition := @course_ofOptionalLowered place condition
    have inUpdate := @course_ofExpressions place update
    have inBody := fun declares => (@course_ofStatement place declares body).lowered
    have same : ∀ first second third fourth : List Visit,
        (first ++ (second ++ third) ++ fourth).Perm (first ++ (second ++ (fourth ++ third))) := by
      intro first second third fourth
      rw [append_assoc, append_assoc]
      exact (perm_append_comm.append_left _).append_left _
    cases declares with
    | true =>
      -- In the body of a member the condition and the updates come before the initial part.
      have parts := ((inCondition.next inUpdate).swapped (inInitial true)).next (inBody true)
      rw [append_assoc (crossing _ _), ← append_assoc (Gather.ofStatements _ _)] at parts
      refine (parts.rearranged (same ..) ?_ fun _ _ _ => ?_).inside.leaving
      · rw [← append_assoc (Statement.nodes initial)]
        exact .refl _
      · exact .of_eq (congrArg (· ++ _) (append_assoc ..).symm)
    | false =>
      have parts := ((inInitial false).next (inCondition.next inUpdate)).next (inBody false)
      rw [← append_assoc (Gather.ofStatements _ _)] at parts
      refine ((parts.rearranged (same ..) ?_ fun _ _ _ => ?_).allowing
        (subset_append_right _ _)).inside
      · rw [← append_assoc (Statement.nodes initial)]
        exact .refl _
      · exact .of_eq (congrArg (· ++ _) (append_assoc ..).symm)
  | .switch selector cases _ _ => by
    have inSelector := (@course_ofExpression place selector).lowered
    cases declares with
    | true =>
      have crosses := crosses_crossing (cases.flatMap headOf) (cases.flatMap bodyOf)
      have inParts := course_ofCaseParts (.passing place [] []) cases (subset_append_right _ _)
        fun one other isOne isOther => mem_append_left _ (crosses one other isOne isOther)
      exact (((inSelector.behind _).next inParts).allowing
        (perm_append_comm_assoc ..).subset).inside.leaving
    | false =>
      exact (((inSelector.behind _).next (course_ofCases false cases)).allowing
        (subset_append_right _ _)).inside
  | .return value _ => (course_ofOptionalLowered value).inside
  | .try resources body catches finallyBlock _ =>
    (((course_ofResources resources).next (course_ofBlock declares body)).next₂
      (course_ofCatches declares catches)
      (course_ofOptionalBlock declares finallyBlock)).inside.leaving
  | .assert condition message _ =>
    ((course_ofExpression condition).lowered.next (course_ofOptionalLowered message)).inside
  | .synchronized lock body _ =>
    ((course_ofExpression lock).lowered.next (course_ofBlock declares body)).inside.leaving
  | .labeled _ body _ =>
    (course_ofStatement declares body).lowered.inside.leaving
  | .block body => (course_ofBlock declares body).leaving
  | .break .. | .continue .. | .empty _ => .nothing

theorem course_ofDeclarators : ∀ declarators : List Declarator,
    Course (Gather.ofDeclarators overtakings declarators) place [] (Visit.ofDeclarators declarators)
      (Declarator.nodes declarators) (ClassPlan.ofDeclarators · · · declarators)
      (ofDeclarators place declarators)
  | [] => .nothing
  | ⟨_, initializer⟩ :: rest =>
    ((course_ofOptionalLowered initializer).behind _).inside.next (course_ofDeclarators rest)

theorem course_ofResources : ∀ resources : List Resource,
    Course (Gather.ofResources overtakings resources) place [] (Visit.ofResources resources)
      (Resource.nodes resources) (ClassPlan.ofResources · · · resources)
      (ofResources place resources)
  | [] => .nothing
  | .declared _ value _ :: rest =>
    ((course_ofExpression value).lowered.behind _).inside.next (course_ofResources rest)
  | .expression value _ :: rest =>
    (course_ofExpression value).lowered.inside.next (course_ofResources rest)

theorem course_ofCatches (declares : Bool) : ∀ clauses : List CatchClause,
    Course (Gather.ofCatches overtakings clauses) place [] (Visit.ofCatches declares clauses)
      (CatchClause.nodes clauses) (ClassPlan.ofCatches · · · declares clauses)
      (ofCatches place declares clauses)
  | [] => .nothing
  | ⟨_, _, block, _⟩ :: rest =>
    ((course_ofBlock declares block).behind _).inside.next (course_ofCatches declares rest)

theorem course_ofCases (declares : Bool) : ∀ cases : List SwitchCase,
    Course (Gather.ofCases overtakings cases) place [] (Visit.ofCases declares cases)
      (SwitchCase.nodes cases) (ClassPlan.ofCases · · · declares cases)
      (ofCases place declares cases)
  | [] => .nothing
  | .group labels statements _ :: rest =>
    ((course_ofLabels labels).next (course_ofStatements declares statements)).inside.next
        (course_ofCases declares rest)
  | .valueRule label value _ :: rest =>
    ((course_ofLabel label).next (course_ofExpression value).lowered).inside.next
        (course_ofCases declares rest)
  | .throwRule label value _ _ :: rest =>
    ((course_ofLabel label).next (course_ofExpression value).lowered.inside).inside.next
        (course_ofCases declares rest)
  | .blockRule label block _ :: rest =>
    ((course_ofLabel label).next (course_ofBlock declares block)).inside.next
        (course_ofCases declares rest)

theorem course_ofCaseParts {whole : List (Nat × Nat)}
    (between : Course whole place [] visits nodes files run) :
    ∀ cases : List SwitchCase, Gather.ofCases overtakings cases ⊆ whole →
    Crosses whole (cases.flatMap headOf) (nodes ++ cases.flatMap bodyOf) →
    Course whole place [] (visits ++ Visit.ofCases true cases) (nodes ++ SwitchCase.nodes cases)
      (files ++ (ClassPlan.ofCases · · · true cases))
      fun found => ofCaseStatements place cases (run (ofCaseLabels place cases found))
  | [], _, _ => between.also .nothing (nil_subset _)
  | .group labels statements _ :: rest, within, crosses =>
    (course_ofLabels labels).around (course_ofCaseParts
      (between.also (course_ofStatements true statements) (right (left within))) rest
        (right within) crosses.later) (left (left within)) crosses.first
  | .blockRule label block _ :: rest, within, crosses =>
    (course_ofLabel label).around (course_ofCaseParts
      (between.also (course_ofBlock true block) (right (left within))) rest
        (right within) crosses.later) (left (left within)) crosses.first
  | .valueRule label value _ :: rest, within, crosses =>
    ((course_ofLabel label).next (course_ofExpression value).lowered).past (course_ofCaseParts
      between rest (right within) (append_nil nodes ▸ crosses.later)) (left within) crosses.first
  | .throwRule label value _ _ :: rest, within, crosses =>
    ((course_ofLabel label).next (course_ofExpression value).lowered.inside).past
      (course_ofCaseParts between rest (right within) (append_nil nodes ▸ crosses.later))
        (left within) crosses.first

theorem course_ofLabels : ∀ labels : List SwitchLabel,
    Course (Gather.ofLabels overtakings labels) place [] (Visit.ofLabels labels)
      (SwitchLabel.nodes labels) (ClassPlan.ofLabels · · · labels) (ofLabels place labels)
  | [] => .nothing
  | label :: rest =>
    (course_ofLabel label).next (course_ofLabels rest)

theorem course_ofLabel : ∀ label : SwitchLabel,
    Course (Gather.ofLabel overtakings label) place [] (Visit.ofLabel label) [label.node]
      (ClassPlan.ofLabel · · · label) (ofLabel place label)
  | ⟨elements, guard, _⟩ =>
    ((course_ofElements elements).next (course_ofOptionalLowered guard)).inside

theorem course_ofElements : ∀ elements : List CaseElement,
    Course (Gather.ofElements overtakings elements) place [] (Visit.ofElements elements)
      (CaseElement.nodes elements) (ClassPlan.ofElements · · · elements) (ofElements place elements)
  | [] => .nothing
  | .constant value :: rest =>
    (course_ofExpression value).next (course_ofElements rest)
  | .pattern pattern :: rest =>
    (course_ofElements rest).behind [pattern.node]
  | .null span :: rest | .default span :: rest =>
    (course_ofElements rest).behind [.leaf span]

end

end Site

end JavaFrontEnd
