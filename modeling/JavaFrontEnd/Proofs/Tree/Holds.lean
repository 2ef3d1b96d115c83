/-
Nodes that hold others. Where a node may stand, with regard both to its depth and to its place, its
parts may stand too, and so may a node that is built anew from parts of it.
-/

import JavaFrontEnd.Grammar.Parser
import JavaFrontEnd.Proofs.Lexemes
import JavaFrontEnd.Proofs.Tree.Nodes

namespace JavaFrontEnd

open List

/-! True places. A location is true of a text when it stands behind some beginning of the text, and
a span when its ends are true and in order. Line and column then order locations as their offsets
do, so that the span which covers two true spans reaches from the first offset to the last. A node
is sound when its span and those of all its parts are true, and its span holds those of its parts;
annotations alone may stand outside. -/

namespace Location

variable (location : Location) {text : List Char} {first second : Location}

def IsTrue (text : List Char) (location : Location) : Prop :=
  ∃ before, before <+: text ∧ location = after before

/-- A location comes before another: by line, then column, then offset. -/
def Precedes (first second : Location) : Prop :=
  first.line < second.line ∨ first.line = second.line ∧
    (first.column < second.column ∨
      first.column = second.column ∧ first.offset < second.offset)

theorem isGT_compare_iff (first second : Location) :
    (first.compare second).isGT = true ↔ second.Precedes first := by
  unfold compare Precedes
  simp only [Ordering.isGT_iff_eq_gt, Ordering.then_eq_gt, Nat.compare_eq_gt, Nat.compare_eq_eq]
  omega

theorem precedes_advance (character : Char) : location.Precedes (location.advance character) := by
  have wide := character.utf8Size_pos
  unfold advance Precedes
  split
  · left
    dsimp only
    omega
  · split <;> dsimp only <;> omega

theorem precedes_advanceOver (character : Char) (characters : List Char) :
    location.Precedes (location.advanceOver (character :: characters)) := by
  induction characters generalizing location character with
  | nil => exact precedes_advance location character
  | cons next rest ih =>
    have one := precedes_advance location character
    have more := ih (location.advance character) next
    rw [advanceOver_cons]
    unfold Precedes at *
    omega

theorem offset_after_append (before more : List Char) :
    (after (before ++ more)).offset =
      (after before).offset + (String.ofList more).utf8ByteSize := by
  show (String.ofList (before ++ more)).utf8ByteSize = _
  rw [String.ofList_append, String.utf8ByteSize_append]
  rfl

theorem offset_lt_after_append (before more : List Char) (isMore : more ≠ []) :
    (after before).offset < (after (before ++ more)).offset := by
  obtain ⟨character, rest, rfl⟩ := exists_cons_of_ne_nil isMore
  have wide := character.utf8Size_pos
  rw [offset_after_append, String.ofList_cons, String.utf8ByteSize_append,
    String.utf8ByteSize_singleton]
  omega

theorem IsTrue.of_beginning {before : List Char} (isBeginning : before <+: text) :
    (after before).IsTrue text :=
  ⟨before, isBeginning, rfl⟩

variable (one : first.IsTrue text) (two : second.IsTrue text)
include one two

theorem IsTrue.trichotomy : first = second ∨
      first.offset < second.offset ∧ first.Precedes second ∨
      second.offset < first.offset ∧ second.Precedes first := by
  have ordered : ∀ before more : List Char, after before = after (before ++ more) ∨
      (after before).offset < (after (before ++ more)).offset ∧
        (after before).Precedes (after (before ++ more)) := by
    intro before more
    cases more with
    | nil =>
      left
      rw [append_nil]
    | cons character rest =>
      right
      refine ⟨offset_lt_after_append before _ nofun, ?_⟩
      rw [← advanceOver_after]
      exact precedes_advanceOver _ character rest
  obtain ⟨before, isBeginning, rfl⟩ := one
  obtain ⟨later, isBeginning', rfl⟩ := two
  rcases prefix_or_prefix_of_prefix isBeginning isBeginning' with ⟨more, rfl⟩ | ⟨more, rfl⟩
  · rcases ordered before more with same | less
    · exact .inl same
    · exact .inr (.inl less)
  · rcases ordered later more with same | less
    · exact .inl same.symm
    · exact .inr (.inr less)

theorem IsTrue.isGT_compare_iff :
    (first.compare second).isGT = true ↔ second.offset < first.offset := by
  rw [Location.isGT_compare_iff]
  rcases one.trichotomy two with rfl | ⟨less, precedes⟩ | ⟨less, precedes⟩
  · unfold Precedes
    omega
  · unfold Precedes at *
    omega
  · exact ⟨fun _ => less, fun _ => precedes⟩

theorem IsTrue.min_spec :
    (first.min second).IsTrue text ∧
      (first.min second).offset = Min.min first.offset second.offset := by
  unfold min
  split
  next later =>
    rw [one.isGT_compare_iff two] at later
    exact ⟨two, by omega⟩
  next notLater =>
    rw [one.isGT_compare_iff two] at notLater
    exact ⟨one, by omega⟩

theorem IsTrue.max_spec :
    (first.max second).IsTrue text ∧
      (first.max second).offset = Max.max first.offset second.offset := by
  unfold max
  split
  next later =>
    rw [one.isGT_compare_iff two] at later
    exact ⟨one, by omega⟩
  next notLater =>
    rw [one.isGT_compare_iff two] at notLater
    exact ⟨two, by omega⟩

end Location

namespace Span

structure IsTrue (text : List Char) (span : Span) : Prop where
  start : span.start.IsTrue text
  stop : span.stop.IsTrue text
  ordered : span.start.offset ≤ span.stop.offset

theorem encloses_iff (outer inner : Span) : outer.encloses inner = true ↔
    outer.start.offset ≤ inner.start.offset ∧ inner.stop.offset ≤ outer.stop.offset := by
  simp [encloses]

variable {text : List Char} {first second : Span} (one : first.IsTrue text)
  (two : second.IsTrue text)
include one two

theorem IsTrue.start_cover :
    (first.cover second).start.offset = Min.min first.start.offset second.start.offset :=
  (one.start.min_spec two.start).2

theorem IsTrue.stop_cover :
    (first.cover second).stop.offset = Max.max first.stop.offset second.stop.offset :=
  (one.stop.max_spec two.stop).2

theorem IsTrue.cover : (first.cover second).IsTrue text where
  start := (one.start.min_spec two.start).1
  stop := (one.stop.max_spec two.stop).1
  ordered := by
    have ordered := one.ordered
    rw [one.start_cover two, one.stop_cover two]
    omega

end Span

/-- The spans in a node are true of a text, and each holds those of its parts, of which only
annotations may stand outside. -/
inductive Node.Sound (text : List Char) : Node → Prop where
  | intro {node : Node} (isTrue : node.span.IsTrue text)
      (encloses : ∀ part ∈ node.parts, part.sort ≠ .annotationUse →
        node.span.encloses part.span = true)
      (parts : ∀ part ∈ node.parts, Sound text part) : Sound text node

namespace Node.Sound

variable {text : List Char} {node : Node} {other : Node}

theorem isTrue (sound : node.Sound text) : node.span.IsTrue text := by
  cases sound with
  | intro isTrue _ _ => exact isTrue

theorem part (sound : node.Sound text) (isPart : other ∈ node.parts) : other.Sound text := by
  cases sound with
  | intro _ _ parts => exact parts other isPart

theorem encloses_part (sound : node.Sound text) (isPart : other ∈ node.parts)
    (isNoMark : other.sort ≠ .annotationUse) : node.span.encloses other.span = true := by
  cases sound with
  | intro _ encloses _ => exact encloses other isPart isNoMark

theorem le_of_mem_landmarks (sound : node.Sound text) :
    ∀ mark ∈ node.landmarks, node.span.start.offset ≤ mark := by
  induction sound with
  | @intro node _ encloses _ ih =>
    intro mark isMark
    have isNoUse : ∀ node : Node, mark ∈ node.landmarks → node.sort ≠ .annotationUse := by
      intro node isMark isUse
      rw [Node.landmarks_eq_nil isUse] at isMark
      cases isMark
    rw [Node.landmarks_eq (isNoUse node isMark)] at isMark
    rcases mem_append.mp isMark with isOwn | isMark
    · split at isOwn
      · exact Nat.le_of_eq (mem_singleton.mp isOwn).symm
      · cases isOwn
    obtain ⟨part, isPart, isMark⟩ := Node.exists_of_mem_landmarksOf isMark
    have inside := (Span.encloses_iff _ _).mp (encloses part isPart (isNoUse part isMark))
    exact Nat.le_trans inside.1 (ih part isPart mark isMark)

theorem congr (sound : node.Sound text) (span : other.span = node.span)
    (parts : other.parts = node.parts) : other.Sound text := by
  cases sound with
  | intro isTrue encloses isSound =>
    refine .intro (span ▸ isTrue) ?_ (parts ▸ isSound)
    rw [span, parts]
    exact encloses

end Node.Sound

/-! How deep a tree is. The grammar opens a level before it reads certain parts, and never has more
than `maxDepth` levels open; a node fits at a depth when its parts were read with that many levels
open. On a path through a tree that fits, at most `maxDepth` nodes are deeper than the one before,
and at most `maxDepth` are declarations of types whose members are read one level deeper. These are
all types but enums. -/

/-- The declaration of a type whose members are read one level deeper. -/
def NodeSort.isOpenDeclaration : NodeSort → Bool
  | .declaration kind => kind != .enum
  | _ => false

/-- A node with a class body, whose members are read one level deeper. -/
def NodeSort.opens : NodeSort → Bool
  | .body => true
  | sort => sort.isOpenDeclaration

def NodeSort.isClosed (sort : NodeSort) : Bool :=
  !sort.opens && !sort.isLandmark

theorem NodeSort.opens_of_isClosed {sort : NodeSort} (isClosed : sort.isClosed = true) :
    sort.opens = false :=
  Bool.not_eq_true' _ |>.mp (Bool.and_eq_true_iff.mp isClosed).1

namespace Node

theorem landmarks_of_isClosed {sort : NodeSort} {deeper : Bool} {span : Span} {parts : List Node}
    (isClosed : sort.isClosed = true) :
    (⟨sort, deeper, span, parts⟩ : Node).landmarks <+ landmarksOf parts :=
  landmarks_sublist (Bool.not_eq_true' _ |>.mp (Bool.and_eq_true_iff.mp isClosed).2) _ _ _

inductive Plain : Node → Prop where
  | intro {node : Node} (isPlain : node.sort.isOpenDeclaration = false)
      (parts : ∀ part ∈ node.parts, Plain part) : Plain node

inductive Fits : Nat → Node → Prop where
  | intro {depth : Nat} {node : Node} (room : depth + node.deeper.toNat ≤ Grammar.maxDepth)
      (opened : node.sort.opens = true → depth + node.deeper.toNat < Grammar.maxDepth ∧
        ∀ part ∈ node.parts, part.deeper = true ∨ part.Plain)
      (parts : ∀ part ∈ node.parts, Fits (depth + node.deeper.toNat) part) : Fits depth node

inductive Path : Node → List Node → Prop where
  | last (node : Node) : Path node [node]
  | step {node part : Node} {path : List Node} (isPart : part ∈ node.parts)
      (further : Path part path) : Path node (node :: path)

namespace Plain

theorem leaf (span : Span) : (Node.leaf span).Plain :=
  .intro rfl nofun

theorem name (span : Span) : (Node.name span).Plain :=
  .intro rfl nofun

theorem lowered {node : Node} (isPlain : node.Plain) : node.lowered.Plain := by
  cases isPlain with
  | intro isPlain parts => exact .intro isPlain parts

theorem count_eq_zero {node : Node} (isPlain : node.Plain) (isPath : Path node path) :
    path.countP (·.sort.isOpenDeclaration) = 0 := by
  induction isPath with
  | last node =>
    cases isPlain with
    | intro isPlain _ => simp [isPlain]
  | step isPart further ih =>
    cases isPlain with
    | intro isPlain parts => simp [isPlain, ih (parts _ isPart)]

end Plain

namespace Fits

variable {depth less : Nat} {node : Node} {path : List Node}

theorem mono (fits : node.Fits depth) (isLess : less ≤ depth) : node.Fits less := by
  induction fits generalizing less with
  | intro room opened parts ih =>
    refine .intro (by omega) (fun opens => ⟨?_, (opened opens).2⟩)
      fun part isPart => ih part isPart (by omega)
    have := (opened opens).1
    omega

theorem room_le (fits : node.Fits depth) : depth ≤ Grammar.maxDepth := by
  cases fits with
  | intro room _ _ => exact Nat.le_of_add_right_le room

theorem part (fits : node.Fits depth) (isPart : other ∈ node.parts) : other.Fits depth := by
  cases fits with
  | intro _ _ parts => exact (parts other isPart).mono (Nat.le_add_right _ _)

theorem lowered (fits : node.Fits (depth + 1)) : node.lowered.Fits depth := by
  have atLeast : depth + 1 ≤ depth + 1 + node.deeper.toNat := Nat.le_add_right _ _
  cases fits with
  | intro room opened parts =>
    refine .intro (Nat.le_trans atLeast room) (fun opens => ⟨?_, (opened opens).2⟩)
      fun part isPart => (parts part isPart).mono atLeast
    exact Nat.lt_of_le_of_lt atLeast (opened opens).1

theorem raised (fits : node.lowered.Fits depth) : node.Fits depth := by
  have atMost : depth + node.deeper.toNat ≤ depth + 1 :=
    Nat.add_le_add_left (Bool.toNat_le _) depth
  cases fits with
  | intro room opened parts =>
    refine .intro (Nat.le_trans atMost room) (fun opens => ⟨?_, (opened opens).2⟩)
      fun part isPart => (parts part isPart).mono atMost
    exact Nat.lt_of_le_of_lt atMost (opened opens).1

theorem of_parts {sort : NodeSort} {span : Span} {parts : List Node}
    (room : depth ≤ Grammar.maxDepth) (isClosed : sort.isClosed = true)
    (fits : ∀ part ∈ parts, part.Fits depth) : (⟨sort, false, span, parts⟩ : Node).Fits depth :=
  .intro room (fun opens => absurd (opens.symm.trans (NodeSort.opens_of_isClosed isClosed)) nofun)
    fits

theorem count_deeper (fits : node.Fits depth) (isPath : Path node path) :
    depth + path.countP (·.deeper) ≤ Grammar.maxDepth := by
  have weight : ∀ isDeeper : Bool, (if isDeeper = true then 1 else 0) = isDeeper.toNat := by decide
  induction isPath generalizing depth with
  | last node =>
    cases fits with
    | intro room _ _ =>
      exact room
  | @step node part path isPart further ih =>
    cases fits with
    | intro room _ parts =>
      have rest := ih (parts part isPart)
      rw [countP_cons, weight]
      omega

theorem count_declarations (fits : node.Fits depth) (isPath : Path node path) :
    depth + node.deeper.toNat + path.countP (·.sort.isOpenDeclaration) ≤ Grammar.maxDepth := by
  have opens_of : ∀ sort : NodeSort, sort.isOpenDeclaration = true → sort.opens = true := by
    intro sort isOpen
    cases sort with
    | declaration kind => exact isOpen
    | _ => cases isOpen
  induction isPath generalizing depth with
  | last node =>
    cases fits with
    | intro room opened _ =>
      rw [countP_singleton]
      split
      next isOpen => exact (opened (opens_of _ isOpen)).1
      next => exact room
  | @step node part path isPart further ih =>
    cases fits with
    | intro room opened parts =>
      have rest := ih (parts part isPart)
      rw [countP_cons]
      split
      next isOpen =>
        obtain ⟨below, apart⟩ := opened (opens_of _ isOpen)
        rcases apart part isPart with isDeeper | isPlain
        · rw [isDeeper, Bool.toNat_true] at rest
          omega
        · rw [isPlain.count_eq_zero further]
          omega
      next => omega

end Fits

end Node

/-! ### What stands before the body of a type -/

theorem AnnotationUse.plain_nodes (annotations : List AnnotationUse) :
    ∀ node ∈ annotations.map AnnotationUse.node, node.Plain :=
  forall_mem_map.mpr fun _ _ => .intro rfl nofun

mutual

theorem WrittenType.plain_node : ∀ type : WrittenType, type.node.Plain
  | ⟨_, arguments, _, annotations, _, _⟩ =>
    .intro rfl (forall_mem_append.mpr
      ⟨AnnotationUse.plain_nodes annotations, TypeArgument.plain_nodes arguments⟩)

theorem TypeArgument.plain_node : ∀ argument : TypeArgument, argument.node.Plain
  | .type written => written.plain_node.lowered
  | .wildcard span => .leaf span
  | .bounded _ bound _ =>
    .intro rfl (forall_mem_singleton.mpr bound.plain_node.lowered)

theorem TypeArgument.plain_nodes : ∀ arguments : List TypeArgument,
    ∀ node ∈ TypeArgument.nodes arguments, node.Plain
  | [] => nofun
  | argument :: rest =>
    forall_mem_cons.mpr ⟨argument.plain_node, TypeArgument.plain_nodes rest⟩

end

theorem WrittenType.plain_lowered (types : List WrittenType) :
    ∀ node ∈ WrittenType.lowered types, node.Plain :=
  forall_mem_map.mpr fun type _ => type.plain_node.lowered

theorem TypeParameter.plain_nodes (parameters : List TypeParameter) :
    ∀ node ∈ parameters.map TypeParameter.node, node.Plain :=
  forall_mem_map.mpr fun parameter _ => .intro rfl (WrittenType.plain_lowered parameter.bounds)

theorem Parameter.plain_nodes (parameters : List Parameter) :
    ∀ node ∈ parameters.map Parameter.node, node.Plain := by
  refine forall_mem_map.mpr fun parameter _ => .intro rfl ?_
  refine forall_mem_append.mpr ⟨forall_mem_append.mpr
    ⟨AnnotationUse.plain_nodes parameter.annotations, ?_⟩, ?_⟩
  · exact forall_mem_singleton.mpr parameter.type.plain_node.lowered
  · exact forall_mem_singleton.mpr (.name parameter.nameSpan)

theorem TypeShape.plain_nodes (shape : TypeShape) : ∀ node ∈ shape.nodes, node.Plain := by
  have types := WrittenType.plain_lowered
  have parameters := TypeParameter.plain_nodes
  cases shape with
  | «class» =>
    refine forall_mem_append.mpr ⟨forall_mem_append.mpr
      ⟨forall_mem_append.mpr ⟨parameters _, types _⟩, types _⟩, types _⟩
  | interface =>
    exact forall_mem_append.mpr ⟨forall_mem_append.mpr ⟨parameters _, types _⟩, types _⟩
  | enum => exact types _
  | annotationType => nofun
  | record =>
    exact forall_mem_append.mpr
      ⟨forall_mem_append.mpr ⟨parameters _, Parameter.plain_nodes _⟩, types _⟩

structure Node.Holds (outer inner : Node) : Prop where
  fits : ∀ {depth}, outer.Fits depth → inner.Fits depth
  sound : ∀ {text}, outer.Sound text → inner.Sound text
  encloses : ∀ {text}, outer.Sound text → outer.span.encloses inner.span = true
  landmarks : inner.landmarks <+ outer.landmarks

namespace Node.Holds

variable {outer middle inner other : Node}

theorem refl (node : Node) : node.Holds node :=
  ⟨id, id, fun _ => (Span.encloses_iff _ _).mpr ⟨Nat.le_refl _, Nat.le_refl _⟩, .refl _⟩

theorem trans (one : outer.Holds middle) (two : middle.Holds inner) : outer.Holds inner where
  fits := two.fits ∘ one.fits
  sound := two.sound ∘ one.sound
  encloses sound := by
    have wide := (Span.encloses_iff _ _).mp (one.encloses sound)
    have narrow := (Span.encloses_iff _ _).mp (two.encloses (one.sound sound))
    exact (Span.encloses_iff _ _).mpr ⟨Nat.le_trans wide.1 narrow.1, Nat.le_trans narrow.2 wide.2⟩
  landmarks := two.landmarks.trans one.landmarks

theorem raised (node : Node) : node.lowered.Holds node where
  fits := Node.Fits.raised
  sound sound := sound.congr rfl rfl
  encloses := (refl node.lowered).encloses
  landmarks := by rw [Node.landmarks_lowered]

theorem part (isPart : other ∈ outer.parts) (isNode : outer.sort ≠ .annotationUse)
    (isNoMark : other.sort ≠ .annotationUse) : outer.Holds other where
  fits fits := fits.part isPart
  sound sound := sound.part isPart
  encloses sound := sound.encloses_part isPart isNoMark
  landmarks := Node.landmarks_part_sublist isPart isNode

theorem rebuilt {sort : NodeSort} {parts : List Node} (isClosed : sort.isClosed = true)
    (isHeld : ∀ part ∈ parts, part ∈ outer.parts ∨ outer.Holds part)
    (landmarks : Node.landmarksOf parts <+ outer.landmarks) :
    outer.Holds ⟨sort, false, outer.span, parts⟩ where
  fits fits := by
    refine .of_parts fits.room_le isClosed fun part isPart => ?_
    rcases isHeld part isPart with isOld | holds
    · exact fits.part isOld
    · exact holds.fits fits
  sound sound := by
    refine .intro sound.isTrue (fun part isPart isNoMark => ?_) fun part isPart => ?_
    · rcases isHeld part isPart with isOld | holds
      · exact sound.encloses_part isOld isNoMark
      · exact holds.encloses sound
    · rcases isHeld part isPart with isOld | holds
      · exact sound.part isOld
      · exact holds.sound sound
  encloses := (refl outer).encloses
  landmarks := (Node.landmarks_of_isClosed isClosed).trans landmarks

theorem declaration {span : Span} {body : ClassBody} (isPlain : ∀ node ∈ header, node.Plain) :
    (⟨.other, false, span, header ++ [body.node]⟩ : Node).Holds
      ⟨.declaration kind, false, span, header ++ (Member.nodes body.members).map Node.lowered⟩ := by
  obtain ⟨members, bodySpan⟩ := body
  have isBody : (⟨members, bodySpan⟩ : ClassBody).node ∈
      header ++ [(⟨members, bodySpan⟩ : ClassBody).node] :=
    mem_append_right _ (mem_singleton_self _)
  have isMember : ∀ part ∈ (Member.nodes members).map Node.lowered,
      (⟨members, bodySpan⟩ : ClassBody).node.Holds part := by
    refine fun part isPart => .part isPart nofun ?_
    rw [Member.nodes_eq_map, map_map] at isPart
    obtain ⟨member, _, rfl⟩ := mem_map.mp isPart
    exact member.sort_node_ne_annotationUse
  have parts :
      (⟨.other, false, span, header ++ [(⟨members, bodySpan⟩ : ClassBody).node]⟩ : Node).Holds
      ⟨.other, false, span, header ++ (Member.nodes members).map Node.lowered⟩ := by
    refine .rebuilt rfl (fun part isPart => ?_) ?_
    · rcases mem_append.mp isPart with isHeader | isPart
      · exact .inl (mem_append_left _ isHeader)
      · exact .inr (.trans (.part isBody nofun nofun) (isMember part isPart))
    · show Node.landmarksOf _ <+ Node.landmarksOf _
      rw [Node.landmarksOf_append, Node.landmarksOf_append]
      refine .append_left ?_ _
      show _ <+ (bodySpan.start.offset :: Node.landmarksOf _) ++ []
      rw [append_nil]
      exact sublist_cons_self _ _
  refine ⟨fun fits => ?_, fun sound => (parts.sound sound).congr rfl rfl, parts.encloses,
    parts.landmarks⟩
  have fitsParts := parts.fits fits
  cases fits.part isBody with
  | intro _ opened _ =>
    refine .intro fitsParts.room_le (fun _ => ⟨(opened rfl).1, ?_⟩) fun part isPart =>
      fitsParts.part isPart
    refine forall_mem_append.mpr ⟨fun node isHeader => .inr (isPlain node isHeader), ?_⟩
    exact forall_mem_map.mpr fun _ _ => .inl rfl

end Node.Holds

end JavaFrontEnd
