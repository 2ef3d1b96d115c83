/-
What has been read since a production began. A production opens with the token under the cursor,
and gathers nodes while it goes on; its own node then reaches from the opening to the token before
the cursor, or to the last of the nodes. The rules below put nodes together in the way in which
productions put trees together.
-/

import JavaFrontEnd.Proofs.Parsing.Course

namespace JavaFrontEnd.Grammar

open List

/-- Where a part of a tree begins: the span with which it opens, and how many tokens come before. -/
structure Opening where
  span : Span
  consumed : Nat

def State.opening (state : State) : Opening :=
  ⟨state.current.span, state.consumed⟩

structure Standing (text : List Char) (state : State) : Prop where
  last : state.last.span.IsTrue text
  upright : state.front ≤ state.reach
  apart : state.previous.isSome = true → state.lastReach ≤ state.front

structure Region (text : List Char) (moved : Bool) (opening : Opening) (state : State)
    (nodes : List Node) : Prop extends Standing text state where
  isTrue : opening.span.IsTrue text
  front : opening.span.start.offset ≤ state.front
  reach : opening.span.stop.offset ≤ state.reach
  passed : moved = true → opening.span.start.offset ≤ state.lastFront ∧
    opening.span.stop.offset ≤ state.lastReach ∧ state.previous.isSome = true
  sound : ∀ node ∈ nodes, node.Sound text
  within : ∀ node ∈ nodes, opening.span.start.offset ≤ node.span.start.offset ∧
    node.span.stop.offset ≤ state.lastReach
  ahead : moved = true → opening.span.start.offset < state.front
  ascending : (Node.landmarksOf nodes).Pairwise (· < ·)
  behind : ∀ mark ∈ Node.landmarksOf nodes, mark < state.front

/-- Between an opening and a state these nodes were read, and the cursor has moved if `moved`
holds. -/
structure Gathered (scope : Scope) (moved : Bool) (opening : Opening) (state : State)
    (nodes : List Node) : Prop where
  since : opening.consumed ≤ state.consumed
  advanced : moved = true → opening.consumed < state.consumed
  room : scope.floor ≤ maxDepth
  fits : ∀ node ∈ nodes, node.Fits scope.floor
  region : ∀ text ∈ scope.text, Region text moved opening state nodes

/-- What was gathered up to a state may be taken along to a later one, with more nodes. -/
def Extends (scope : Scope) (moved : Bool) (state after : State) (nodes : List Node) : Prop :=
  ∀ {before opening gathered}, Gathered scope before opening state gathered →
    Gathered scope (moved || before) opening after (gathered ++ nodes)

/-- What was gathered up to a state may be taken along to a later one. -/
def Carries (scope : Scope) (moved : Bool) (state after : State) : Prop :=
  ∀ {before opening gathered}, Gathered scope before opening state gathered →
    Gathered scope (moved || before) opening after gathered

variable {terms : Terms} {env : Environment} {scope : Scope} {state after : State}
  {opening : Opening} {moved before : Bool} {nodes gathered : List Node} {sort : NodeSort}
  {text : List Char}

theorem Stands.isTrue (stands : Stands text token) : token.span.IsTrue text := by
  obtain ⟨before, after, rfl, isSpan⟩ := stands.cut
  rw [isSpan]
  refine ⟨.of_beginning ?_, .of_beginning (prefix_append _ _), ?_⟩
  · exact (prefix_append _ _).trans (prefix_append _ _)
  · rw [Location.offset_after_append]
    exact Nat.le_add_right _ _

theorem Stands.start_lt_stop (stands : Stands text token) (isNoEnd : token.kind ≠ .endOfInput) :
    token.span.start.offset < token.span.stop.offset := by
  obtain ⟨before, after, _, isSpan⟩ := stands.cut
  rw [isSpan]
  exact Location.offset_lt_after_append before _ (stands.solid isNoEnd)

theorem Located.current (located : Located text state) : state.current.span.IsTrue text :=
  (located.stand _ mem_cons_self).isTrue

theorem Located.standing (located : Located text state) : Standing text state where
  last := by
    unfold State.last
    cases isPrevious : state.previous with
    | none => exact located.current
    | some token => exact (located.previous token isPrevious).1
  upright := located.current.ordered
  apart begun := by
    obtain ⟨token, isPrevious⟩ := Option.isSome_iff_exists.mp begun
    have ends := (located.previous token isPrevious).2
    unfold State.lastReach State.last
    rwa [isPrevious]

theorem Ready.current (ready : Ready scope env state) : scope.Knows state.current.span :=
  fun text isText => (ready.located text isText).current

theorem Ready.last (ready : Ready scope env state) : scope.Knows state.last.span :=
  fun text isText => (ready.located text isText).standing.last

namespace Gathered

theorem start (ready : Ready scope env state) : Gathered scope false state.opening state [] where
  since := Nat.le_refl _
  advanced := nofun
  room := Nat.le_trans ready.floor_le ready.depth_le
  fits := nofun
  region text isText :=
    { (ready.located text isText).standing with
      isTrue := (ready.located text isText).current
      front := Nat.le_refl _
      reach := Nat.le_refl _
      passed := nofun
      sound := nofun
      within := nofun
      ahead := nofun
      ascending := .nil
      behind := nofun }

section Held

variable (held : Gathered scope before opening state gathered)
include held

theorem knows : scope.Knows opening.span :=
  fun text isText => (held.region text isText).isTrue

theorem knows_of_mem (isNode : node ∈ gathered) : scope.Knows node.span :=
  fun text isText => ((held.region text isText).sound node isNode).isTrue

theorem forget : Gathered scope false opening state gathered :=
  { held with
    advanced := nofun
    region := fun text isText => { held.region text isText with passed := nofun, ahead := nofun } }

theorem clear : Gathered scope before opening state [] :=
  { held with
    fits := nofun
    region := fun text isText =>
      { held.region text isText with
        sound := nofun, within := nofun, ascending := .nil, behind := nofun } }

/-- Nodes may give way to nodes that they hold, with the same landmarks or fewer. -/
theorem holding (isHeld : ∀ node ∈ others, ∃ outer ∈ gathered, outer.Holds node)
    (landmarks : Node.landmarksOf others <+ Node.landmarksOf gathered) :
    Gathered scope before opening state others := by
  refine { held with fits := fun node isNode => ?_, region := fun text isText => ?_ }
  · obtain ⟨outer, isOuter, holds⟩ := isHeld node isNode
    exact holds.fits (held.fits outer isOuter)
  have region := held.region text isText
  refine { region with
    sound := fun node isNode => ?_, within := fun node isNode => ?_,
    ascending := region.ascending.sublist landmarks,
    behind := fun mark isMark => region.behind mark (landmarks.mem isMark) }
  · obtain ⟨outer, isOuter, holds⟩ := isHeld node isNode
    exact holds.sound (region.sound outer isOuter)
  · obtain ⟨outer, isOuter, holds⟩ := isHeld node isNode
    obtain ⟨front, reach⟩ := region.within outer isOuter
    have inside := (Span.encloses_iff _ _).mp (holds.encloses (region.sound outer isOuter))
    exact ⟨Nat.le_trans front inside.1, Nat.le_trans inside.2 reach⟩

theorem subset (isSubset : nodes ⊆ gathered)
    (landmarks : Node.landmarksOf nodes <+ Node.landmarksOf gathered) :
    Gathered scope before opening state nodes :=
  held.holding (fun node isNode => ⟨node, isSubset isNode, .refl node⟩) landmarks

theorem sublist (isSublist : nodes <+ gathered) : Gathered scope before opening state nodes :=
  held.subset isSublist.subset (Node.landmarksOf_sublist isSublist)

theorem append (more : Gathered scope moved opening state nodes)
    (ascending : ∀ text ∈ scope.text, ∀ first ∈ Node.landmarksOf gathered,
      ∀ second ∈ Node.landmarksOf nodes, first < second) :
    Gathered scope before opening state (gathered ++ nodes) := by
  refine { held with
    fits := forall_mem_append.mpr ⟨held.fits, more.fits⟩, region := fun text isText => ?_ }
  have region := held.region text isText
  have further := more.region text isText
  refine { region with
    sound := forall_mem_append.mpr ⟨region.sound, further.sound⟩
    within := forall_mem_append.mpr ⟨region.within, further.within⟩
    ascending := ?_
    behind := ?_ } <;> rw [Node.landmarksOf_append]
  · exact pairwise_append.mpr ⟨region.ascending, further.ascending, ascending text isText⟩
  · exact forall_mem_append.mpr ⟨region.behind, further.behind⟩

theorem earlier {start : Opening} (new : Gathered scope moved start state nodes)
    (starts : ∀ text ∈ scope.text, opening.span.start.offset ≤ start.span.start.offset) :
    Gathered scope before opening state nodes := by
  refine { held with fits := new.fits, region := fun text isText => ?_ }
  have further := new.region text isText
  exact { held.region text isText with
    sound := further.sound
    within := fun node isNode =>
      (further.within node isNode).imp_left (Nat.le_trans (starts text isText))
    ascending := further.ascending
    behind := further.behind }

theorem appendAside (more : Gathered scope moved opening state nodes)
    (isNone : Node.landmarksOf gathered = [] ∨ Node.landmarksOf nodes = []) :
    Gathered scope before opening state (gathered ++ nodes) := by
  refine held.append more fun _ _ first isFirst second isSecond => ?_
  rcases isNone with isNone | isNone
  · rw [isNone] at isFirst
    cases isFirst
  · rw [isNone] at isSecond
    cases isSecond

theorem later (ready : Ready scope env after)
    (course : Course terms env state after) (isScope : terms.scope = scope)
    (moves : moved = true → state.consumed < after.consumed) :
    Gathered scope (moved || before) opening after gathered where
  since := Nat.le_trans held.since course.forward
  advanced hasMoved := by
    rcases Bool.or_eq_true_iff.mp hasMoved with late | early
    · exact Nat.lt_of_le_of_lt held.since (moves late)
    · exact Nat.lt_of_lt_of_le (held.advanced early) course.forward
  room := held.room
  fits := held.fits
  region text isText := by
    have region := held.region text isText
    have onward := course.onward text (isScope ▸ isText)
    exact
      { (ready.located text isText).standing with
        isTrue := region.isTrue
        front := Nat.le_trans region.front onward.front
        reach := Nat.le_trans region.reach onward.reach
        passed := fun hasMoved => by
          rcases Bool.or_eq_true_iff.mp hasMoved with late | early
          · obtain ⟨front, reach, begun⟩ := onward.passed (moves late)
            exact ⟨Nat.le_trans region.front front, Nat.le_trans region.reach reach, begun⟩
          · obtain ⟨front, reach, begun⟩ := region.passed early
            exact ⟨Nat.le_trans front onward.lastFront, Nat.le_trans reach onward.lastReach,
              onward.begun begun⟩
        sound := region.sound
        within := fun node isNode =>
          ⟨(region.within node isNode).1,
            Nat.le_trans (region.within node isNode).2 onward.lastReach⟩
        ahead := fun hasMoved => by
          rcases Bool.or_eq_true_iff.mp hasMoved with late | early
          · exact Nat.lt_of_le_of_lt region.front (onward.ahead (moves late))
          · exact Nat.lt_of_lt_of_le (region.ahead early) onward.front
        ascending := region.ascending
        behind := fun mark isMark => Nat.lt_of_lt_of_le (region.behind mark isMark) onward.front }

theorem kept (ready : Ready scope env after) (course : Course terms env state after)
    (isScope : terms.scope = scope) : Gathered scope before opening after gathered :=
  (held.later ready course isScope nofun : Gathered scope (false || before) _ _ _)

theorem passed (ready : Ready scope env after)
    (course : Course terms env state after) (isScope : terms.scope = scope)
    (less : state.consumed < after.consumed) : Gathered scope true opening after gathered :=
  (held.later ready course isScope fun _ => less : Gathered scope (true || before) _ _ _)

theorem start_le (isText : text ∈ scope.text) :
    ∀ mark ∈ Node.landmarksOf gathered, opening.span.start.offset ≤ mark := by
  intro mark isMark
  obtain ⟨node, isNode, isMark⟩ := Node.exists_of_mem_landmarksOf isMark
  have region := held.region text isText
  exact Nat.le_trans (region.within node isNode).1
    ((region.sound node isNode).le_of_mem_landmarks mark isMark)

theorem widen (new : Gathered scope moved state.opening after nodes)
    (joined : Gathered scope further opening after gathered) :
    Gathered scope further opening after (gathered ++ nodes) := by
  have moved := joined.earlier new fun text isText => (held.region text isText).front
  refine joined.append moved fun text isText first isFirst second isSecond => ?_
  exact Nat.lt_of_lt_of_le ((held.region text isText).behind first isFirst)
    (new.start_le isText second isSecond)

end Held

theorem weaken (held : Gathered scope true opening state gathered) :
    Gathered scope before opening state gathered := by
  cases before with
  | false => exact held.forget
  | true => exact held

theorem left (held : Gathered scope before opening state (gathered ++ nodes)) :
    Gathered scope before opening state gathered :=
  held.sublist (sublist_append_left _ _)

theorem right (held : Gathered scope before opening state (gathered ++ nodes)) :
    Gathered scope before opening state nodes :=
  held.sublist (sublist_append_right _ _)

theorem replaceLast (held : Gathered scope before opening state (gathered ++ [last]))
    (isHeld : ∀ node ∈ others, last.Holds node)
    (landmarks : Node.landmarksOf others <+ last.landmarks) :
    Gathered scope before opening state (gathered ++ others) := by
  refine held.holding (forall_mem_append.mpr ⟨fun node isNode => ?_, fun node isOther => ?_⟩) ?_
  · exact ⟨node, mem_append_left _ isNode, .refl node⟩
  · exact ⟨last, mem_append_right _ (mem_singleton_self last), isHeld node isOther⟩
  · rw [Node.landmarksOf_append, Node.landmarksOf_append, Node.landmarksOf_singleton]
    exact landmarks.append_left _

theorem giveWay {inner : Node} (held : Gathered scope before opening state [outer])
    (holds : outer.Holds inner) : Gathered scope before opening state [inner] := by
  refine held.holding (forall_mem_singleton.mpr ⟨outer, mem_singleton_self outer, holds⟩) ?_
  rw [Node.landmarksOf_singleton, Node.landmarksOf_singleton]
  exact holds.landmarks

theorem raised (gathered : List Node)
    (held : Gathered scope before opening state (gathered.map Node.lowered)) :
    Gathered scope before opening state gathered :=
  held.holding (fun node isNode => ⟨node.lowered, mem_map_of_mem isNode, .raised node⟩)
    (by rw [Node.landmarksOf_lowered])

theorem rebuilt (held : Gathered scope before opening state nodes) (sort : NodeSort)
    (parts : List Node) (isNode : node ∈ nodes) (isClosed : sort.isClosed = true)
    (isHeld : ∀ part ∈ parts, part ∈ node.parts ∨ node.Holds part)
    (landmarks : Node.landmarksOf parts <+ node.landmarks) :
    Gathered scope before opening state [⟨sort, false, node.span, parts⟩] := by
  have holds := Node.Holds.rebuilt isClosed isHeld landmarks
  refine held.holding (forall_mem_singleton.mpr ⟨node, isNode, holds⟩) ?_
  rw [Node.landmarksOf_singleton]
  exact holds.landmarks.trans (Node.landmarks_sublist_landmarksOf isNode)

theorem exchange (held : Gathered scope before opening state (gathered ++ nodes))
    (new : Gathered scope moved opening state others)
    (landmarks : Node.landmarksOf others <+ Node.landmarksOf nodes) :
    Gathered scope before opening state (gathered ++ others) := by
  refine held.left.append new fun text isText first isFirst second isSecond => ?_
  have ascending := (held.region text isText).ascending
  rw [Node.landmarksOf_append] at ascending
  exact (pairwise_append.mp ascending).2.2 first isFirst second (landmarks.mem isSecond)

theorem lowered {text : Option (List Char)}
    (held : Gathered ⟨floor + 1, text⟩ before opening state gathered) :
    Gathered ⟨floor, text⟩ before opening state (gathered.map Node.lowered) where
  since := held.since
  advanced := held.advanced
  room := Nat.le_of_succ_le held.room
  fits := forall_mem_map.mpr fun node isNode => (held.fits node isNode).lowered
  region text isText :=
    have region := held.region text isText
    { region with
      sound := forall_mem_map.mpr fun node isNode => (region.sound node isNode).congr rfl rfl
      within := forall_mem_map.mpr fun node isNode => region.within node isNode
      ascending := by
        rw [Node.landmarksOf_lowered]
        exact region.ascending
      behind := by
        rw [Node.landmarksOf_lowered]
        exact region.behind }

theorem wrap (held : Gathered scope moved opening state nodes) {node : Node}
    (fits : node.Fits scope.floor) (isPart : ∀ part ∈ node.parts, part ∈ nodes)
    (landmarks : ∀ text ∈ scope.text, node.landmarks <+ Node.landmarksOf nodes)
    (isTrue : scope.Knows node.span)
    (within : ∀ text ∈ scope.text, opening.span.start.offset ≤ node.span.start.offset ∧
      node.span.stop.offset ≤ state.lastReach)
    (encloses : ∀ text ∈ scope.text, ∀ part ∈ node.parts, part.sort ≠ .annotationUse →
      node.span.start.offset ≤ part.span.start.offset ∧
        part.span.stop.offset ≤ node.span.stop.offset) :
    Gathered scope moved opening state [node] := by
  refine { held with
    fits := forall_mem_singleton.mpr fits, region := fun text isText => ?_ }
  have region := held.region text isText
  refine { region with
    sound := forall_mem_singleton.mpr <| .intro (isTrue text isText) (fun part member isNoMark =>
          (Span.encloses_iff _ _).mpr (encloses text isText part member isNoMark))
        fun part member => region.sound part (isPart part member)
    within := forall_mem_singleton.mpr (within text isText)
    ascending := ?_
    behind := ?_ } <;> rw [Node.landmarksOf_singleton]
  · exact region.ascending.sublist (landmarks text isText)
  · exact fun mark isMark => region.behind mark ((landmarks text isText).mem isMark)

section Nodes

variable (held : Gathered scope true opening state nodes)
include held

theorem offsets_enclosed (isText : text ∈ scope.text) :
    (opening.span.cover state.last.span).start.offset = opening.span.start.offset ∧
      (opening.span.cover state.last.span).stop.offset = state.lastReach := by
  have region := held.region text isText
  obtain ⟨front, reach, _⟩ := region.passed rfl
  have starts := region.isTrue.start_cover region.last
  have stops := region.isTrue.stop_cover region.last
  unfold State.lastFront at front
  unfold State.lastReach at reach ⊢
  omega

theorem enclosed_of_fits {node : Node} (isSpan : node.span = opening.span.cover state.last.span)
    (isPart : ∀ part ∈ node.parts, part ∈ nodes)
    (landmarks : ∀ text ∈ scope.text, node.landmarks <+ Node.landmarksOf nodes)
    (fits : node.Fits scope.floor) : Gathered scope true opening state [node] := by
  refine held.wrap fits isPart landmarks ?_ ?_ ?_
  · rw [isSpan]
    exact held.knows.cover fun text isText => (held.region text isText).last
  · intro text isText
    obtain ⟨start, stop⟩ := held.offsets_enclosed isText
    rw [isSpan, start, stop]
    exact ⟨Nat.le_refl _, Nat.le_refl _⟩
  · intro text isText part member _
    obtain ⟨start, stop⟩ := held.offsets_enclosed isText
    rw [isSpan, start, stop]
    exact (held.region text isText).within part (isPart part member)

theorem enclosed (isClosed : sort.isClosed = true) :
    Gathered scope true opening state [⟨sort, false, opening.span.cover state.last.span, nodes⟩] :=
  held.enclosed_of_fits rfl (fun _ => id) (fun _ _ => Node.landmarks_of_isClosed isClosed)
    (.of_parts held.room isClosed held.fits)

theorem opener (isClosed : sort.isClosed = true) :
    Gathered scope true opening state [⟨sort, false, opening.span, []⟩] := by
  have isEmpty : (⟨sort, false, opening.span, []⟩ : Node).landmarks <+ Node.landmarksOf nodes :=
    (Node.landmarks_of_isClosed isClosed).trans (nil_sublist _)
  refine held.wrap (.of_parts held.room isClosed nofun) nofun (fun _ _ => isEmpty) held.knows ?_
    fun _ _ => nofun
  intro text isText
  exact ⟨Nat.le_refl _, ((held.region text isText).passed rfl).2.1⟩

theorem name : Gathered scope true opening state [.name opening.span] := by
  refine { held with
    fits := forall_mem_singleton.mpr (.intro held.room nofun nofun)
    region := fun text isText => ?_ }
  have region := held.region text isText
  exact { region with
    sound := forall_mem_singleton.mpr (.intro region.isTrue nofun nofun)
    within := forall_mem_singleton.mpr ⟨Nat.le_refl _, (region.passed rfl).2.1⟩
    ascending := pairwise_singleton _ _
    behind := forall_mem_singleton.mpr (region.ahead rfl) }

theorem named (isClosed : sort.isClosed = true) :
    Gathered scope true opening state [⟨sort, false, opening.span, [.name opening.span]⟩] := by
  have name := held.name
  refine name.wrap (.of_parts name.room isClosed name.fits) (fun _ => id)
    (fun _ _ => Node.landmarks_of_isClosed isClosed)
    name.knows ?_ ?_
  · exact fun text isText => (name.region text isText).within (.name opening.span) mem_cons_self
  · rintro text isText part (_ | ⟨_, ⟨⟩⟩) _
    exact ⟨Nat.le_refl _, Nat.le_refl _⟩

theorem carried (new : Gathered scope true state.opening after others) :
    Gathered scope true opening after nodes := by
  refine ⟨Nat.le_trans held.since new.since, ?_, held.room, held.fits, fun text isText => ?_⟩
  · exact fun _ => Nat.lt_of_le_of_lt held.since (new.advanced rfl)
  have region := held.region text isText
  have further := new.region text isText
  obtain ⟨front, reach, begun⟩ := region.passed rfl
  obtain ⟨passedFront, passedReach, begun'⟩ := further.passed rfl
  have apart := region.apart begun
  have isAfter := further.front
  have ahead := region.ahead rfl
  have upright := region.upright
  have uprightAfter := further.upright
  change state.front ≤ _ at passedFront isAfter
  change state.reach ≤ _ at passedReach
  exact
    { further.toStanding with
      isTrue := region.isTrue
      front := by omega
      reach := by omega
      passed := fun _ => ⟨by omega, by omega, begun'⟩
      sound := region.sound
      within := fun node isNode => (region.within node isNode).imp_right fun _ => by omega
      ahead := fun _ => by omega
      ascending := region.ascending
      behind := fun mark isMark => Nat.lt_of_lt_of_le (region.behind mark isMark) isAfter }

theorem reopen (isNode : node ∈ nodes) :
    Gathered scope false ⟨node.span, state.consumed⟩ state [node] where
  since := Nat.le_refl _
  advanced := nofun
  room := held.room
  fits := forall_mem_singleton.mpr (held.fits node isNode)
  region text isText := by
    have region := held.region text isText
    have sound := region.sound node isNode
    have ordered := sound.isTrue.ordered
    have within := (region.within node isNode).2
    have apart := region.apart (region.passed rfl).2.2
    have upright := region.upright
    have landmarks : Node.landmarksOf [node] <+ Node.landmarksOf nodes := by
      rw [Node.landmarksOf_singleton]
      exact Node.landmarks_sublist_landmarksOf isNode
    exact
      { region.toStanding with
        isTrue := sound.isTrue
        front := by dsimp only; omega
        reach := by dsimp only; omega
        passed := nofun
        sound := forall_mem_singleton.mpr sound
        within := forall_mem_singleton.mpr ⟨Nat.le_refl _, within⟩
        ahead := nofun
        ascending := region.ascending.sublist landmarks
        behind := fun mark isMark => region.behind mark (landmarks.mem isMark) }

end Nodes

/-- What was gathered last may become a node that reaches from the opening to the token before the
cursor. -/
theorem enclosedLast (held : Gathered scope true opening state (gathered ++ nodes))
    (sort : NodeSort) (isClosed : sort.isClosed = true) :
    Gathered scope true opening state
      (gathered ++ [⟨sort, false, opening.span.cover state.last.span, nodes⟩]) := by
  refine held.exchange (held.right.enclosed isClosed) ?_
  rw [Node.landmarksOf_singleton]
  exact Node.landmarks_of_isClosed isClosed

theorem enclosedAfter {start : Opening} {annotations : List Node} (sort : NodeSort)
    (held : Gathered scope true opening state (annotations ++ nodes))
    (inner : Gathered scope true start state nodes)
    (starts : ∀ text ∈ scope.text, opening.span.start.offset ≤ start.span.start.offset)
    (areAnnotations : ∀ node ∈ annotations, node.sort = .annotationUse)
    (isClosed : sort.isClosed = true) :
    Gathered scope true opening state
      [⟨sort, false, start.span.cover state.last.span, annotations ++ nodes⟩] := by
  refine held.wrap (.of_parts held.room isClosed held.fits) (fun _ => id)
    (fun _ _ => Node.landmarks_of_isClosed isClosed) ?_ ?_ ?_
  · exact inner.knows.cover fun text isText => (inner.region text isText).last
  · intro text isText
    obtain ⟨start, stop⟩ := inner.offsets_enclosed isText
    rw [start, stop]
    exact ⟨starts text isText, Nat.le_refl _⟩
  · intro text isText part isPart isNoMark
    obtain ⟨start, stop⟩ := inner.offsets_enclosed isText
    rw [start, stop]
    rcases mem_append.mp isPart with isAnnotation | isInner
    · exact absurd (areAnnotations part isAnnotation) isNoMark
    · exact (inner.region text isText).within part isInner

theorem covering (held : Gathered scope true opening state (nodes ++ [last])) (sort : NodeSort)
    (isClosed : sort.isClosed = true) (early : ∀ text ∈ scope.text, ∀ part ∈ nodes,
      part.span.stop.offset ≤ last.span.start.offset) : Gathered scope true opening state
      [⟨sort, false, opening.span.cover last.span, nodes ++ [last]⟩] := by
  have isLast : last ∈ nodes ++ [last] := mem_append_right _ (mem_singleton_self last)
  have ends := held.knows_of_mem isLast
  refine held.wrap (.of_parts held.room isClosed held.fits) (fun _ => id)
    (fun _ _ => Node.landmarks_of_isClosed isClosed) (held.knows.cover ends) (fun text isText => ?_)
    fun text isText part isPart _ => ?_
  all_goals
    have region := held.region text isText
    have starts := region.isTrue.start_cover (ends text isText)
    have stops := region.isTrue.stop_cover (ends text isText)
    have ordered := (ends text isText).ordered
    dsimp only
  · have within := region.within last isLast
    have passed := (region.passed rfl).2.1
    omega
  · rcases mem_append.mp isPart with isEarly | isLast
    · have within := region.within part isPart
      have before := early text isText part isEarly
      omega
    · cases mem_singleton.mp isLast
      omega

theorem around (held : Gathered scope true opening state [part]) (sort : NodeSort)
    (isClosed : sort.isClosed = true) :
    Gathered scope true opening state [⟨sort, false, opening.span.cover part.span, [part]⟩] := by
  have held : Gathered scope true opening state ([] ++ [part]) := held
  exact held.covering sort isClosed fun _ _ => nofun

theorem upTo (held : Gathered scope true opening state nodes) (sort : NodeSort)
    (new : Gathered scope true state.opening after [last]) (isClosed : sort.isClosed = true) :
    Gathered scope true opening after
      [⟨sort, false, opening.span.cover last.span, nodes ++ [last]⟩] := by
  refine (held.widen new (held.carried new)).covering sort isClosed ?_
  intro text isText part isPart
  have region := held.region text isText
  exact Nat.le_trans (region.within part isPart).2 (Nat.le_trans
    (region.apart (region.passed rfl).2.2) ((new.region text isText).within last mem_cons_self).1)

theorem reclose (held : Gathered scope true opening state gathered) (isNode : node ∈ gathered)
    (new : Gathered scope moved ⟨node.span, consumed⟩ after nodes)
    (joined : Gathered scope true opening after gathered) :
    Gathered scope true opening after nodes :=
  joined.earlier new fun text isText => ((held.region text isText).within node isNode).1

theorem recloseName {name : Span}
    (held : Gathered scope true opening state (gathered ++ [.name name]))
    (new : Gathered scope moved ⟨name, consumed⟩ state nodes) :
    Gathered scope true opening state (gathered ++ nodes) := by
  have isName : Node.name name ∈ gathered ++ [.name name] :=
    mem_append_right _ (mem_singleton_self _)
  refine held.left.append (held.reclose isName new held) fun text isText first isFirst second
    isSecond => ?_
  have ascending := (held.region text isText).ascending
  rw [Node.landmarksOf_append] at ascending
  exact Nat.lt_of_lt_of_le
    ((pairwise_append.mp ascending).2.2 first isFirst _ (mem_singleton_self _))
    (new.start_le isText second isSecond)

end Gathered

/-! ### Parsers that gather nodes -/

variable {α β σ : Type}

/-- From a state on, a parser keeps to the course and yields good values; if `moved` holds, it has
then moved the cursor. -/
abbrev Moves (moved : Bool) (terms : Terms) (env : Environment) (state : State)
    (parser : Parser α) (good : α → State → Prop) : Prop :=
  Obeys (course terms) env state parser fun value after =>
    (moved = true → state.consumed < after.consumed) ∧ good value after

/-- From a state on, a parser keeps to the course and adds the nodes of its value to what was
gathered since an opening. -/
abbrev Gathers (moved : Bool) (terms : Terms) (env : Environment) (opening : Opening)
    (state : State) (parser : Parser α) (nodes : α → List Node) : Prop :=
  Obeys (course terms) env state parser fun value after =>
    Gathered terms.scope moved opening after (nodes value)

/-- From a state on, a parser keeps to the course, and gathers the nodes of its value. -/
abbrev Reads (moved : Bool) (terms : Terms) (env : Environment) (state : State)
    (parser : Parser α) (nodes : α → List Node) : Prop :=
  Gathers moved terms env state.opening state parser nodes

section Sequences

variable {parser : Parser α} {next : α → Parser β} {good : α → State → Prop}
  {goal : β → State → Prop} {values : α → List Node}

theorem Reads.start
    (reads : Gathered terms.scope false state.opening state [] →
      Reads moved terms env state parser values) :
    Reads moved terms env state parser values :=
  .of_holds fun ready => reads (.start ready)

theorem Reads.moves (reads : Reads moved terms env state parser values) :
    Moves moved terms env state parser fun _ _ => True :=
  reads.mono fun _ _ held => ⟨held.advanced, trivial⟩

theorem Moves.of_reads (reads : Reads moved terms env state parser fun _ => []) :
    Moves moved terms env state parser fun _ _ => True :=
  reads.moves

theorem Moves.andThen (first : Moves moved terms env state parser good)
    (second : ∀ {after} value, good value after → Carries terms.scope moved state after →
      Obeys (course terms) env after (next value) goal) :
    Obeys (course terms) env state (parser >>= next) goal := by
  refine first.bind fun {after} value leads yields => .of_holds fun ready =>
    second value yields.2 fun held => ?_
  exact held.later ready leads rfl yields.1

theorem Reads.andThen (first : Reads moved terms env state parser values)
    (second : ∀ {after} value, Gathered terms.scope moved state.opening after (values value) →
      Extends terms.scope moved state after (values value) →
        Obeys (course terms) env after (next value) goal) :
    Obeys (course terms) env state (parser >>= next) goal := by
  refine first.bind fun {after} value leads new => .of_holds fun ready =>
    second value new fun held => ?_
  exact held.widen new (held.later ready leads rfl new.advanced)

/-! ### Parsers that keep to the course wherever they start -/

/-- From every state on, a parser keeps to the course, and gathers the nodes of its value. -/
class Readable (moved : outParam Bool) (terms : Terms) (parser : Parser α)
    (values : outParam (α → List Node)) : Prop where
  reads : ∀ {env state}, Reads moved terms env state parser values

/-- From every state on, a parser keeps to the course; if `moved` holds, it moves the cursor. -/
class Movable (moved : outParam Bool) (terms : Terms) (parser : Parser α) : Prop where
  moves : ∀ {env state}, Moves moved terms env state parser fun _ _ => True

instance [Readable moved terms parser values] : Movable moved terms parser :=
  ⟨Reads.moves Readable.reads⟩

theorem Readable.start
    (reads : ∀ {env state}, Gathered terms.scope false state.opening state [] →
      Reads moved terms env state parser values) : Readable moved terms parser values :=
  ⟨.of_holds fun ready => reads (.start ready)⟩

theorem Movable.start
    (reads : ∀ {env state}, Gathered terms.scope false state.opening state [] →
      Reads moved terms env state parser fun _ => []) : Movable moved terms parser :=
  ⟨(Readable.start reads).reads.moves⟩

/-- A tree ends here: its node holds all that was gathered. -/
theorem Gathered.close {build : Span → α} (held : Gathered terms.scope true opening state gathered)
    (isNode : values (build state.last.span) =
      [⟨sort, false, opening.span.cover state.last.span, gathered⟩] := by rfl)
    (isClosed : sort.isClosed = true := by rfl) :
    Gathers true terms env opening state (do let stop ← lastSpan; pure (build stop)) values :=
  .read rfl (.pure <| isNode ▸ held.enclosed isClosed)

section Held

variable {nodes : β → List Node} (held : Gathered terms.scope before opening state gathered)
include held

theorem Gathered.moves (first : Moves moved terms env state parser good)
    (second : ∀ {after} value, good value after →
      Gathered terms.scope (moved || before) opening after gathered →
        Obeys (course terms) env after (next value) goal) :
    Obeys (course terms) env state (parser >>= next) goal :=
  first.andThen fun value isGood along => second value isGood (along held)

theorem Gathered.reads (first : Reads moved terms env state parser values)
    (second : ∀ {after} value, Gathered terms.scope moved state.opening after (values value) →
      Gathered terms.scope (moved || before) opening after (gathered ++ values value) →
        Obeys (course terms) env after (next value) goal) :
    Obeys (course terms) env state (parser >>= next) goal :=
  first.andThen fun value new along => second value new (along held)

theorem Gathered.tail (reads : Reads moved terms env state parser values) :
    Gathers (before || moved) terms env opening state parser fun value =>
      gathered ++ values value := by
  refine .of_holds fun _ ready => ?_
  have outcome := reads ready
  refine { outcome with yields := fun value isValue => ?_ }
  have new := outcome.yields value isValue
  rw [Bool.or_comm]
  exact held.widen new (held.later outcome.holds outcome.leads rfl new.advanced)

/-- The nodes of what is read next are gathered too. -/
theorem Gathered.past [Readable moved terms parser values]
    (second : ∀ {after} value,
      Gathered terms.scope (moved || before) opening after (gathered ++ values value) →
        Obeys (course terms) env after (next value) goal) :
    Obeys (course terms) env state (parser >>= next) goal :=
  held.reads Readable.reads fun value _ held => second value held

/-- What is read next has no node. -/
theorem Gathered.over [Movable moved terms parser]
    (second : ∀ {after} value, Gathered terms.scope (moved || before) opening after gathered →
      Obeys (course terms) env after (next value) goal) :
    Obeys (course terms) env state (parser >>= next) goal :=
  held.moves Movable.moves fun value _ held => second value held

/-- What is read next is the last part. -/
theorem Gathered.ending {build : α → β} [Readable moved terms parser values]
    (isMoved : (moved || before) = further := by rfl)
    (isNode : ∀ value, nodes (build value) = gathered ++ values value := by exact fun _ => rfl) :
    Gathers further terms env opening state (do let value ← parser; pure (build value)) nodes :=
  held.past fun value held => .pure <| isNode value ▸ isMoved ▸ held

/-- What is read next stands after the last part. -/
theorem Gathered.ended {build : α → β} [Movable moved terms parser]
    (isMoved : (moved || before) = further := by rfl)
    (isNode : ∀ value, nodes (build value) = gathered := by exact fun _ => rfl) :
    Gathers further terms env opening state (do let value ← parser; pure (build value)) nodes :=
  held.over fun value held => .pure <| isNode value ▸ isMoved ▸ held

/-- A tree ends with what is read next. -/
theorem Gathered.closing {build : α → Span → β} [Readable moved terms parser values]
    (isMoved : (moved || before) = true := by rfl)
    (isNode : ∀ value stop, nodes (build value stop) =
      [⟨sort, false, opening.span.cover stop, gathered ++ values value⟩] := by
        exact fun _ _ => rfl)
    (isClosed : sort.isClosed = true := by rfl) :
    Gathers true terms env opening state
      (do let value ← parser; let stop ← lastSpan; pure (build value stop)) nodes := by
  refine held.past fun value held => ?_
  rw [isMoved] at held
  exact held.close (isNode value _) isClosed

/-- A tree ends after what is read next, which has no node. -/
theorem Gathered.closed {build : α → Span → β} [Movable moved terms parser]
    (isMoved : (moved || before) = true := by rfl)
    (isNode : ∀ value stop, nodes (build value stop) =
      [⟨sort, false, opening.span.cover stop, gathered⟩] := by exact fun _ _ => rfl)
    (isClosed : sort.isClosed = true := by rfl) :
    Gathers true terms env opening state
      (do let value ← parser; let stop ← lastSpan; pure (build value stop)) nodes := by
  refine held.over fun value held => ?_
  rw [isMoved] at held
  exact held.close (isNode value _) isClosed

end Held

end Sequences

end JavaFrontEnd.Grammar
