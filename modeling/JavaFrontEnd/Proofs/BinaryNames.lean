/-
The keys of classes tell them apart. A key is made of the key of the class around, a dollar sign and
a last segment: a name, a number, or a number with a name. If no name has a dollar sign, the last
one of a key shows where the segment begins, and since no name begins with a digit the segment shows
of which kind it is. Anonymous and local classes differ by their numbers. Member types differ by
their names, as long as only one class has the key of their owner, which is shorter.
-/

import JavaFrontEnd.Proofs.Registration
import JavaFrontEnd.Token
import Mathlib

namespace JavaFrontEnd

open List

section

variable {name : String} (owner segment : String)

/-! ### Segments of keys -/

def isIdentifier (name : String) : Bool :=
  match name.toList with
  | [] => false
  | first :: rest => Scan.isWordStart first && rest.all Scan.isWordPart

def IsPlainName (name : String) : Prop :=
  isIdentifier name ∧ '$' ∉ name.toList

instance (name : String) : Decidable (IsPlainName name) :=
  inferInstanceAs (Decidable (_ ∧ _))

theorem isDigit_eq_false_of_isWordStart (starts : Scan.isWordStart character) :
    character.isDigit = false := by
  simp only [Scan.isWordStart, Char.isAlpha, Char.isUpper, Char.isLower, Bool.or_eq_true,
    Bool.and_eq_true, decide_eq_true_eq, ge_iff_le, UInt32.le_iff_toNat_le] at starts
  rcases starts with ((isUpper | isLower) | rfl) | rfl
  · simp [Char.isDigit, UInt32.le_iff_toNat_le] at isUpper ⊢
    omega
  · simp [Char.isDigit, UInt32.le_iff_toNat_le] at isLower ⊢
    omega
  · rfl
  · rfl

def digits (segment : String) : List Char :=
  segment.toList.takeWhile Char.isDigit

theorem digits_eq_nil_of_isIdentifier (isName : isIdentifier name) : digits name = [] := by
  unfold isIdentifier at isName
  unfold digits
  split at isName
  · cases isName
  next first rest isWhole =>
    have starts : Scan.isWordStart first := (Bool.and_eq_true_iff.mp isName).1
    rw [isWhole, takeWhile_cons, isDigit_eq_false_of_isWordStart starts]
    rfl

theorem point_notMem_of_isIdentifier (isName : isIdentifier name) : '.' ∉ name.toList := by
  unfold isIdentifier at isName
  split at isName
  · cases isName
  next first rest isWhole =>
    obtain ⟨starts, goesOn⟩ := Bool.and_eq_true_iff.mp isName
    rw [isWhole, mem_cons]
    rintro (rfl | isPart)
    · exact absurd starts (by decide)
    · exact absurd (all_eq_true.mp goesOn _ isPart) (by decide)

theorem digits_number (isNone : digits name = []) :
    digits (toString number ++ name) = Nat.toDigits 10 number := by
  unfold digits at isNone ⊢
  rw [String.toList_append, Nat.toString_eq_repr, Nat.toList_repr,
    takeWhile_append_of_pos fun _ isPart =>
      Nat.isDigit_of_mem_toDigits (by decide) (by decide) isPart,
    isNone, append_nil]

theorem dollar_notMem_number {number : Nat} (isPlain : '$' ∉ name.toList) :
    '$' ∉ (toString number ++ name).toList := by
  rw [String.toList_append, mem_append, Nat.toString_eq_repr, Nat.toList_repr]
  rintro (isDigit | isPart)
  · exact absurd (Nat.isDigit_of_mem_toDigits (by decide) (by decide) isDigit) (by decide)
  · exact isPlain isPart

theorem number_inj {first second : Nat} (isNone : digits name = []) (isNoneToo : digits other = [])
    (same : toString first ++ name = toString second ++ other) : first = second ∧ name = other := by
  have numbers := congrArg digits same
  rw [digits_number isNone, digits_number isNoneToo] at numbers
  obtain rfl : first = second := by
    simpa using congrArg (Nat.ofDigitChars 10 · 0) numbers
  exact ⟨rfl, String.append_right_inj _ |>.mp same⟩

theorem eq_of_append_mark_eq {α : Type} {mark : α} {first second before after : List α}
    (isLast : mark ∉ first) (isLastToo : mark ∉ second)
    (same : before ++ mark :: first = after ++ mark :: second) :
    before = after ∧ first = second := by
  obtain ⟨middle, isAfter, isFirst⟩ | ⟨middle, isBefore, isSecond⟩ :=
    append_eq_append_iff.mp same
  · cases middle with
    | nil => exact ⟨(append_nil before ▸ isAfter).symm, (cons.inj isFirst).2⟩
    | cons _ middle =>
      refine absurd ?_ isLast
      rw [(cons.inj isFirst).2]
      exact mem_append_right _ mem_cons_self
  · cases middle with
    | nil => exact ⟨append_nil after ▸ isBefore, (cons.inj isSecond).2.symm⟩
    | cons _ middle =>
      refine absurd ?_ isLastToo
      rw [(cons.inj isSecond).2]
      exact mem_append_right _ mem_cons_self

def innerKey (owner segment : String) : String :=
  s!"{owner}${segment}"

theorem toList_innerKey :
    (innerKey owner segment).toList = owner.toList ++ '$' :: segment.toList := by
  show (owner ++ "$" ++ segment).toList = _
  simp

theorem length_lt_innerKey : owner.toList.length < (innerKey owner segment).toList.length := by
  rw [toList_innerKey, length_append, length_cons]
  omega

theorem dollar_mem_innerKey : '$' ∈ (innerKey owner segment).toList := by
  rw [toList_innerKey]
  exact mem_append_right _ mem_cons_self

theorem innerKey_inj {owner first second : String} (isPlain : '$' ∉ first.toList)
    (isPlainToo : '$' ∉ second.toList) (same : innerKey owner first = innerKey other second) :
    owner = other ∧ first = second := by
  have lists := congrArg String.toList same
  rw [toList_innerKey, toList_innerKey] at lists
  obtain ⟨owners, segments⟩ := eq_of_append_mark_eq isPlain isPlainToo lists
  exact ⟨String.toList_inj.mp owners, String.toList_inj.mp segments⟩

/-! ### How the sites of a walk follow each other -/

namespace Site

/-- A place for a class that is known by its name: the key of the class around, the name and the
key of the class itself. -/
structure Slot where
  outer : Option String
  name : String
  key : String
  deriving DecidableEq

def Slot.inside (owner name : String) : Slot :=
  ⟨some owner, name, innerKey owner name⟩

def memberSlots (owner : String) (members : List Member) : List Slot :=
  members.flatMap fun member => member.typeNames.map (Slot.inside owner)

def ownSlots (key : String) (outer : Option String) (isLocal : Bool) (body : SiteBody) :
    List Slot :=
  if isLocal then [] else [⟨outer, body.name?.getD "", key⟩]

def taken (sites : List Site) : List Slot :=
  sites.flatMap fun site => ownSlots site.key site.outer site.isLocal site.body

def offered (sites : List Site) : List Slot :=
  sites.flatMap fun site => memberSlots site.key site.body.members

/-- A class is counted among the local classes of a name, or among the classes without one, in an
owner. -/
def inSeries (owner : String) (name? : Option String) (site : Site) : Bool :=
  match name? with
  | some name => site.isLocal && site.outer == some owner && site.body.name? == some name
  | none => site.outer == some owner && site.body.name?.isNone

/-- How a class gets its key after other sites: at the top of a unit, as a member type, or as a
local or anonymous class with the next number. -/
inductive Follows (tops : List Slot) (before : List Site) (key : String) (outer : Option String)
    (isLocal : Bool) (body : SiteBody) : Prop
  | top (isFixed : isLocal = false) (isTop : ⟨outer, body.name?.getD "", key⟩ ∈ tops)
  | member (owner name : String) (isFixed : isLocal = false) (isOuter : outer = some owner)
      (isNamed : body.name? = some name) (isKey : key = innerKey owner name)
  | numbered (owner : String) (isLocal : isLocal = true) (isOuter : outer = some owner)
      (isKey : key = innerKey owner
        (toString (before.countP (inSeries owner body.name?) + 1) ++ body.name?.getD ""))

def Laid (tops : List Slot) : List Site → Prop
  | [] => True
  | site :: before =>
    Follows tops before site.key site.outer site.isLocal site.body ∧ Laid tops before

/-- A walk adds sites that follow each other, and beyond the places which these offer to their
member types they only take some places that are given. -/
def Found.Lays (tops given : List Slot) (before after : Found) : Prop :=
  ∃ added : List Site, after.sites = added ++ before.sites ∧
    (Laid tops before.sites → Laid tops after.sites) ∧
    ∀ slot, (taken added).count slot ≤ (offered added).count slot + given.count slot

namespace Found.Lays

variable {tops given more : List Slot} {before between after : Found}

theorem nothing (tops : List Slot) (found : Found) : Lays tops [] found found :=
  ⟨[], rfl, id, fun _ => Nat.le_refl 0⟩

theorem trans (first : Lays tops given before between) (second : Lays tops more between after) :
    Lays tops (given ++ more) before after := by
  obtain ⟨added, isAdded, keeps, paid⟩ := first
  obtain ⟨later, isLater, keepsLater, paidLater⟩ := second
  refine ⟨later ++ added, ?_, keepsLater ∘ keeps, fun slot => ?_⟩
  · rw [isLater, isAdded, append_assoc]
  · have one := paid slot
    have two := paidLater slot
    simp only [taken, offered, flatMap_append, count_append] at one two ⊢
    omega

theorem declared {key : String} {body : SiteBody} {outer : Option String} {isLocal : Bool}
    (follows : Follows tops before.sites key outer isLocal body)
    (inside : Lays tops ((body.members.flatMap Member.typeNames).map (Slot.inside key)) (before.add
      place key body outer isLocal) after) :
    Lays tops (ownSlots key outer isLocal body) before (after.leaving before) := by
  have slots : (body.members.flatMap Member.typeNames).map (Slot.inside key) =
      memberSlots key body.members := map_flatMap
  rw [slots] at inside
  obtain ⟨added, isAdded, keeps, paid⟩ := inside
  refine ⟨added ++ [_], isAdded.trans (append_cons added _ _),
    fun laid => keeps ⟨follows, laid⟩, fun slot => ?_⟩
  have inner := paid slot
  simp only [taken, offered, flatMap_append, count_append, flatMap_singleton] at inner ⊢
  omega

end Found.Lays

open Found

variable (found : Found)

-- Only member types take places of their owner.
theorem Course.lays {names : List String}
    (course : Course moved place names visits nodes files run)
    (tops : List Slot) (found : Found) :
    Lays tops (names.map (Slot.inside place.owner)) found (run found) := by
  induction course generalizing found with
  | passing => exact .nothing tops found
  | trans _ _ first second =>
    rw [map_append]
    exact (first found).trans (second _)
  | reorder _ _ _ _ _ ih | leaving _ ih | withVariables _ ih => exact ih found
  | @member _ place _ _ _ _ declaration _ _ _ ih =>
    have follows : Follows tops found.sites _ (some place.owner) false (.named declaration) :=
      .member place.owner declaration.name rfl rfl rfl rfl
    exact .declared follows (ih _ _)
  | @localClass _ place _ _ _ _ declaration _ _ _ ih =>
    refine .declared (.numbered place.owner rfl rfl ?_) (ih _ _)
    rw [String.append_assoc]
    rfl
  | @unnamed _ place _ _ _ _ _ body isUnnamed _ _ _ _ ih =>
    refine .declared (.numbered place.owner rfl rfl ?_) (ih _ _)
    rw [isUnnamed, Option.getD_none, String.append_empty]
    rfl

theorem lays_ofDeclaration {tops : List Slot} (place : Place) {key : String}
    {outer : Option String} {isLocal : Bool} (declaration : TypeDeclaration) (found : Found)
    (follows : Follows tops found.sites key outer isLocal (.named declaration)) :
    Lays tops (ownSlots key outer isLocal (.named declaration)) found
      (ofDeclaration place key outer isLocal declaration found) := by
  rw [ofDeclaration_eq]
  exact .declared follows ((course_inside place key declaration).lays tops _)

def topSlots (unit : CompilationUnit) : List Slot :=
  unit.types.map fun declaration => ⟨none, declaration.name, unit.qualify declaration.name⟩

theorem lays_ofUnit {tops : List Slot} (file : String) (unit : CompilationUnit)
    (isTop : ∀ slot ∈ topSlots unit, slot ∈ tops) :
    Lays tops (topSlots unit) found (ofUnit found file unit) := by
  refine @ofUnit_induction file unit (fun declarations => Lays tops (declarations.map
    fun declaration => ⟨none, declaration.name, unit.qualify declaration.name⟩)) (.nothing tops)
      (fun place declaration _ found _ _ _ isDeclared inRest => ?_) found
  have isFirst := isTop _ (mem_map_of_mem isDeclared)
  exact (lays_ofDeclaration place declaration found (.top rfl isFirst)).trans inRest

theorem lays_ofUnits {tops : List Slot} (units : List (String × CompilationUnit)) (found : Found)
    (isTop : ∀ slot ∈ units.flatMap fun entry => topSlots entry.2, slot ∈ tops) :
    Lays tops (units.flatMap fun entry => topSlots entry.2) found
      (units.foldl (fun found entry => ofUnit found entry.1 entry.2) found) := by
  induction units generalizing found with
  | nil => exact .nothing tops found
  | cons first rest ih =>
    rw [flatMap_cons, forall_mem_append] at isTop
    exact (lays_ofUnit found first.1 first.2 isTop.1).trans (ih _ isTop.2)

/-! ### Keys tell classes apart -/

/-- The places at the top of units: outside all classes, with keys that differ and have no dollar
sign. -/
structure Apart (tops : List Slot) : Prop where
  outer : ∀ slot ∈ tops, slot.outer = none
  bare : ∀ slot ∈ tops, '$' ∉ slot.key.toList
  nodup : (tops.map Slot.key).Nodup

/-- The name of a class, if it has one, is plain, and no two of its member types share a name. -/
structure Plain (site : Site) : Prop where
  named : ∀ name ∈ site.body.name?, IsPlainName name
  members : (site.body.members.flatMap Member.typeNames).Nodup

section Keys

variable {tops : List Slot} {between before earlier sites : List Site} {first second : Site}
  {slot : Slot}

theorem Plain.suffix (plain : first.Plain) :
    digits (first.body.name?.getD "") = [] ∧ '$' ∉ (first.body.name?.getD "").toList := by
  have named := plain.named
  cases isNamed : first.body.name? with
  | none => exact ⟨rfl, by simp⟩
  | some name =>
    obtain ⟨isName, isPlain⟩ := named name isNamed
    exact ⟨digits_eq_nil_of_isIdentifier isName, isPlain⟩

theorem Plain.name?_eq (plain : first.Plain) (plainToo : second.Plain)
    (same : first.body.name?.getD "" = second.body.name?.getD "") :
    first.body.name? = second.body.name? := by
  have named := plain.named
  have namedToo := plainToo.named
  cases isNamed : first.body.name? with
  | none =>
    cases isNamedToo : second.body.name? with
    | none => rfl
    | some name =>
      rw [isNamed, isNamedToo, Option.getD_none, Option.getD_some] at same
      exact absurd (namedToo name isNamedToo).1 (by rw [← same]; decide)
  | some name =>
    cases isNamedToo : second.body.name? with
    | none =>
      rw [isNamed, isNamedToo, Option.getD_none, Option.getD_some] at same
      exact absurd (named name isNamed).1 (by rw [same]; decide)
    | some other =>
      rw [isNamed, isNamedToo, Option.getD_some, Option.getD_some] at same
      rw [same]

theorem inSeries_self {owner : String} {site : Site} (isLocal : site.isLocal = true)
    (isOuter : site.outer = some owner) : inSeries owner site.body.name? site := by
  unfold inSeries
  split
  next isNamed => simp [isLocal, isOuter, isNamed]
  next isNamed => simp [isOuter, isNamed]

theorem Apart.key_ne_innerKey (apart : Apart tops) (isTop : slot ∈ tops) (owner segment : String) :
    slot.key ≠ innerKey owner segment :=
  fun isInner => apart.bare slot isTop (isInner ▸ dollar_mem_innerKey owner segment)

theorem innerKey_ne_numbered {owner name : String} {number : Nat} (isPlain : IsPlainName name)
    (isNone : digits suffix = []) (isBare : '$' ∉ suffix.toList) :
    innerKey owner name ≠ innerKey other (toString number ++ suffix) := by
  intro same
  obtain ⟨-, isName⟩ := innerKey_inj isPlain.2 (dollar_notMem_number isBare) same
  have noDigits := digits_eq_nil_of_isIdentifier isPlain.1
  rw [isName, digits_number isNone] at noDigits
  exact Nat.toDigits_ne_nil noDigits

theorem Follows.shared (apart : Apart tops)
    (follows : Follows tops before first.key first.outer first.isLocal first.body)
    (followsToo : Follows tops earlier second.key second.outer second.isLocal second.body)
    (isBefore : before = between ++ second :: earlier) (plain : first.Plain)
    (plainToo : second.Plain) (same : first.key = second.key) :
    ∃ slot, ownSlots first.key first.outer first.isLocal first.body = [slot] ∧
      ownSlots second.key second.outer second.isLocal second.body = [slot] ∧
      (slot ∈ tops ∨ ∃ owner name, slot = .inside owner name) := by
  unfold ownSlots
  cases follows with
  | top isFixed isTop =>
    cases followsToo with
    | top isFixedToo isTopToo =>
      have sameSlot := inj_on_of_nodup_map apart.nodup isTop isTopToo same
      refine ⟨_, by rw [isFixed]; rfl, ?_, .inl isTop⟩
      rw [isFixedToo, sameSlot]
      rfl
    | member owner name _ _ _ isKey =>
      exact absurd (same.trans isKey) (apart.key_ne_innerKey isTop owner name)
    | numbered owner _ _ isKey =>
      exact absurd (same.trans isKey) (apart.key_ne_innerKey isTop owner _)
  | member owner name isFixed isOuter isNamed isKey =>
    have isPlain := plain.named name isNamed
    cases followsToo with
    | top _ isTopToo =>
      exact absurd (same.symm.trans isKey) (apart.key_ne_innerKey isTopToo owner name)
    | member ownerToo nameToo isFixedToo isOuterToo isNamedToo isKeyToo =>
      have isPlainToo := plainToo.named nameToo isNamedToo
      obtain ⟨rfl, rfl⟩ := innerKey_inj isPlain.2 isPlainToo.2
        (isKey.symm.trans (same.trans isKeyToo))
      refine ⟨.inside owner name, ?_, ?_, .inr ⟨owner, name, rfl⟩⟩
      · rw [isFixed, isOuter, isNamed, isKey]
        rfl
      · rw [isFixedToo, isOuterToo, isNamedToo, isKeyToo]
        rfl
    | numbered ownerToo _ _ isKeyToo =>
      obtain ⟨isNone, isBare⟩ := plainToo.suffix
      exact absurd (isKey.symm.trans (same.trans isKeyToo))
        (innerKey_ne_numbered isPlain isNone isBare)
  | numbered owner isLocal isOuter isKey =>
    obtain ⟨isNone, isBare⟩ := plain.suffix
    cases followsToo with
    | top _ isTopToo =>
      exact absurd (same.symm.trans isKey) (apart.key_ne_innerKey isTopToo owner _)
    | member ownerToo nameToo _ _ isNamedToo isKeyToo =>
      exact absurd (isKeyToo.symm.trans (same.symm.trans isKey))
        (innerKey_ne_numbered (plainToo.named nameToo isNamedToo) isNone isBare)
    | numbered ownerToo isLocalToo isOuterToo isKeyToo =>
      -- The second class was counted before the first one got its number.
      obtain ⟨isNoneToo, isBareToo⟩ := plainToo.suffix
      obtain ⟨rfl, sameSegment⟩ := innerKey_inj (dollar_notMem_number isBare)
        (dollar_notMem_number isBareToo) (isKey.symm.trans (same.trans isKeyToo))
      obtain ⟨sameNumber, sameSuffix⟩ := number_inj isNone isNoneToo sameSegment
      have counted := inSeries_self isLocalToo isOuterToo
      rw [plain.name?_eq plainToo sameSuffix, isBefore, countP_append,
        countP_cons_of_pos counted] at sameNumber
      omega

theorem key_eq_of_ownSlots_eq {key : String} {outer : Option String} {isLocal : Bool}
    {body : SiteBody} (isSlot : ownSlots key outer isLocal body = [slot]) : key = slot.key := by
  unfold ownSlots at isSlot
  split at isSlot
  · cases isSlot
  · exact congrArg Slot.key (cons.inj isSlot).1

theorem count_offered_of_outer_eq_none (isTop : slot.outer = none) (sites : List Site) :
    (offered sites).count slot = 0 := by
  refine count_eq_zero.mpr fun isOffered => ?_
  obtain ⟨site, -, isOffered⟩ := mem_flatMap.mp isOffered
  obtain ⟨member, -, isOffered⟩ := mem_flatMap.mp isOffered
  obtain ⟨name, -, rfl⟩ := mem_map.mp isOffered
  cases isTop

theorem count_memberSlots_le (site : Site) (plain : site.Plain) (owner name : String) :
    (memberSlots site.key site.body.members).count (.inside owner name) ≤
      if site.key = owner then 1 else 0 := by
  have isMap : memberSlots site.key site.body.members =
      (site.body.members.flatMap Member.typeNames).map (Slot.inside site.key) := by
    rw [map_flatMap]
    rfl
  rw [isMap]
  split
  next isOwner =>
    have isInjective : Function.Injective (Slot.inside site.key) := fun _ _ same =>
      congrArg Slot.name same
    exact nodup_iff_count_le_one.mp (plain.members.map isInjective) _
  next isOther =>
    refine Nat.le_of_eq (count_eq_zero.mpr fun isOffered => ?_)
    obtain ⟨_, -, same⟩ := mem_map.mp isOffered
    exact isOther (Option.some.inj (congrArg Slot.outer same))

theorem count_offered_le (plain : ∀ site ∈ sites, site.Plain) (owner name : String) :
    (offered sites).count (.inside owner name) ≤ (sites.map Site.key).count owner := by
  induction sites with
  | nil => exact Nat.le_refl 0
  | cons site rest ih =>
    obtain ⟨plainFirst, plainRest⟩ := forall_mem_cons.mp plain
    have inFirst := count_memberSlots_le site plainFirst owner name
    have inRest := ih plainRest
    rw [map_cons, count_cons]
    unfold offered at inRest ⊢
    rw [flatMap_cons, count_append]
    simp only [beq_iff_eq]
    omega

theorem Laid.follows (laid : Laid tops (between ++ first :: before)) :
    Follows tops before first.key first.outer first.isLocal first.body ∧ Laid tops before := by
  induction between with
  | nil => exact laid
  | cons _ _ ih => exact ih laid.2

theorem exists_split_of_duplicate {key : String}
    (isDuplicate : (sites.map Site.key).Duplicate key) :
    ∃ after first between second earlier,
      sites = after ++ first :: (between ++ second :: earlier) ∧ first.key = key ∧
        second.key = key := by
  induction sites with
  | nil => exact absurd isDuplicate (not_duplicate_nil key)
  | cons site rest ih =>
    rcases duplicate_cons_iff.mp isDuplicate with ⟨isKey, isMember⟩ | isLater
    · obtain ⟨second, isSecond, isKeyToo⟩ := mem_map.mp isMember
      obtain ⟨between, earlier, rfl⟩ := append_of_mem isSecond
      exact ⟨[], site, between, second, earlier, rfl, isKey, isKeyToo⟩
    · obtain ⟨after, first, between, second, earlier, rfl, isKey, isKeyToo⟩ :=
        ih isLater
      exact ⟨site :: after, first, between, second, earlier, rfl, isKey, isKeyToo⟩

/-- No two sites have the same key. The induction is on the length of the key: the place of a
member type is offered once, because the shorter key of its owner belongs to one class only. -/
theorem count_key_le_one (apart : Apart tops) (laid : Laid tops sites)
    (plain : ∀ site ∈ sites, site.Plain)
    (paid : ∀ slot, (taken sites).count slot ≤ (offered sites).count slot + tops.count slot)
    (key : String) : (sites.map Site.key).count key ≤ 1 := by
  induction isLength : key.toList.length using Nat.strongRecOn generalizing key with
  | ind length ih =>
    by_contra isTwice
    obtain ⟨after, first, between, second, earlier, isWhole, isKey, isKeyToo⟩ :=
      exists_split_of_duplicate (duplicate_iff_two_le_count.mpr (Nat.lt_of_not_le isTwice))
    have follows := (isWhole ▸ laid).follows
    have isFirst : first ∈ sites := by rw [isWhole]; simp
    have isSecond : second ∈ sites := by rw [isWhole]; simp
    obtain ⟨slot, isSlot, isSlotToo, isPlace⟩ := follows.1.shared apart follows.2.follows.1 rfl
      (plain first isFirst) (plain second isSecond) (isKey.trans isKeyToo.symm)
    have takenTwice : 2 ≤ (taken sites).count slot := by
      rw [isWhole]
      simp only [taken, flatMap_append, flatMap_cons, isSlot, isSlotToo,
        count_append, count_singleton_self]
      omega
    have isPaid := paid slot
    rcases isPlace with isTop | ⟨owner, name, rfl⟩
    · have notOffered := count_offered_of_outer_eq_none (apart.outer slot isTop) sites
      have once := nodup_iff_count_le_one.mp apart.nodup.of_map slot
      omega
    · have notTop : tops.count (.inside owner name) = 0 :=
        count_eq_zero.mpr fun isTop => nomatch apart.outer _ isTop
      have isShorter : owner.toList.length < length := by
        rw [← isLength, ← isKey, key_eq_of_ownSlots_eq isSlot]
        exact length_lt_innerKey owner name
      have ownerOnce := ih _ isShorter owner rfl
      have offeredOnce := count_offered_le plain owner name
      omega

end Keys

end Site

variable {unit : CompilationUnit}

/-! ### The keys of units -/

def ClassNode.name? : ClassNode → Option String
  | .declaration declared => some declared.name
  | .body _ => none

def ClassNode.members : ClassNode → List Member
  | .declaration declared => declared.members
  | .body written => written.members

theorem SiteBody.name?_node (body : SiteBody) : body.node.name? = body.name? := by
  cases body <;> rfl

theorem SiteBody.members_node (body : SiteBody) : body.node.members = body.members := by
  cases body <;> rfl

/-- The names of the package and of all classes of a unit have no dollar sign, and those of classes
are words. -/
structure CompilationUnit.HasPlainNames (unit : CompilationUnit) : Prop where
  package : ∀ package ∈ unit.packageName?, '$' ∉ package.toList
  classes : ∀ visit ∈ Visit.ofUnit unit, ∀ name ∈ visit.node.name?, IsPlainName name

theorem CompilationUnit.HasPlainNames.top (plain : unit.HasPlainNames)
    (isTop : declaration ∈ unit.types) : IsPlainName declaration.name := by
  refine plain.classes ⟨.declaration declaration, true⟩ ?_ declaration.name rfl
  refine mem_flatMap.mpr ⟨declaration, isTop, ?_⟩
  obtain ⟨header, constants, members⟩ := declaration
  exact mem_cons_self

theorem CompilationUnit.toList_qualify :
    (unit.qualify name).toList =
      (unit.packageName?.elim [] fun package => package.toList ++ ['.']) ++ name.toList := by
  unfold qualify
  split
  next package isPackage =>
    show (package ++ "." ++ name).toList = _
    simp [isPackage]
  next isNone => simp [isNone]

theorem CompilationUnit.qualify_inj {other : CompilationUnit} {name second : String}
    (isName : IsPlainName name) (isNameToo : IsPlainName second)
    (same : unit.qualify name = other.qualify second) :
    (unit.packageName?, name) = (other.packageName?, second) := by
  have lists := congrArg String.toList same
  rw [toList_qualify, toList_qualify] at lists
  have isLast := point_notMem_of_isIdentifier isName.1
  have isLastToo := point_notMem_of_isIdentifier isNameToo.1
  generalize unit.packageName? = package?, other.packageName? = packageToo? at lists ⊢
  cases package? with
  | none =>
    cases packageToo? with
    | none => rw [String.toList_inj.mp lists]
    | some package =>
      rw [Option.elim_none, nil_append] at lists
      exact absurd (by rw [lists]; simp) isLast
  | some package =>
    cases packageToo? with
    | none =>
      rw [Option.elim_none, nil_append] at lists
      exact absurd (by rw [← lists]; simp) isLastToo
    | some packageToo =>
      simp only [Option.elim_some, append_assoc, singleton_append] at lists
      obtain ⟨packages, names⟩ := eq_of_append_mark_eq isLast isLastToo lists
      rw [String.toList_inj.mp packages, String.toList_inj.mp names]

namespace Site

variable {units : List (String × CompilationUnit)}

theorem apart_topSlots (plain : ∀ entry ∈ units, entry.2.HasPlainNames)
    (distinct : (units.flatMap fun entry => entry.2.types.map fun declaration =>
      (entry.2.packageName?, declaration.name)).Nodup) :
    Apart (units.flatMap fun entry => topSlots entry.2) where
  outer slot isTop := by
    obtain ⟨entry, -, isTop⟩ := mem_flatMap.mp isTop
    obtain ⟨declaration, -, rfl⟩ := mem_map.mp isTop
    rfl
  bare slot isTop := by
    obtain ⟨entry, isEntry, isTop⟩ := mem_flatMap.mp isTop
    obtain ⟨declaration, isType, rfl⟩ := mem_map.mp isTop
    rw [CompilationUnit.toList_qualify, mem_append]
    rintro (inPackage | inName)
    · have isPlain := (plain entry isEntry).package
      cases isPackage : entry.2.packageName? with
      | none => simp [isPackage] at inPackage
      | some package => simp [isPackage, isPlain package isPackage] at inPackage
    · exact ((plain entry isEntry).top isType).2 inName
  nodup := by
    -- Both lists go through the types at the top, together with their units.
    have isMap : ∀ {α : Type} (value : CompilationUnit → TypeDeclaration → α),
        (units.flatMap fun entry => entry.2.types.map (value entry.2)) =
          (units.flatMap fun entry => entry.2.types.map (Prod.mk entry.2)).map
            fun top => value top.1 top.2 := by
      simp [map_flatMap, Function.comp_def]
    have isTop : ∀ top ∈ units.flatMap fun entry => entry.2.types.map (Prod.mk entry.2),
        IsPlainName top.2.name := by
      intro top isTop
      obtain ⟨entry, isEntry, isTop⟩ := mem_flatMap.mp isTop
      obtain ⟨declaration, isType, rfl⟩ := mem_map.mp isTop
      exact (plain entry isEntry).top isType
    unfold topSlots
    rw [isMap fun unit declaration => (unit.packageName?, declaration.name), Nodup,
      pairwise_map] at distinct
    rw [isMap fun unit declaration => Slot.mk none declaration.name (unit.qualify declaration.name),
      map_map, Nodup, pairwise_map]
    refine distinct.imp_of_mem fun isFirst isSecond differ same => differ ?_
    exact CompilationUnit.qualify_inj (isTop _ isFirst) (isTop _ isSecond) same

/-- The keys that are given to the classes of units, wherever they stand, are pairwise distinct, if
no name has a dollar sign, no two types at the top of one package have the same name, and no two
member types of one body have. -/
theorem nodup_keys_ofUnits (units : List (String × CompilationUnit))
    (plain : ∀ entry ∈ units, entry.2.HasPlainNames)
    (distinctTops : (units.flatMap fun entry => entry.2.types.map fun declaration =>
      (entry.2.packageName?, declaration.name)).Nodup)
    (distinctMembers : ∀ entry ∈ units, ∀ visit ∈ Visit.ofUnit entry.2,
      (visit.node.members.flatMap Member.typeNames).Nodup) :
    ((ofUnits units).map Site.key).Nodup := by
  have apart := apart_topSlots plain distinctTops
  obtain ⟨added, isAdded, keeps, paid⟩ :=
    lays_ofUnits units { sites := [], locals := [] } fun _ isTop => isTop
  have laid := keeps trivial
  rw [isAdded, append_nil] at laid
  have isAll : ofUnits units = added.reverse := by
    rw [← append_nil added, ← isAdded]
    rfl
  have isPlain : ∀ site ∈ added, site.Plain := by
    intro site isSite
    obtain ⟨unit, isUnit, isVisit⟩ := (has_ofUnits_iff units site.file site.body.node).mp
      ⟨site, by rw [isAll]; exact mem_reverse.mpr isSite, rfl, rfl⟩
    refine ⟨?_, ?_⟩
    · rw [← SiteBody.name?_node]
      exact (plain _ isUnit).classes _ isVisit
    · rw [← SiteBody.members_node]
      exact distinctMembers _ isUnit _ isVisit
  rw [isAll, map_reverse, nodup_reverse, nodup_iff_count_le_one]
  exact count_key_le_one apart laid isPlain paid

def somewhere : Span := ⟨⟨1, 1, 0⟩, ⟨1, 1, 0⟩⟩

def bareClass (name : String) (members : List Member) : TypeDeclaration :=
  ⟨⟨[], [], name, somewhere, .class [] none [] [], somewhere⟩, [], members⟩

/-- A class `A` with a member type `B`, with two local classes `B` in blocks of their own, of which
the first has a member type `B` too, and with an anonymous class. -/
def nestedClasses : CompilationUnit :=
  { package := some ⟨"p.q", [], somewhere⟩
    imports := []
    types := [bareClass "A"
      [.type (bareClass "B" []),
        .initializer false
          ⟨[.block ⟨[.typeDeclaration (bareClass "B" [.type (bareClass "B" [])])], somewhere⟩,
              .block ⟨[.typeDeclaration (bareClass "B" [])], somewhere⟩,
              .expression (.create none ⟨"A", [], false, [], 0, somewhere⟩ []
                (some ⟨[], somewhere⟩) 0 somewhere) somewhere], somewhere⟩ somewhere]]
    span := somewhere
    annotationArguments := #[] }

theorem visits_nestedClasses : ∀ visit ∈ Visit.ofUnit nestedClasses,
    (∀ name ∈ visit.node.name?, IsPlainName name) ∧
      (visit.node.members.flatMap Member.typeNames).Nodup := by
  have shown : (Visit.ofUnit nestedClasses).map (fun visit =>
        (visit.node.name?, visit.node.members.flatMap Member.typeNames)) =
      [(some "A", ["B"]), (some "B", []), (some "B", ["B"]), (some "B", []), (some "B", []),
        (none, [])] :=
    rfl
  have all : ∀ entry ∈ (Visit.ofUnit nestedClasses).map (fun visit =>
      (visit.node.name?, visit.node.members.flatMap Member.typeNames)),
      (∀ name ∈ entry.1, IsPlainName name) ∧ entry.2.Nodup := by
    decide
  exact forall_mem_map.mp all

theorem nodup_keys_ofUnits_nestedClasses :
    ((ofUnits [("A.java", nestedClasses)]).map Site.key).Nodup ∧
      (ofUnits [("A.java", nestedClasses)]).map Site.key =
        ["p.q.A", "p.q.A$B", "p.q.A$1B", "p.q.A$1B$B", "p.q.A$2B", "p.q.A$1"] := by
  refine ⟨nodup_keys_ofUnits [("A.java", nestedClasses)] ?_ (by decide) ?_, rfl⟩
  · rintro entry isEntry
    obtain rfl := mem_singleton.mp isEntry
    exact ⟨by decide, fun visit isVisit => (visits_nestedClasses visit isVisit).1⟩
  · rintro entry isEntry
    obtain rfl := mem_singleton.mp isEntry
    exact fun visit isVisit => (visits_nestedClasses visit isVisit).2

end Site

end

end JavaFrontEnd
