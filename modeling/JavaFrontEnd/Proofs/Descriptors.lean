/-
What descriptors tell apart. They are written one after the other with nothing between them, but
each can be read back from the start of a text, up to erasure. So a method descriptor gives back the
erasures that it was made from.
-/

import JavaFrontEnd.Types.Basic
import Mathlib.Data.List.TakeWhile

namespace JavaFrontEnd.Ty

open List

def loaded : Ty → Ty
  | .null | .unknown => object
  | .array element => .array element.loaded
  | other => other

def erased (type : Ty) : Ty :=
  type.erasure.loaded

/-- The key of the class, or of the class of the elements, holds no mark of a descriptor. -/
def HasPlainKey : Ty → Prop
  | .class key _ => '/' ∉ key.toList ∧ ';' ∉ key.toList
  | .array element => element.HasPlainKey
  | _ => True

def slashed (char : Char) : Char :=
  if char = '.' then '/' else char

def dotted (char : Char) : Char :=
  if char = '/' then '.' else char

theorem descriptor_object : object.descriptor = "Ljava/lang/Object;" := by
  decide +kernel

theorem descriptor_erased : ∀ type : Ty, type.erased.descriptor = type.descriptor
  | .primitive _ | .void | .class _ _ => rfl
  | .array element => congrArg ("[" ++ ·) (descriptor_erased element)
  | .variable _ | .wildcard | .null | .unknown => descriptor_object

/-! ### Reading descriptors back -/

/-- The type whose descriptor a text begins with, and the rest of the text. -/
def readDescriptor : List Char → Option (Ty × List Char)
  | [] => none
  | 'V' :: rest => some (.void, rest)
  | '[' :: rest => (readDescriptor rest).map (Prod.map .array id)
  | 'L' :: rest =>
    some (.ofKey (String.ofList ((rest.takeWhile (· ≠ ';')).map dotted)),
      (rest.dropWhile (· ≠ ';')).tail)
  | letter :: rest => (Primitive.ofLetter? letter).map (.primitive ·, rest)

theorem map_dotted_slashed {key : List Char} (noSlash : '/' ∉ key) :
    (key.map slashed).map dotted = key := by
  rw [map_map]
  refine (map_congr_left fun char isChar => ?_).trans (map_id key)
  have isOther : char ≠ '/' := fun isSlash => noSlash (isSlash ▸ isChar)
  by_cases isDot : char = '.' <;> simp [slashed, dotted, isDot, isOther]

theorem readDescriptor_ofKey (noSlash : '/' ∉ key.toList) (noMark : ';' ∉ key.toList) :
    readDescriptor ((ofKey key).descriptor.toList ++ rest) = some (.ofKey key, rest) := by
  have isPlain : ∀ char ∈ key.toList.map slashed, decide (char ≠ ';') = true := by
    simp only [forall_mem_map, decide_eq_true_eq, slashed]
    intro char isChar isMark
    split at isMark
    · cases isMark
    · exact noMark (isMark ▸ isChar)
  have isText : (ofKey key).descriptor.toList = 'L' :: (key.toList.map slashed ++ [';']) := by
    show ("L" ++ String.ofList (key.toList.map slashed) ++ ";").toList = _
    simp
  rw [isText, cons_append, append_assoc, readDescriptor, takeWhile_append_of_pos isPlain,
    dropWhile_append_of_pos isPlain]
  simp [map_dotted_slashed noSlash]

theorem readDescriptor_append (rest : List Char) : ∀ type : Ty, type.HasPlainKey →
    readDescriptor (type.descriptor.toList ++ rest) = some (type.erased, rest)
  | .primitive kind, _ => by cases kind <;> simp [descriptor] <;> rfl
  | .void, _ => rfl
  | .class _ _, isPlain => readDescriptor_ofKey isPlain.1 isPlain.2
  | .array element, isPlain => by
    simp [descriptor, readDescriptor, readDescriptor_append rest element isPlain]
    rfl
  | .variable _, _ | .wildcard, _ | .null, _ | .unknown, _ => by
    rw [← descriptor_erased]
    exact readDescriptor_ofKey (by decide) (by decide)

theorem descriptors_inj {firsts seconds : List Ty} (areFirst : ∀ type ∈ firsts, type.HasPlainKey)
    (areSecond : ∀ type ∈ seconds, type.HasPlainKey)
    (same : (firsts.flatMap fun type => type.descriptor.toList) ++ ')' :: rest =
      (seconds.flatMap fun type => type.descriptor.toList) ++ ')' :: more) :
    firsts.map erased = seconds.map erased ∧ rest = more := by
  have isEnd (text : List Char) : readDescriptor (')' :: text) = none := rfl
  induction firsts generalizing seconds with
  | nil =>
    cases seconds with
    | nil => exact ⟨rfl, (cons.inj same).2⟩
    | cons second seconds =>
      have isRead := congrArg readDescriptor same
      rw [flatMap_cons, append_assoc,
        readDescriptor_append _ _ (areSecond _ mem_cons_self)] at isRead
      cases (isEnd rest).symm.trans isRead
  | cons first firsts ih =>
    obtain ⟨isFirst, areLater⟩ := forall_mem_cons.mp areFirst
    have isRead := congrArg readDescriptor same
    rw [flatMap_cons, append_assoc, readDescriptor_append _ _ isFirst] at isRead
    cases seconds with
    | nil => cases isRead.trans (isEnd more)
    | cons second seconds =>
      obtain ⟨isSecond, areOthers⟩ := forall_mem_cons.mp areSecond
      rw [flatMap_cons, append_assoc, readDescriptor_append _ _ isSecond, Option.some.injEq,
        Prod.mk.injEq] at isRead
      obtain ⟨areSame, isRest⟩ := ih areLater areOthers isRead.2
      exact ⟨congrArg₂ cons isRead.1 areSame, isRest⟩

theorem toList_methodDescriptor (parameters : List Ty) (result : Ty) :
    (methodDescriptor parameters result).toList =
      '(' :: (parameters.flatMap fun type => type.descriptor.toList) ++
        ')' :: result.descriptor.toList := by
  simp [methodDescriptor, flatMap_map]

/-- Two method descriptors are the same exactly if the erasures of the parameters, one by one, and
of the results are. -/
theorem methodDescriptor_eq_iff (parameters others : List Ty) (result other : Ty)
    (arePlain : ∀ type ∈ result :: other :: (parameters ++ others), type.HasPlainKey) :
    methodDescriptor parameters result = methodDescriptor others other ↔
      parameters.map erased = others.map erased ∧ result.erased = other.erased := by
  obtain ⟨isResult, isOther, areParameters, areOthers⟩ := by
    simpa only [forall_mem_cons, forall_mem_append] using arePlain
  constructor
  · intro same
    rw [← String.toList_inj, toList_methodDescriptor, toList_methodDescriptor] at same
    obtain ⟨sameParameters, sameResult⟩ := descriptors_inj areParameters areOthers (cons.inj same).2
    have isRead := congrArg (fun text => readDescriptor (text ++ [])) sameResult
    rw [readDescriptor_append _ _ isResult, readDescriptor_append _ _ isOther] at isRead
    exact ⟨sameParameters, (Prod.mk.inj (Option.some.inj isRead)).1⟩
  · rintro ⟨sameParameters, sameResult⟩
    have erasedAll (types : List Ty) : types.map descriptor =
        (types.map erased).map descriptor := by simp [descriptor_erased]
    unfold methodDescriptor
    rw [erasedAll parameters, erasedAll others, sameParameters, ← descriptor_erased, sameResult,
      descriptor_erased]

theorem methodDescriptor_eq_iff_generic :
    methodDescriptor [.variable "T", .array (.class "p.Box" [.wildcard])] .void =
        methodDescriptor [.unknown, .array (.class "p.Box" [])] .void ∧
      methodDescriptor [.array .int, .int] .void ≠ methodDescriptor [.int, .array .int] .void := by
  refine ⟨(methodDescriptor_eq_iff _ _ _ _ (by simp [HasPlainKey])).mpr ⟨rfl, rfl⟩, fun same => ?_⟩
  have isSame := (methodDescriptor_eq_iff _ _ _ _ (by simp [HasPlainKey, int])).mp same
  cases isSame.1

end JavaFrontEnd.Ty
