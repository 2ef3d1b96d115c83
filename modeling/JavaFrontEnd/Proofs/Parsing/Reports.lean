/-
What a configuration makes of the remarks of a parse. The number of syntax errors that are kept cuts
off the later ones (`CompilationUnit.ofTokens_keepFirst`), and from the level of switch expressions
on a higher level lifts the errors about features that it has (`CompilationUnit.parse_lifts`). Both
compare two logs of the same remarks, entry by entry; problems are told apart by their wordings.
-/

import JavaFrontEnd.Proofs.Parsing.AdmittedUnits
import JavaFrontEnd.Proofs.Parsing.Result
import Mathlib.Data.List.Nodup

namespace JavaFrontEnd

open List

/-! Two parses of the same tokens. Of the configuration a parser sees only whether there are switch
expressions, and it sees nothing of what has been reported. So in two environments that agree on
switch expressions it yields the same value, moves the cursor alike, and makes the same remarks in
the same order (`CompilationUnit.ofTokens_agree`). -/

namespace Grammar

def Log.recordAll (config : Configuration) (log : Log) (remarks : List Remark) : Log :=
  remarks.foldl (Log.record config) log

structure Environment.Alike (one two : Environment) : Prop where
  bound : one.bound = two.bound
  switches : one.configuration.allows .switchExpressions =
    two.configuration.allows .switchExpressions

variable {α β : Type} {one two : Environment} {first second start other after later : State}

def SameRemarks (one two : Environment) (first second after later : State) : Prop :=
  ∃ remarks, after.log = first.log.recordAll one.configuration remarks ∧
    later.log = second.log.recordAll two.configuration remarks

namespace SameRemarks

theorem none (isFirst : after.log = first.log) (isSecond : later.log = second.log) :
    SameRemarks one two first second after later :=
  ⟨[], isFirst, isSecond⟩

theorem trans (before : SameRemarks one two first second start other)
    (behind : SameRemarks one two start other after later) :
    SameRemarks one two first second after later := by
  obtain ⟨remarks, isStart, isOther⟩ := before
  obtain ⟨further, isAfter, isLater⟩ := behind
  refine ⟨remarks ++ further, ?_, ?_⟩
  · rw [isAfter, isStart]
    exact List.foldl_append.symm
  · rw [isLater, isOther]
    exact List.foldl_append.symm

theorem changed (enters : Silent enter) (leaves : Silent leave) (entersOther : Silent enterOther)
    (leavesOther : Silent leaveOther)
    (same : SameRemarks one two (enter first) (enterOther second) after later) :
    SameRemarks one two first second (leave after) (leaveOther later) := by
  obtain ⟨remarks, isAfter, isLater⟩ := same
  rw [enters.log] at isAfter
  rw [entersOther.log] at isLater
  exact ⟨remarks, (leaves.log after).trans isAfter, (leavesOther.log later).trans isLater⟩

end SameRemarks

structure Agreement (one two : Environment) (first second : State)
    (left right : Option α × State) : Prop where
  value : left.1 = right.1
  core : left.2.core = right.2.core
  remarks : SameRemarks one two first second left.2 right.2

/-- A parser does the same in environments that are alike, from states that differ in what has been
reported alone. -/
def Agrees (parser : Parser α) : Prop :=
  ∀ one two, one.Alike two → ∀ first second, first.core = second.core →
    Agreement one two first second (parser one first) (parser two second)

theorem Silent.core_congr (silent : Silent change) (same : first.core = second.core) :
    (change first).core = (change second).core := by
  rw [silent.core, silent.core, same]

/-- Parsers do not see what the configuration makes of their remarks. -/
def agreeing : Discipline where
  Admits _ _ := Agrees
  weaken _ agrees := agrees
  pure _ _ _ _ _ _ same := ⟨rfl, same, .none rfl rfl⟩
  bind {_ _ _ _ _ _ parser next} agrees further one two alike first second same := by
    obtain ⟨isValue, isCore, remarks⟩ := agrees one two alike first second same
    show Agreement one two first second (Parser.bind parser next one first)
      (Parser.bind parser next two second)
    unfold Parser.bind
    generalize parser one first = left at isValue isCore remarks ⊢
    generalize parser two second = right at isValue isCore remarks ⊢
    obtain ⟨value, start⟩ := left
    obtain ⟨_, other⟩ := right
    cases isValue
    cases value with
    | none => exact ⟨rfl, isCore, remarks⟩
    | some value =>
      have rest := further value one two alike start other isCore
      exact ⟨rest.value, rest.core, remarks.trans rest.remarks⟩
  fail _ _ _ _ _ same := ⟨rfl, same, .none rfl rfl⟩
  attempt {_ _ _ parser} agrees one two alike first second same := by
    obtain ⟨isValue, isCore, remarks⟩ := agrees one two alike first second same
    have notes : Silent fun after =>
        { after with abandoned := after.consumed :: after.abandoned } := {}
    unfold Parser.attempt
    generalize parser one first = left at isValue isCore remarks ⊢
    generalize parser two second = right at isValue isCore remarks ⊢
    obtain ⟨value, start⟩ := left
    obtain ⟨_, other⟩ := right
    cases isValue
    cases value with
    | none => exact ⟨rfl, notes.core_congr isCore, remarks⟩
    | some value => exact ⟨rfl, isCore, remarks⟩
  inspect {_ _ _ next} isSame agrees one two alike first second same := by
    have isNext : next second = next first := by
      rw [isSame second, ← same, ← isSame first]
    have agreement := agrees first one two alike first second same
    show Agreement one two first second (next first one first) (next second two second)
    rw [isNext]
    exact agreement
  change silent _ _ _ first second same :=
    ⟨rfl, silent.core_congr same, .none (silent.log first) (silent.log second)⟩
  framed {_ _ _ _ _ leave} enters leaves isSame agrees one two alike first second same := by
    have inside := agrees one two alike _ _ (enters.core_congr same)
    have isLeave : leave second = leave first := by
      rw [isSame second, ← same, ← isSame first]
    refine ⟨inside.value, ?_, inside.remarks.changed enters (leaves first) enters (leaves second)⟩
    show (leave first _).core = (leave second _).core
    rw [isLeave]
    exact (leaves first).core_congr inside.core
  tell remark one two _ first second same := ⟨rfl, same, [remark], rfl, rfl⟩
  freshId {_ _ _ next} agrees one two alike first second same := by
    have isId : first.nextId = second.nextId := by
      show first.core.nextId = second.core.nextId
      rw [same]
    have isCore : ({ first.core with nextId := first.nextId + 1 } : State) =
        { second.core with nextId := second.nextId + 1 } := by
      rw [same, isId]
    show Agreement one two first second (next first.nextId one { first with nextId := _ })
      (next second.nextId two { second with nextId := _ })
    rw [← isId] at isCore ⊢
    have rest := agrees first.nextId one two alike { first with nextId := _ }
      { second with nextId := _ } isCore
    exact ⟨rest.value, rest.core, rest.remarks⟩
  byLevel {_ _ _ next} isSame agrees one two alike first second same := by
    show Agreement one two first second (next one.configuration one first)
      (next two.configuration two second)
    rw [← isSame _ _ alike.switches]
    exact agrees one.configuration one two alike first second same
  byBound {_ _ _ parser} agrees one two alike first second same := by
    show Agreement one two first second (parser one.bound one first) (parser two.bound two second)
    rw [← alike.bound]
    exact agrees one.bound one two alike first second same

namespace UnitRun

theorem unit_congr {left right : UnitRun} (isValue : left.1 = right.1)
    (isCore : left.2.core = right.2.core) : (left.result tokens).1 = (right.result tokens).1 := by
  obtain ⟨value, final⟩ := left
  obtain ⟨_, other⟩ := right
  cases isValue
  have isArguments : final.annotationArguments = other.annotationArguments := by
    show final.core.annotationArguments = other.core.annotationArguments
    rw [isCore]
  cases value with
  | none => exact congrArg (CompilationUnit.mk none [] [] _) isArguments
  | some parts => exact congrArg (CompilationUnit.mk parts.1 parts.2.1 parts.2.2.1 _) isArguments

theorem found_result (tokens : List Token) (run : UnitRun) :
    (run.result tokens).2 = run.2.found.reverse := by
  obtain ⟨_ | parts, final⟩ := run <;> rfl

end UnitRun

end Grammar

namespace CompilationUnit

open Grammar

theorem ofTokens_agree {one two : Configuration}
    (same : one.allows .switchExpressions = two.allows .switchExpressions) (tokens : List Token) :
    (ofTokens one tokens).1 = (ofTokens two tokens).1 ∧
    ∃ remarks, (ofTokens one tokens).2 = (Log.recordAll one {} remarks).found.reverse ∧
      (ofTokens two tokens).2 = (Log.recordAll two {} remarks).found.reverse := by
  obtain ⟨isValue, isCore, remarks, isLeft, isRight⟩ :=
    unitParts_admitted agreeing ⟨one, boundFor tokens.length⟩ ⟨two, boundFor tokens.length⟩
      ⟨rfl, same⟩ (State.initial tokens) (State.initial tokens) rfl
  rw [ofTokens_eq_result, ofTokens_eq_result]
  refine ⟨UnitRun.unit_congr isValue isCore, remarks, ?_, ?_⟩
  · rw [UnitRun.found_result]
    exact congrArg (fun log => log.found.reverse) isLeft
  · rw [UnitRun.found_result]
    exact congrArg (fun log => log.found.reverse) isRight

end CompilationUnit

/-! ### Wordings -/

theorem Feature.mem_all (feature : Feature) : feature ∈ Feature.all := by
  cases feature <;> decide

theorem Feature.unavailableMessage_injective : Function.Injective Feature.unavailableMessage := by
  have distinct : (Feature.all.map Feature.unavailableMessage).Nodup := by
    decide +kernel
  exact fun one two same => inj_on_of_nodup_map distinct one.mem_all two.mem_all same

def firstBytes (text : String) : List UInt8 :=
  text.toByteArray.data.toList.take 16

theorem firstBytes_append (first rest : String) (isLong : 16 ≤ first.utf8ByteSize) :
    firstBytes (first ++ rest) = firstBytes first := by
  unfold firstBytes
  rw [String.toByteArray_append, ByteArray.data_append, Array.toList_append]
  exact take_append_of_le_length isLong

namespace SyntaxProblem

variable (problem : SyntaxProblem)

def openings : List (List UInt8) :=
  ["Syntax error on token", "Syntax error, insert", "Syntax error, the construct",
    "Return type for the method", "'_' is a keyword", "Different case kinds"].map firstBytes

theorem firstBytes_message : firstBytes problem.message ∈ openings := by
  have onToken (rest : String) : firstBytes ("Syntax error on token \"" ++ rest) ∈ openings := by
    rw [firstBytes_append _ _ (by decide +kernel)]
    decide +kernel
  have inserted (rest : String) : firstBytes ("Syntax error, insert \"" ++ rest) ∈ openings := by
    rw [firstBytes_append _ _ (by decide +kernel)]
    decide +kernel
  cases problem with
  | expected found wanted | expectedAfter found wanted =>
    show firstBytes ("Syntax error on token \"" ++ found ++ _ ++ wanted ++ _) ∈ openings
    rw [String.append_assoc, String.append_assoc, String.append_assoc]
    exact onToken _
  | delete found =>
    show firstBytes ("Syntax error on token \"" ++ found ++ _) ∈ openings
    rw [String.append_assoc]
    exact onToken _
  | insert missing construct =>
    show firstBytes ("Syntax error, insert \"" ++ missing ++ _ ++ construct) ∈ openings
    rw [String.append_assoc, String.append_assoc]
    exact inserted _
  | missingReturnType | underscoreIdentifier | differentCaseKinds | nestedTooDeeply =>
    decide +kernel

theorem message_ne (feature : Feature) : problem.message ≠ feature.unavailableMessage := by
  have others : ∀ feature ∈ Feature.all, firstBytes feature.unavailableMessage ∉ openings := by
    decide +kernel
  intro same
  exact others feature feature.mem_all (same ▸ problem.firstBytes_message)

end SyntaxProblem

/-! ### The first items with a property -/

section KeepFirst

variable {α : Type} (property : α → Bool)

/-- Of the items with a property only the first ones stay, up to a number; all other items stay. -/
def keepFirst : Nat → List α → List α
  | _, [] => []
  | 0, item :: rest =>
    if property item then keepFirst 0 rest else item :: keepFirst 0 rest
  | count + 1, item :: rest =>
    item :: keepFirst (if property item then count else count + 1) rest

theorem keepFirst_concat (count : Nat) (items : List α) (last : α) :
    keepFirst property count (items ++ [last]) = keepFirst property count items ++
      if property last && decide (count ≤ items.countP property) then [] else [last] := by
  induction items generalizing count with
  | nil => cases count <;> cases isLast : property last <;> simp [keepFirst, isLast]
  | cons item rest ih =>
    cases count <;> cases isItem : property item <;> simp [keepFirst, isItem, ih]

theorem filter_keepFirst (count : Nat) (items : List α) :
    (keepFirst property count items).filter property = (items.filter property).take count := by
  induction items generalizing count with
  | nil => rw [keepFirst, filter_nil, take_nil]
  | cons item rest ih =>
    cases count <;> cases isItem : property item <;> simp [keepFirst, isItem, ih]

theorem any_keepFirst (others : ∀ item ∈ items, property item = true → asked item = false)
    (count : Nat) : (keepFirst property count items).any asked = items.any asked := by
  induction items generalizing count with
  | nil => rw [keepFirst]
  | cons item rest ih =>
    have hypothesis := ih fun item isItem => others item (mem_cons_of_mem _ isItem)
    have first := others item mem_cons_self
    cases count with
    | zero => cases isItem : property item <;> simp_all [keepFirst]
    | succ count => simp only [keepFirst, any_cons, hypothesis]

end KeepFirst

/-! ### What is in a log -/

def Diagnostic.isSyntaxError (diagnostic : Diagnostic) : Bool :=
  diagnostic.category == .syntaxError

def Diagnostic.offset (diagnostic : Diagnostic) : Nat :=
  diagnostic.span.start.offset

namespace Grammar.Log

variable {config : Configuration} {log small big low high : Log} {diagnostic : Diagnostic}

/-- The offsets in a log are those of the violations in it, no two of which begin at the same
one. -/
structure Consistent (log : Log) : Prop where
  reported : log.reported = (log.found.filter Diagnostic.isSyntaxError).map Diagnostic.offset
  distinct : log.reported.Nodup
  worded : ∀ diagnostic ∈ log.found, diagnostic.isSyntaxError = true →
    ∃ problem : SyntaxProblem, diagnostic.message = problem.message

theorem exists_violation (isEntry : log.outcome? config remark = some diagnostic)
    (isSyntaxError : diagnostic.isSyntaxError = true) :
    ∃ problem span, remark = .violation problem span := by
  cases remark with
  | violation problem span => exact ⟨problem, span, rfl⟩
  | feature feature span =>
    simp only [outcome?] at isEntry
    split at isEntry
    · cases isEntry
    · obtain ⟨-, isEntry⟩ := Option.ite_none_left_eq_some.mp isEntry
      cases isEntry
      cases isSyntaxError
  | methodReference colons =>
    obtain ⟨-, isEntry⟩ := Option.ite_none_right_eq_some.mp isEntry
    cases isEntry
    cases isSyntaxError
  | reserved token =>
    obtain ⟨message, -, rfl⟩ := Option.map_eq_some_iff.mp isEntry
    cases isSyntaxError
  | label problem span =>
    cases isEntry
    cases problem <;> cases isSyntaxError

theorem new_of_outcome? (isEntry : log.outcome? config remark = some diagnostic)
    (isSyntaxError : diagnostic.isSyntaxError = true) :
    diagnostic.offset ∉ log.reported ∧
      ∃ problem : SyntaxProblem, diagnostic.message = problem.message := by
  obtain ⟨problem, span, rfl⟩ := exists_violation isEntry isSyntaxError
  obtain ⟨isOpen, isEntry⟩ := Option.ite_none_left_eq_some.mp isEntry
  cases isEntry
  refine ⟨fun isKnown => isOpen ?_, problem, rfl⟩
  exact Bool.or_eq_true_iff.mpr (.inr (contains_iff_mem.mpr isKnown))

theorem Consistent.push (consistent : log.Consistent)
    (isNew : diagnostic.isSyntaxError = true → diagnostic.offset ∉ log.reported ∧
      ∃ problem : SyntaxProblem, diagnostic.message = problem.message) :
    (log.push diagnostic).Consistent := by
  cases isSyntaxError : diagnostic.isSyntaxError with
  | true =>
    obtain ⟨isFree, isWorded⟩ := isNew isSyntaxError
    have isReported : (log.push diagnostic).reported = diagnostic.offset :: log.reported :=
      if_pos (eq_of_beq isSyntaxError)
    refine ⟨?_, ?_, forall_mem_cons.mpr ⟨fun _ => isWorded, consistent.worded⟩⟩
    · rw [isReported, consistent.reported]
      show _ = ((diagnostic :: log.found).filter _).map _
      rw [filter_cons_of_pos isSyntaxError, map_cons]
    · rw [isReported]
      exact nodup_cons.mpr ⟨isFree, consistent.distinct⟩
  | false =>
    have isOther : ¬ diagnostic.isSyntaxError = true := Bool.eq_false_iff.mp isSyntaxError
    have isReported : (log.push diagnostic).reported = log.reported :=
      if_neg fun isCategory => isOther (beq_iff_eq.mpr isCategory)
    refine ⟨?_, ?_, forall_mem_cons.mpr ⟨fun is => absurd is isOther, consistent.worded⟩⟩
    · rw [isReported, consistent.reported]
      show _ = ((diagnostic :: log.found).filter _).map _
      rw [filter_cons_of_neg isOther]
    · rw [isReported]
      exact consistent.distinct

theorem Consistent.record (consistent : log.Consistent) (config : Configuration)
    (remark : Remark) : (log.record config remark).Consistent := by
  unfold Log.record
  cases isEntry : log.outcome? config remark with
  | none => exact consistent
  | some diagnostic => exact consistent.push (new_of_outcome? isEntry)

theorem Consistent.recordAll (consistent : log.Consistent) (config : Configuration)
    (remarks : List Remark) : (log.recordAll config remarks).Consistent := by
  induction remarks generalizing log with
  | nil => exact consistent
  | cons remark rest ih => exact ih (consistent.record _ remark)

theorem consistent_empty : Consistent {} :=
  ⟨rfl, nodup_nil, fun _ isFound => absurd isFound not_mem_nil⟩

/-! ### The number of syntax errors that are kept -/

section Cut

variable {fewer more : Nat}

structure Cut (fewer : Nat) (small big : Log) : Prop where
  found : small.found.reverse = keepFirst Diagnostic.isSyntaxError fewer big.found.reverse
  small : small.Consistent
  big : big.Consistent

theorem Consistent.countP (consistent : log.Consistent) :
    log.found.reverse.countP Diagnostic.isSyntaxError = log.reported.length := by
  rw [consistent.reported, length_map, countP_reverse, countP_eq_length_filter]

namespace Cut

variable (cut : Cut fewer small big)
include cut

theorem reported : small.reported.reverse = big.reported.reverse.take fewer := by
  rw [cut.small.reported, cut.big.reported, ← map_reverse, ← map_reverse,
    ← filter_reverse, ← filter_reverse, cut.found, filter_keepFirst, map_take]

theorem knows_eq (offset : Nat) (feature : Feature) :
    small.knows offset feature.unavailableMessage =
      big.knows offset feature.unavailableMessage := by
  unfold knows
  rw [← any_reverse, cut.found, ← any_reverse (l := big.found)]
  refine any_keepFirst _ (fun diagnostic isFound isSyntaxError => ?_) _
  obtain ⟨problem, isWorded⟩ :=
    cut.big.worded diagnostic (mem_reverse.mp isFound) isSyntaxError
  have isOther : (diagnostic.message == feature.unavailableMessage) = false :=
    beq_eq_false_iff_ne.mpr (isWorded ▸ problem.message_ne feature)
  rw [isOther, Bool.and_false]

theorem reported_eq (isRoom : big.reported.length < fewer) : small.reported = big.reported := by
  have reported := cut.reported
  rw [take_of_length_le (by rw [length_reverse]; omega)] at reported
  exact reverse_injective reported

theorem isClosed (isFull : fewer ≤ big.reported.length) (offset : Nat) :
    small.isClosed { config with maxSyntaxErrors := fewer } offset = true := by
  have length := congrArg length cut.reported
  rw [length_reverse, length_take, length_reverse, Nat.min_eq_left isFull] at length
  exact Bool.or_eq_true_iff.mpr (.inl (decide_eq_true (Nat.le_of_eq length.symm)))

theorem push_both
    (isKept : diagnostic.isSyntaxError = true → big.reported.length < fewer) :
    (small.push diagnostic).found.reverse =
      keepFirst Diagnostic.isSyntaxError fewer (big.push diagnostic).found.reverse := by
  show (diagnostic :: small.found).reverse =
    keepFirst Diagnostic.isSyntaxError fewer (diagnostic :: big.found).reverse
  rw [reverse_cons, reverse_cons, keepFirst_concat, cut.found, cut.big.countP, if_neg]
  intro isDropped
  obtain ⟨isSyntaxError, isFull⟩ := Bool.and_eq_true_iff.mp isDropped
  exact absurd (of_decide_eq_true isFull) (Nat.not_le_of_lt (isKept isSyntaxError))

theorem push_big (isSyntaxError : diagnostic.isSyntaxError = true)
    (isFull : fewer ≤ big.reported.length) :
    small.found.reverse =
      keepFirst Diagnostic.isSyntaxError fewer (big.push diagnostic).found.reverse := by
  show small.found.reverse =
    keepFirst Diagnostic.isSyntaxError fewer (diagnostic :: big.found).reverse
  rw [reverse_cons, keepFirst_concat, cut.found, cut.big.countP, if_pos, append_nil]
  exact Bool.and_eq_true_iff.mpr ⟨isSyntaxError, decide_eq_true isFull⟩

variable (config : Configuration) (atMost : fewer ≤ more)
include atMost

/-- Of a remark both logs make the same, which is no violation after the last one that is kept; or
the smaller log drops it, and it is such a violation. -/
theorem outcome?_cases (remark : Remark) :
    (small.outcome? { config with maxSyntaxErrors := fewer } remark =
        big.outcome? { config with maxSyntaxErrors := more } remark ∧
      ∀ diagnostic ∈ big.outcome? { config with maxSyntaxErrors := more } remark,
        diagnostic.isSyntaxError = true → big.reported.length < fewer) ∨
    (small.outcome? { config with maxSyntaxErrors := fewer } remark = none ∧
      ∀ diagnostic ∈ big.outcome? { config with maxSyntaxErrors := more } remark,
        diagnostic.isSyntaxError = true ∧ fewer ≤ big.reported.length) := by
  cases remark with
  | violation problem span =>
    rcases Nat.lt_or_ge big.reported.length fewer with isRoom | isFull
    · refine .inl ⟨?_, fun _ _ _ => isRoom⟩
      have isOpen (count : Nat) (atLeast : fewer ≤ count) :
          big.isClosed { config with maxSyntaxErrors := count } span.start.offset =
            big.reported.contains span.start.offset := by
        have isLess : decide (count ≤ big.reported.length) = false :=
          decide_eq_false (by omega)
        unfold Log.isClosed
        rw [isLess, Bool.false_or]
      have same : small.isClosed { config with maxSyntaxErrors := fewer } =
          big.isClosed { config with maxSyntaxErrors := fewer } := by
        unfold Log.isClosed
        rw [cut.reported_eq isRoom]
      simp only [outcome?]
      rw [same, isOpen fewer (Nat.le_refl _), isOpen more atMost]
    · refine .inr ⟨if_pos (cut.isClosed isFull _), fun diagnostic isEntry => ⟨?_, isFull⟩⟩
      obtain ⟨-, isEntry⟩ := Option.ite_none_left_eq_some.mp isEntry
      cases isEntry
      rfl
  | feature feature span =>
    refine .inl ⟨?_, fun _ isEntry isError => ?_⟩
    case refine_2 => simpa using exists_violation isEntry isError
    simp only [outcome?]
    rw [cut.knows_eq]
    rfl
  | methodReference | reserved | label =>
    refine .inl ⟨rfl, fun _ isEntry isError => ?_⟩
    simpa using exists_violation isEntry isError

theorem record (remark : Remark) :
    Cut fewer (small.record { config with maxSyntaxErrors := fewer } remark)
      (big.record { config with maxSyntaxErrors := more } remark) := by
  refine ⟨?_, cut.small.record _ remark, cut.big.record _ remark⟩
  unfold Log.record
  rcases cut.outcome?_cases config atMost remark with ⟨same, isKept⟩ | ⟨isNone, isDropped⟩
  · rw [same]
    cases isEntry : big.outcome? { config with maxSyntaxErrors := more } remark with
    | none => exact cut.found
    | some diagnostic => exact cut.push_both (isKept diagnostic isEntry)
  · rw [isNone]
    cases isEntry : big.outcome? { config with maxSyntaxErrors := more } remark with
    | none => exact cut.found
    | some diagnostic =>
      obtain ⟨isSyntaxError, isFull⟩ := isDropped diagnostic isEntry
      exact cut.push_big isSyntaxError isFull

theorem recordAll (remarks : List Remark) :
    Cut fewer (small.recordAll { config with maxSyntaxErrors := fewer } remarks)
      (big.recordAll { config with maxSyntaxErrors := more } remarks) := by
  induction remarks generalizing small big with
  | nil => exact cut
  | cons remark rest ih => exact ih (cut.record config atMost remark)

end Cut

theorem cut_empty : Cut fewer {} {} :=
  ⟨rfl, consistent_empty, consistent_empty⟩

end Cut

end Grammar.Log

namespace CompilationUnit

open Grammar

/-- The number of syntax errors that are kept is a cut and nothing else: with a smaller number the
tree is the same, and of what is found with a larger one exactly the violations of the grammar after
the first so many are missing. No two violations of the grammar begin at the same place. -/
theorem ofTokens_keepFirst (configuration : Configuration) (tokens : List Token)
    {fewer more : Nat} (atMost : fewer ≤ more) :
    (ofTokens { configuration with maxSyntaxErrors := fewer } tokens).1 =
      (ofTokens { configuration with maxSyntaxErrors := more } tokens).1 ∧
    (ofTokens { configuration with maxSyntaxErrors := fewer } tokens).2 =
      keepFirst Diagnostic.isSyntaxError fewer
        (ofTokens { configuration with maxSyntaxErrors := more } tokens).2 ∧
    (((ofTokens configuration tokens).2.filter Diagnostic.isSyntaxError).map
      Diagnostic.offset).Nodup := by
  obtain ⟨sameTree, remarks, isFewer, isMore⟩ :=
    @ofTokens_agree { configuration with maxSyntaxErrors := fewer }
      { configuration with maxSyntaxErrors := more } rfl tokens
  obtain ⟨-, others, isFound, -⟩ := @ofTokens_agree configuration configuration rfl tokens
  refine ⟨sameTree, ?_, ?_⟩
  · rw [isFewer, isMore]
    exact (Log.cut_empty.recordAll configuration atMost remarks).found
  · have consistent := Log.consistent_empty.recordAll configuration others
    rw [isFound, filter_reverse, map_reverse, ← consistent.reported, nodup_reverse]
    exact consistent.distinct

def twoStrays : List Token :=
  [⟨.rightParen, true, ")", ⟨⟨1, 1, 0⟩, ⟨1, 2, 1⟩⟩⟩,
    ⟨.semicolon, true, ";", ⟨⟨1, 2, 1⟩, ⟨1, 3, 2⟩⟩⟩,
    ⟨.rightParen, true, ")", ⟨⟨1, 3, 2⟩, ⟨1, 4, 3⟩⟩⟩]

/-- Of the errors about two stray tokens a cut at one keeps the first. -/
theorem ofTokens_keepFirst_twoStrays :
    1 ≤ 2 ∧ (ofTokens { maxSyntaxErrors := 2 } twoStrays).2.map Diagnostic.offset = [0, 2] ∧
      (ofTokens { ({} : Configuration) with maxSyntaxErrors := 1 } twoStrays).2 =
        keepFirst Diagnostic.isSyntaxError 1
          (ofTokens { ({} : Configuration) with maxSyntaxErrors := 2 } twoStrays).2 ∧
      (ofTokens { maxSyntaxErrors := 1 } twoStrays).2.map Diagnostic.offset = [0] := by
  have atMost : 1 ≤ 2 := by decide
  obtain ⟨-, isCut, -⟩ := ofTokens_keepFirst {} twoStrays atMost
  refine ⟨atMost, ?_, isCut, ?_⟩
  · decide +kernel
  · decide +kernel

end CompilationUnit

/-! ### The level -/

/-- A level lifts a problem when that is a feature missing at another level, and it has the
feature. -/
def Level.lifts (level : Level) (diagnostic : Diagnostic) : Bool :=
  diagnostic.category == .featureNotAvailable && Feature.all.any fun feature =>
    level.allows feature && diagnostic.message == feature.unavailableMessage

namespace Level

variable {lower higher : Level} {diagnostic : Diagnostic}

theorem allows_of_le (atMost : lower.release ≤ higher.release)
    (isAllowed : lower.allows feature = true) : higher.allows feature = true :=
  decide_eq_true (Nat.le_trans (of_decide_eq_true isAllowed) atMost)

theorem category_of_lifts {level : Level} (isLifted : level.lifts diagnostic = true) :
    diagnostic.category = .featureNotAvailable :=
  eq_of_beq (Bool.and_eq_true_iff.mp isLifted).1

theorem lifts_of_message {level : Level} {feature : Feature}
    (isCategory : diagnostic.category = .featureNotAvailable)
    (isMessage : diagnostic.message = feature.unavailableMessage) :
    level.lifts diagnostic = level.allows feature := by
  unfold lifts
  rw [isCategory, isMessage, beq_self_eq_true, Bool.true_and]
  refine Bool.eq_iff_iff.mpr ⟨fun isFound => ?_, fun isAllowed => ?_⟩
  · obtain ⟨other, -, isOther⟩ := any_eq_true.mp isFound
    obtain ⟨isAllowed, isSame⟩ := Bool.and_eq_true_iff.mp isOther
    rwa [Feature.unavailableMessage_injective (eq_of_beq isSame)]
  · refine any_eq_true.mpr ⟨feature, feature.mem_all, ?_⟩
    rw [isAllowed, beq_self_eq_true, Bool.true_and]

end Level

namespace Grammar.Log

variable {lower higher : Level} {low high : Log}

structure Lifted (higher : Level) (low high : Log) : Prop where
  found : high.found = low.found.filter fun diagnostic => !higher.lifts diagnostic
  reported : high.reported = low.reported

namespace Lifted

variable (lifted : Lifted higher low high)
include lifted

theorem knows_eq (isMissing : higher.allows feature = false) (offset : Nat) :
    high.knows offset feature.unavailableMessage = low.knows offset feature.unavailableMessage := by
  unfold knows
  rw [lifted.found, any_filter]
  refine congrArg low.found.any (funext fun diagnostic => ?_)
  cases isAsked : diagnostic.span.start.offset == offset &&
      diagnostic.message == feature.unavailableMessage with
  | false => rw [Bool.and_false]
  | true =>
    have isMessage := eq_of_beq (Bool.and_eq_true_iff.mp isAsked).2
    cases isLifted : higher.lifts diagnostic with
    | false => rfl
    | true =>
      rw [Level.lifts_of_message (Level.category_of_lifts isLifted) isMessage,
        isMissing] at isLifted
      cases isLifted

variable (config : Configuration) (isRecent : 14 ≤ lower.release)
  (atMost : lower.release ≤ higher.release)
include isRecent atMost

/-- Of a remark both logs make the same, which the higher level does not lift; or the log of the
higher level drops it, and it is lifted. -/
theorem outcome?_cases (remark : Remark) :
    (high.outcome? { config with level := higher } remark =
        low.outcome? { config with level := lower } remark ∧
      ∀ diagnostic ∈ low.outcome? { config with level := lower } remark,
        higher.lifts diagnostic = false) ∨
    (high.outcome? { config with level := higher } remark = none ∧
      ∀ diagnostic ∈ low.outcome? { config with level := lower } remark,
        higher.lifts diagnostic = true) := by
  have notLifted {diagnostic : Diagnostic} (isOther : diagnostic.category ≠ .featureNotAvailable) :
      higher.lifts diagnostic = false :=
    Bool.eq_false_iff.mpr fun isLifted => isOther (Level.category_of_lifts isLifted)
  cases remark with
  | violation problem span =>
    refine .inl ⟨?_, fun diagnostic isEntry => ?_⟩
    · have same : high.isClosed { config with level := higher } =
          low.isClosed { config with level := lower } := by
        unfold isClosed
        rw [lifted.reported]
      simp only [outcome?, same]
    · obtain ⟨-, isEntry⟩ := Option.ite_none_left_eq_some.mp isEntry
      cases isEntry
      exact notLifted (by simp [Diagnostic.error])
  | feature feature span =>
    cases isAllowed : higher.allows feature with
    | true =>
      refine .inr ⟨if_pos isAllowed, fun diagnostic isEntry => ?_⟩
      obtain ⟨-, isEntry⟩ := Option.ite_none_left_eq_some.mp isEntry
      obtain ⟨-, isEntry⟩ := Option.ite_none_left_eq_some.mp isEntry
      cases isEntry
      rw [Level.lifts_of_message rfl rfl, isAllowed]
    | false =>
      have isMissing : lower.allows feature = false :=
        Bool.eq_false_iff.mpr fun isEarlier => by
          rw [Level.allows_of_le atMost isEarlier] at isAllowed
          cases isAllowed
      refine .inl ⟨?_, fun diagnostic isEntry => ?_⟩
      · simp only [outcome?, Configuration.allows, isAllowed, isMissing, lifted.knows_eq isAllowed]
      · obtain ⟨-, isEntry⟩ := Option.ite_none_left_eq_some.mp isEntry
        obtain ⟨-, isEntry⟩ := Option.ite_none_left_eq_some.mp isEntry
        cases isEntry
        rw [Level.lifts_of_message rfl rfl, isAllowed]
  | methodReference colons =>
    have isSilent (level : Level) (log : Log) (atLeast : 14 ≤ level.release) :
        log.outcome? { config with level } (.methodReference colons) = none :=
      if_neg (Nat.not_lt.mpr (Nat.le_trans (by decide) atLeast))
    refine .inl ?_
    rw [isSilent higher high (Nat.le_trans isRecent atMost), isSilent lower low isRecent]
    exact ⟨rfl, fun _ isNone => absurd isNone (Option.not_mem_none _)⟩
  | reserved token =>
    have same : reservedWarning? token.lexeme higher = reservedWarning? token.lexeme lower := by
      have atLeast : 8 ≤ lower.release := Nat.le_trans (by decide) isRecent
      unfold reservedWarning?
      simp only [atLeast, Nat.le_trans atLeast atMost]
    refine .inl ⟨?_, fun diagnostic isEntry => ?_⟩
    · simp only [outcome?, same]
    · obtain ⟨message, -, rfl⟩ := Option.map_eq_some_iff.mp isEntry
      exact notLifted (by simp [Diagnostic.warning])
  | label problem span =>
    refine .inl ⟨rfl, fun diagnostic isEntry => ?_⟩
    cases isEntry
    have isOther : problem.category ≠ .featureNotAvailable := by cases problem <;> decide
    exact notLifted isOther

theorem record (remark : Remark) :
    Lifted higher (low.record { config with level := lower } remark)
      (high.record { config with level := higher } remark) := by
  unfold Log.record
  rcases lifted.outcome?_cases config isRecent atMost remark with
    ⟨same, isKept⟩ | ⟨isNone, isLifted⟩
  · rw [same]
    cases isEntry : low.outcome? { config with level := lower } remark with
    | none => exact lifted
    | some diagnostic =>
      refine ⟨?_, ?_⟩
      · show diagnostic :: high.found = (diagnostic :: low.found).filter _
        rw [filter_cons_of_pos (by rw [isKept diagnostic isEntry]; rfl), lifted.found]
      · show (if _ then _ :: high.reported else high.reported) =
          if _ then _ :: low.reported else low.reported
        rw [lifted.reported]
  · rw [isNone]
    cases isEntry : low.outcome? { config with level := lower } remark with
    | none => exact lifted
    | some diagnostic =>
      have isLifted := isLifted diagnostic isEntry
      refine ⟨?_, ?_⟩
      · show high.found = (diagnostic :: low.found).filter _
        rw [filter_cons_of_neg (by rw [isLifted]; exact nofun), lifted.found]
      · show high.reported = if _ then _ :: low.reported else low.reported
        rw [Level.category_of_lifts isLifted, if_neg nofun, lifted.reported]

theorem recordAll (remarks : List Remark) :
    Lifted higher (low.recordAll { config with level := lower } remarks)
      (high.recordAll { config with level := higher } remarks) := by
  induction remarks generalizing low high with
  | nil => exact lifted
  | cons remark rest ih =>
    exact ih (lifted.record config isRecent atMost remark)

end Lifted

end Grammar.Log

/-! ### Tokens -/

theorem TokenKind.atLevel_of_recent {level : Level} (isRecent : 14 ≤ level.release)
    (kind : TokenKind) : kind.atLevel level = kind := by
  have isAllowed {feature : Feature} (isOld : feature.since.release ≤ 14) :
      level.allows feature = true :=
    decide_eq_true (Nat.le_trans isOld isRecent)
  unfold atLevel
  split
  · rw [if_pos (isAllowed (by decide))]
  · rw [if_pos (isAllowed (by decide))]
  · rw [if_pos (isAllowed (by decide))]
  · rfl

theorem Token.cut_congr (same : ∀ kind : TokenKind, kind.atLevel lower = kind.atLevel higher)
    (location : Location) (before : Array Token) (characters : List Char) :
    cut lower location before characters = cut higher location before characters := by
  fun_induction cut lower location before characters with
  | case1 location before => rw [cut]
  | case2 location before first rest reading spelled stop token ih =>
    rw [ih, cut]
    simp only [token, reading, spelled, stop, same]

theorem Token.all_of_recent {lower higher : Level} (isRecent : 14 ≤ lower.release)
    (atMost : lower.release ≤ higher.release) (source : String) :
    all higher source = all lower source := by
  unfold all
  rw [cut_congr fun kind => ?_]
  rw [TokenKind.atLevel_of_recent (Nat.le_trans isRecent atMost),
    TokenKind.atLevel_of_recent isRecent]

theorem Token.lifts_of_mem_problems (higher : Level)
    (isProblem : diagnostic ∈ problems level source) : higher.lifts diagnostic = false := by
  obtain ⟨token, -, isProblem⟩ := mem_filterMap.mp isProblem
  have isOther : diagnostic.category = .unterminatedLiteral := by
    unfold problem? at isProblem
    dsimp only at isProblem
    split at isProblem
    iterate 4
      obtain ⟨-, isProblem⟩ := Option.ite_none_left_eq_some.mp isProblem
      cases isProblem
      rfl
    cases isProblem
  refine Bool.eq_false_iff.mpr fun isLifted => ?_
  rw [Level.category_of_lifts isLifted] at isOther
  cases isOther

namespace CompilationUnit

open Grammar

/-- From the level of switch expressions on, a higher level lifts errors and does nothing else: the
tree is the same, and of what is found at the lower level exactly the errors about features that the
higher level has are missing. -/
theorem parse_lifts (configuration : Configuration) (source : String) {lower higher : Level}
    (isRecent : 14 ≤ lower.release) (atMost : lower.release ≤ higher.release) :
    (parse { configuration with level := higher } source).1 =
      (parse { configuration with level := lower } source).1 ∧
    (parse { configuration with level := higher } source).2 =
      (parse { configuration with level := lower } source).2.filter fun diagnostic =>
        !higher.lifts diagnostic := by
  have isAllowed {level : Level} (atLeast : 14 ≤ level.release) :
      level.allows .switchExpressions = true :=
    decide_eq_true atLeast
  have sameTokens : Token.significant higher source = Token.significant lower source := by
    unfold Token.significant
    rw [Token.all_of_recent isRecent atMost]
  have sameProblems : Token.problems higher source = Token.problems lower source := by
    unfold Token.problems
    rw [Token.all_of_recent isRecent atMost]
  obtain ⟨sameTree, remarks, isLower, isHigher⟩ :=
    @ofTokens_agree { configuration with level := lower } { configuration with level := higher }
      ((isAllowed isRecent).trans (isAllowed (Nat.le_trans isRecent atMost)).symm)
      (Token.significant lower source)
  have kept : (Token.problems lower source).filter (fun diagnostic => !higher.lifts diagnostic) =
      Token.problems lower source :=
    filter_eq_self.mpr fun diagnostic isProblem =>
      congrArg not (Token.lifts_of_mem_problems higher isProblem)
  have empty : Log.Lifted higher {} {} := ⟨rfl, rfl⟩
  have lifted := empty.recordAll configuration isRecent atMost remarks
  show (ofTokens _ (Token.significant higher source)).1 = _ ∧
    Token.problems higher source ++ (ofTokens _ (Token.significant higher source)).2 =
      (Token.problems lower source ++ (ofTokens _ (Token.significant lower source)).2).filter _
  rw [sameTokens, sameProblems, isLower, isHigher, filter_append, kept, filter_reverse,
    ← lifted.found]
  exact ⟨sameTree.symm, rfl⟩

def beforeRecords : Level := Feature.textBlocks.since

def withRecords : Level := Feature.records.since

/-- The one error about a record without components is lifted by the level that brings records. -/
theorem parse_lifts_record :
    14 ≤ beforeRecords.release ∧ beforeRecords.release ≤ withRecords.release ∧
      (parse { level := beforeRecords } "record A()\x7b\x7d").2.map Diagnostic.message =
        [Feature.records.unavailableMessage] ∧
      (parse { level := withRecords } "record A()\x7b\x7d").2 =
        (parse { level := beforeRecords } "record A()\x7b\x7d").2.filter fun diagnostic =>
          !withRecords.lifts diagnostic := by
  have isRecent : 14 ≤ beforeRecords.release := by decide
  have atMost : beforeRecords.release ≤ withRecords.release := by decide
  refine ⟨isRecent, atMost, ?_, (parse_lifts {} _ isRecent atMost).2⟩
  decide +kernel

end CompilationUnit

end JavaFrontEnd
