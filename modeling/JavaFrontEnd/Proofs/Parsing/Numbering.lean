/-
Numbers of expressions. A parser draws its numbers one after the other, so those in what it yields
were at hand before or lie between the next number before and the next number afterwards, each at
most once. In the tree of a unit no number occurs twice (`CompilationUnit.nodup_ids`).
-/

import JavaFrontEnd.Proofs.Parsing.AdmittedUnits
import Mathlib.Data.List.Intervals

namespace JavaFrontEnd

open List

namespace Grammar

variable {α β : Type} {held passed : List Nat} {numbers : α → List Nat} {more : β → List Nat}
  {parser : Parser α} {next : α → Parser β}

/-- The numbers of what a run yields, if it yields anything, were at hand or drawn in it. -/
structure Accounts (held : List Nat) (numbers : α → List Nat) (before : State)
    (run : Option α × State) : Prop where
  grows : before.nextId ≤ run.2.nextId
  drawn : ∀ value, run.1 = some value →
    numbers value <+~ held ++ Ico before.nextId run.2.nextId

def Numbers (held : List Nat) (numbers : α → List Nat) (parser : Parser α) : Prop :=
  ∀ env state, Accounts held numbers state (parser env state)

namespace Accounts

variable {before between : State} {run : Option α × State} {further : Option β × State}

theorem fail (grows : before.nextId ≤ between.nextId) :
    Accounts held numbers before (none, between) :=
  ⟨grows, nofun⟩

theorem unchanged {value : α} (isNext : between.nextId = before.nextId)
    (within : numbers value <+~ held) :
    Accounts held numbers before (some value, between) := by
  refine ⟨isNext.ge, fun _ isValue => ?_⟩
  cases isValue
  exact within.trans (sublist_append_left _ _).subperm

theorem congr {start final : State} (isFirst : before.nextId = start.nextId)
    (isLast : final.nextId = run.2.nextId) (accounts : Accounts held numbers before run) :
    Accounts held numbers start (run.1, final) := by
  refine ⟨?_, fun value isValue => ?_⟩
  · rw [← isFirst, isLast]
    exact accounts.grows
  · rw [← isFirst, isLast]
    exact accounts.drawn value isValue

theorem draws (state : State) : Accounts [] (fun id => [id]) state
    (some state.nextId, { state with nextId := state.nextId + 1 }) := by
  refine ⟨Nat.le_succ _, fun _ isId => ?_⟩
  cases isId
  rw [Ico.succ_singleton, nil_append]

theorem weaken (within : held <+~ passed) (accounts : Accounts held numbers before run) :
    Accounts passed numbers before run :=
  ⟨accounts.grows, fun value isValue => (accounts.drawn value isValue).trans
    ((subperm_append_right _).mpr within)⟩

theorem andThen {value : α} (first : Accounts passed numbers before (some value, between))
    (second : Accounts (held ++ numbers value) more between further) :
    Accounts (held ++ passed) more before further := by
  refine ⟨first.grows.trans second.grows, fun result isResult => ?_⟩
  refine (second.drawn result isResult).trans ?_
  rw [← Ico.append_consecutive first.grows second.grows, append_assoc, append_assoc,
    ← append_assoc passed, subperm_append_left, subperm_append_right]
  exact first.drawn value rfl

end Accounts

open Accounts

def numbering : Discipline where
  Admits := Numbers
  weaken within numbered env state := (numbered env state).weaken within
  pure within _ _ := unchanged rfl within
  bind {_ _ _ _ _ _ parser _} first second env state := by
    have accounts := first env state
    show Accounts _ _ _ (Parser.bind _ _ env state)
    unfold Parser.bind
    generalize parser env state = run at accounts ⊢
    rcases run with ⟨_ | value, between⟩
    · exact fail accounts.grows
    · exact accounts.andThen (second value env between)
  fail _ _ := fail le_rfl
  attempt {_ _ _ parser} first env state := by
    have accounts := first env state
    unfold Parser.attempt
    generalize parser env state = run at accounts ⊢
    rcases run with ⟨_ | value, between⟩
    · exact ⟨accounts.grows, fun _ isValue => Option.some.inj isValue ▸ nil_subperm⟩
    · refine ⟨accounts.grows, fun _ isValue => Option.some.inj isValue ▸ ?_⟩
      exact accounts.drawn value rfl
  inspect _ second env state := second state env state
  change silent _ state := unchanged (silent.nextId state) nil_subperm
  framed enters leaves _ first env state :=
    (first env _).congr (enters.nextId state) ((leaves state).nextId _)
  tell _ _ _ := unchanged rfl nil_subperm
  freshId {_ held _ _} second env state := by
    have both := (draws state).andThen (second state.nextId env _)
    rwa [append_nil] at both
  byLevel _ second env state := second env.configuration env state
  byBound second env state := second env.bound env state

end Grammar

namespace CompilationUnit

open Grammar

theorem nodup_numbers_ofTokens (config : Configuration) (tokens : List Token) :
    (Gather.ofUnit Expression.ids (ofTokens config tokens).1).Nodup := by
  have accounts : Accounts [] _ _ (runOver config tokens) :=
    unitParts_admitted numbering _ _
  rw [ofTokens_eq_result]
  generalize runOver config tokens = run at accounts ⊢
  rcases run with ⟨_ | ⟨package, imports, types, span⟩, final⟩
  · exact nodup_nil
  · obtain ⟨drawn, isDrawn, within⟩ := accounts.drawn _ rfl
    exact isDrawn.nodup_iff.mp ((Ico.nodup _ _).sublist within)

/-- Any two expressions of a unit that can denote something, the arguments of annotations apart,
have different numbers. -/
theorem nodup_ids (configuration : Configuration) (tokens : List Token) :
    ((ofTokens configuration tokens).1.expressions.filterMap Expression.id?).Nodup := by
  rw [filterMap_eq_flatMap_toList]
  exact Gather.ofUnit_ids (ofTokens configuration tokens).1 ▸
    nodup_numbers_ofTokens configuration tokens

end CompilationUnit

end JavaFrontEnd
