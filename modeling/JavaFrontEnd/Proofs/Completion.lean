/-
What the answer about completion is worth. A statement that is said not to come to its end never
does, with one exception: a `do` loop whose body always jumps back to the test by `continue` is said
not to end, though its condition is tested and may fail.
-/

import JavaFrontEnd.Completion

namespace JavaFrontEnd

/-! How statements run, as far as the flow of control goes. A run of a statement has an ending: it
comes to the end of the statement, or it leaves the statement by a jump or an exception. Which
branch is taken, how often a loop runs, which case of a switch is entered and which exceptions are
caught is left open; only a condition whose value is a constant and holds is known to hold. The
labels in front of a statement belong to its run, because a `continue` may name any of those in
front of a loop. -/

inductive Ending where
  | normal
  | break (label : Option String)
  | continue (label : Option String)
  | return
  | yield
  | throw
  deriving DecidableEq, Repr

namespace Ending

/-- After this ending of its body, a loop with labels goes on to its next round. -/
def goesOn (labels : List String) : Ending → Bool
  | .normal | .continue none => true
  | .continue (some label) => labels.contains label
  | _ => false

def ofEnclosing : Ending → Ending
  | .break none => .normal
  | other => other

def ofLabeled (label : String) : Ending → Ending
  | .break (some target) => if target = label then .normal else .break (some target)
  | other => other

end Ending

inductive Code where
  | statement (labels : List String) (statement : Statement)
  | sequence (statements : List Statement)
  /-- A loop with labels that is about to test its condition; `endless` tells that the condition
  always holds. -/
  | loop (endless : Bool) (labels : List String) (body : Statement)
  | cases (cases : List SwitchCase)
  | guarded (body : Block) (catches : List CatchClause)

inductive Runs : Code → Ending → Prop where
  /-- Any statement may end with an exception. -/
  | raises : Runs (.statement labels statement) .throw
  | expression : Runs (.statement labels (.expression value span)) .normal
  | locals : Runs (.statement labels (.locals header declarations span)) .normal
  | typeDeclaration : Runs (.statement labels (.typeDeclaration declaration)) .normal
  | assert : Runs (.statement labels (.assert condition message span)) .normal
  | empty : Runs (.statement labels (.empty span)) .normal
  | return : Runs (.statement labels (.return value span)) .return
  | break : Runs (.statement labels (.break target span)) (.break target)
  | continue : Runs (.statement labels (.continue target span)) (.continue target)
  | yield : Runs (.statement labels (.yield value span)) .yield
  | yes (branch : Runs (.statement [] yes) ending) :
      Runs (.statement labels (.conditional condition yes no span)) ending
  | no (undecided : Expression.isAlwaysTrue condition = false)
      (branch : Runs (.statement [] no) ending) :
      Runs (.statement labels (.conditional condition yes (some no) span)) ending
  | noElse (undecided : Expression.isAlwaysTrue condition = false) :
      Runs (.statement labels (.conditional condition yes none span)) .normal
  | while (rounds : Runs (.loop (Expression.isAlwaysTrue condition) labels body) ending) :
      Runs (.statement labels (.while condition body span)) ending
  /-- The first round of a `do` loop does not test the condition. -/
  | doWhile (round : Runs (.statement [] body) first) (goesOn : first.goesOn labels = true)
      (rounds : Runs (.loop (Expression.isAlwaysTrue condition) labels body) ending) :
      Runs (.statement labels (.doWhile body condition span)) ending
  | doWhileLeft (round : Runs (.statement [] body) ending)
      (left : ending.goesOn labels = false) :
      Runs (.statement labels (.doWhile body condition span)) ending.ofEnclosing
  /-- A `for` loop without a condition is endless. Its initial part, a declaration or expressions,
  cannot jump. -/
  | for {condition : Option Expression} (begins : Runs (.sequence initial) .normal)
      (rounds : Runs (.loop ((condition.map Expression.isAlwaysTrue).getD true) labels body)
        ending) :
      Runs (.statement labels (.for initial condition update body span)) ending
  | forEach (rounds : Runs (.loop false labels body) ending) :
      Runs (.statement labels (.forEach bound iterable body span)) ending
  /-- A switch without a default and without patterns may enter no case. -/
  | switchSkipped (noDefault : SwitchCase.anyDefault cases = false)
      (noPattern : SwitchCase.anyPattern cases = false) :
      Runs (.statement labels (.switch selector cases keywordSpan span)) .normal
  | switchEntered (entered : Runs (.cases (case :: after)) ending) :
      Runs (.statement labels (.switch selector (before ++ case :: after) keywordSpan span))
        ending.ofEnclosing
  | try (guarded : Runs (.guarded body catches) ending) :
      Runs (.statement labels (.try resources body catches none span)) ending
  | tryFinally {last : Block} (guarded : Runs (.guarded body catches) ending)
      (finishes : Runs (.sequence last.statements) .normal) :
      Runs (.statement labels (.try resources body catches (some last) span)) ending
  /-- A `finally` block that does not come to its end decides the ending. -/
  | tryOverruled {last : Block} (guarded : Runs (.guarded body catches) before)
      (overrules : Runs (.sequence last.statements) ending) (abrupt : ending ≠ .normal) :
      Runs (.statement labels (.try resources body catches (some last) span)) ending
  | synchronized {body : Block} (inside : Runs (.sequence body.statements) ending) :
      Runs (.statement labels (.synchronized lock body span)) ending
  | labeled (inside : Runs (.statement (label :: labels) body) ending) :
      Runs (.statement labels (.labeled label body span)) (ending.ofLabeled label)
  | block {body : Block} (inside : Runs (.sequence body.statements) ending) :
      Runs (.statement labels (.block body)) ending
  | nil : Runs (.sequence []) .normal
  | cons (first : Runs (.statement [] statement) .normal) (others : Runs (.sequence rest) ending) :
      Runs (.sequence (statement :: rest)) ending
  | stops (first : Runs (.statement [] statement) ending) (abrupt : ending ≠ .normal) :
      Runs (.sequence (statement :: rest)) ending
  | loopEnds : Runs (.loop false labels body) .normal
  | loopGoesOn (round : Runs (.statement [] body) first) (goesOn : first.goesOn labels = true)
      (rounds : Runs (.loop endless labels body) ending) : Runs (.loop endless labels body) ending
  | loopLeft (round : Runs (.statement [] body) ending) (left : ending.goesOn labels = false) :
      Runs (.loop endless labels body) ending.ofEnclosing
  | casesEnd : Runs (.cases []) .normal
  /-- A group that comes to its end falls through to the next case. -/
  | groupFalls (group : Runs (.sequence statements) .normal) (others : Runs (.cases rest) ending) :
      Runs (.cases (.group labels statements span :: rest)) ending
  | groupStops (group : Runs (.sequence statements) ending) (abrupt : ending ≠ .normal) :
      Runs (.cases (.group labels statements span :: rest)) ending
  | valueRule : Runs (.cases (.valueRule label value span :: rest)) .normal
  | blockRule {block : Block} (inside : Runs (.sequence block.statements) ending) :
      Runs (.cases (.blockRule label block span :: rest)) ending
  | throwRule : Runs (.cases (.throwRule label value throwSpan span :: rest)) .throw
  | unguarded {body : Block} (inside : Runs (.sequence body.statements) ending) :
      Runs (.guarded body catches) ending
  /-- The resources of a `try` statement may raise an exception before its block begins. -/
  | guardedRaises : Runs (.guarded body catches) .throw
  | caught {clause : CatchClause} (member : clause ∈ catches)
      (handled : Runs (.sequence clause.block.statements) ending) :
      Runs (.guarded body catches) ending

variable {ending : Ending} {target : Option String} {label : String} {labels : List String}
  {statement : Statement} {innerLabels : List String} {inner : Statement}
  (before after rest : List SwitchCase) (span : Span) (test : Option String → Nat → Bool)

/-! ### Jumps out of a piece of code -/

open List

def Code.anyBreak (depth : Nat) : Code → Bool
  | .statement _ single => single.anyBreak test depth
  | .sequence statements => anyBreakOfAll test depth statements
  | .loop _ _ body => body.anyBreak test (depth + 1)
  | .cases listed => anyBreakOfCases test depth listed
  | .guarded body catches => body.anyBreak test depth || anyBreakOfCatches test depth catches

theorem Block.anyBreak_eq (depth : Nat) (block : Block) :
    block.anyBreak test depth = anyBreakOfAll test depth block.statements := by
  cases block
  rw [Block.anyBreak]

theorem anyBreakOfCases_append_right (depth : Nat) (hit : anyBreakOfCases test depth after = true) :
    anyBreakOfCases test depth (before ++ after) = true := by
  induction before with
  | nil => exact hit
  | cons case rest ih =>
    rw [cons_append, anyBreakOfCases, ih, Bool.or_true]

theorem anyBreakOfCatches_of_mem (depth : Nat)
    (catches : List CatchClause) (clause : CatchClause) (member : clause ∈ catches)
    (hit : anyBreakOfAll test depth clause.block.statements = true) :
    anyBreakOfCatches test depth catches = true := by
  induction catches with
  | nil => cases member
  | cons head rest ih =>
    rw [anyBreakOfCatches, Bool.or_eq_true]
    rcases mem_cons.mp member with rfl | tail
    · cases clause
      exact Or.inl (by rw [CatchClause.anyBreak, Block.anyBreak_eq, hit])
    · exact Or.inr (ih tail)

theorem Ending.eq_break_of_ofEnclosing (jumps : ending.ofEnclosing = .break target) :
    ending = .break target ∧ target ≠ none := by
  match ending, jumps with
  | .break (some label), jumps =>
    obtain rfl : some label = target := Ending.break.inj jumps
    exact ⟨rfl, Option.some_ne_none _⟩

theorem Ending.eq_break_of_ofLabeled (jumps : ending.ofLabeled label = .break target) :
    ending = .break target := by
  match ending, jumps with
  | .break none, jumps => exact jumps
  | .break (some named), jumps =>
    by_cases same : named = label
    · rw [Ending.ofLabeled, if_pos same] at jumps
      cases jumps
    · rw [Ending.ofLabeled, if_neg same] at jumps
      exact jumps

theorem Runs.anyBreak (run : Runs code ending) (target : Option String)
    (jumps : ending = .break target) (test : Option String → Nat → Bool) (depth : Nat)
    (hits : ∀ deeper, depth ≤ deeper → (target = none → deeper = depth) →
      test target deeper = true) : code.anyBreak test depth = true := by
  induction run generalizing target depth with
  | raises | expression | locals | typeDeclaration | assert | empty | «return» | «continue» | yield
  | noElse | switchSkipped | nil | loopEnds | casesEnd | valueRule | throwRule
  | guardedRaises => cases jumps
  | «break» =>
    obtain rfl := Ending.break.inj jumps
    exact hits depth (Nat.le_refl depth) fun _ => rfl
  -- Where the run goes on inside the code, a `break` that it comes upon there is one of the code.
  | yes _ ih | no _ _ ih | «while» _ ih | doWhile _ _ _ _ ih | «for» _ _ _ ih | forEach _ ih
  | «try» _ ih | tryFinally _ _ ih | tryOverruled _ _ _ _ ih | synchronized _ ih | block _ ih
  | cons _ _ _ ih | stops _ _ ih | loopGoesOn _ _ _ _ ih | groupFalls _ _ _ ih
  | groupStops _ _ ih | blockRule _ ih | unguarded _ ih =>
    have inside := ih target jumps depth hits
    simp only [Code.anyBreak, Statement.anyBreak, SwitchCase.anyBreak, anyBreakOfAll,
      anyBreakOfCases, anyBreakOfOption, anyBreakOfBlockOption, Block.anyBreak_eq] at inside ⊢
    simp [inside]
  | labeled _ ih =>
    exact ih target (Ending.eq_break_of_ofLabeled jumps) depth hits
  | doWhileLeft _ _ ih | loopLeft _ _ ih =>
    obtain ⟨jumps, labeled⟩ := Ending.eq_break_of_ofEnclosing jumps
    exact ih target jumps (depth + 1) fun deeper above _ =>
      hits deeper (Nat.le_of_succ_le above) fun none => absurd none labeled
  | switchEntered _ ih =>
    obtain ⟨jumps, labeled⟩ := Ending.eq_break_of_ofEnclosing jumps
    refine anyBreakOfCases_append_right _ _ _ _ (ih target jumps (depth + 1) ?_)
    exact fun deeper above _ =>
      hits deeper (Nat.le_of_succ_le above) fun none => absurd none labeled
  | caught member _ ih =>
    have inside := ih target jumps depth hits
    rw [Code.anyBreak, anyBreakOfCatches_of_mem _ _ _ _ member inside, Bool.or_true]

theorem Runs.hasExitingBreak (run : Runs (.statement labels body) (.break none)) :
    body.hasExitingBreak = true := by
  refine run.anyBreak none rfl _ 0 fun deeper _ same => ?_
  rw [same rfl]
  rfl

theorem Runs.breaksTo (run : Runs (.statement labels statement) (.break (some label))) :
    statement.breaksTo label = true :=
  run.anyBreak (some label) rfl _ 0 fun _ _ _ => beq_self_eq_true _

theorem Runs.exists_of_sequence (run : Runs (.sequence statements) ending)
    (abrupt : ending ≠ .normal) :
    ∃ statement ∈ statements, Runs (.statement [] statement) ending := by
  induction statements with
  | nil =>
    cases run
    exact absurd rfl abrupt
  | cons statement rest ih =>
    cases run with
    | cons _ others =>
      obtain ⟨inner, member, run⟩ := ih others
      exact ⟨inner, mem_cons_of_mem _ member, run⟩
    | stops first _ => exact ⟨statement, mem_cons_self, first⟩

theorem Runs.any_hasExitingBreak (run : Runs (.cases cases) (.break none)) :
    cases.any SwitchCase.hasExitingBreak = true := by
  have exits : ∀ {case : SwitchCase} {statements : List Statement},
      case.statements = statements → Runs (.sequence statements) (.break none) →
      case.hasExitingBreak = true := by
    rintro case _ rfl inside
    obtain ⟨statement, member, left⟩ := inside.exists_of_sequence (by simp)
    exact any_eq_true.mpr ⟨statement, member, left.hasExitingBreak⟩
  induction cases with
  | nil => cases run
  | cons case rest ih =>
    rw [any_cons, Bool.or_eq_true]
    cases run with
    | groupFalls _ others => exact Or.inr (ih others)
    | groupStops group => exact Or.inl (exits rfl group)
    | blockRule inside => exact Or.inl (exits rfl inside)

/-! ### Where a loop passes over its `continue` -/

/-- A statement stands inside another, or is the other. The labels in front of it are listed. -/
inductive Occurs (outerLabels : List String) (outer : Statement) :
    List String → Statement → Prop where
  | self : Occurs outerLabels outer outerLabels outer
  | behindLabel {labels : List String} {label : String} {body : Statement} {span : Span}
      (around : Occurs outerLabels outer labels (.labeled label body span)) :
      Occurs outerLabels outer (label :: labels) body
  | child {labels : List String} {statement inner : Statement}
      (around : Occurs outerLabels outer labels statement) (member : inner ∈ statement.children) :
      Occurs outerLabels outer [] inner

/-- The test of a `do` loop is reached by a `continue` in its body though the body cannot come to
its end, and the loop can end no other way. -/
def PassesOverContinue (labels : List String) (body : Statement) (condition : Expression) : Prop :=
  body.canComplete = false ∧ body.hasExitingBreak = false ∧ condition.isAlwaysTrue = false ∧
    ∃ target, Runs (.statement [] body) (.continue target) ∧
      (Ending.continue target).goesOn labels = true

def SeesContinues (labels : List String) (statement : Statement) : Prop :=
  ∀ inner body condition span, Occurs labels statement inner (.doWhile body condition span) →
    ¬ PassesOverContinue inner body condition

/-- The answer about the completion of a statement is right, if it is that it cannot complete. -/
def CompletionRight (labels : List String) (statement : Statement) : Prop :=
  statement.canComplete = false → ¬ Runs (.statement labels statement) .normal

theorem Occurs.trans (around : Occurs outerLabels outer labels statement)
    (inside : Occurs labels statement innerLabels inner) :
    Occurs outerLabels outer innerLabels inner := by
  induction inside with
  | self => exact around
  | behindLabel _ ih => exact .behindLabel ih
  | child _ member ih => exact .child ih member

theorem SeesContinues.inside (sees : SeesContinues labels statement)
    (occurs : Occurs labels statement innerLabels inner) : SeesContinues innerLabels inner :=
  fun loopLabels body condition span loop => sees loopLabels body condition span (occurs.trans loop)

theorem SeesContinues.child (sees : SeesContinues labels statement)
    (member : inner ∈ statement.children) : SeesContinues [] inner :=
  sees.inside (.child .self member)

/-! ### Completion -/

theorem Block.canComplete_eq (block : Block) :
    block.canComplete = allComplete block.statements := by
  cases block
  rw [Block.canComplete]

theorem anyCatchCompletes_of_mem (catches : List CatchClause) (clause : CatchClause)
    (member : clause ∈ catches) (completes : allComplete clause.block.statements = true) :
    anyCatchCompletes catches = true := by
  induction catches with
  | nil => cases member
  | cons head rest ih =>
    rw [anyCatchCompletes, Bool.or_eq_true]
    rcases mem_cons.mp member with rfl | tail
    · cases clause
      exact Or.inl (by rw [CatchClause.canComplete, Block.canComplete_eq, completes])
    · exact Or.inr (ih tail)

theorem anyCaseCompletes_append_right (completes : anyCaseCompletes after = true) :
    anyCaseCompletes (before ++ after) = true := by
  induction before with
  | nil => exact completes
  | cons case rest ih =>
    rw [cons_append, anyCaseCompletes, ih, Bool.or_true]

theorem lastGroupCompletes_append (case : SwitchCase) :
    lastGroupCompletes (before ++ case :: after) = lastGroupCompletes (case :: after) := by
  induction before with
  | nil => rfl
  | cons head rest ih =>
    rw [cons_append, lastGroupCompletes, ih]
    exact fun empty => by simp at empty

def Code.CanComplete : Code → Prop
  | .statement _ single => single.canComplete = true
  | .sequence statements => allComplete statements = true
  | .loop endless _ body => endless = false ∨ body.hasExitingBreak = true
  | .cases listed => (listed ≠ [] → anyCaseCompletes listed = true) ∧
      (listed.any SwitchCase.isRule = false → lastGroupCompletes listed = true)
  | .guarded body catches => (body.canComplete || anyCatchCompletes catches) = true

def Code.SeesContinues : Code → Prop
  | .statement labels single => JavaFrontEnd.SeesContinues labels single
  | .sequence statements => ∀ inner ∈ statements, JavaFrontEnd.SeesContinues [] inner
  | .loop _ _ body => JavaFrontEnd.SeesContinues [] body
  | .cases listed =>
    ∀ inner ∈ listed.flatMap SwitchCase.statements, JavaFrontEnd.SeesContinues [] inner
  | .guarded body catches =>
    ∀ inner ∈ body.statements ++ catches.flatMap (fun clause => clause.block.statements),
      JavaFrontEnd.SeesContinues [] inner

theorem Ending.eq_or_of_ofEnclosing (ends : ending.ofEnclosing = .normal) :
    ending = .normal ∨ ending = .break none := by
  match ending, ends with
  | .normal, _ => exact Or.inl rfl
  | .break none, _ => exact Or.inr rfl

theorem Ending.eq_of_left (ends : ending.ofEnclosing = .normal)
    (left : ending.goesOn labels = false) : ending = .break none := by
  rcases Ending.eq_or_of_ofEnclosing ends with rfl | rfl
  · cases left
  · rfl

theorem Ending.eq_or_of_ofLabeled (ends : ending.ofLabeled label = .normal) :
    ending = .normal ∨ ending = .break (some label) := by
  match ending, ends with
  | .normal, _ => exact Or.inl rfl
  | .break (some target), ends =>
    by_cases same : target = label
    · rw [same]
      exact Or.inr rfl
    · rw [Ending.ofLabeled, if_neg same] at ends
      cases ends

theorem Ending.eq_or_of_goesOn (goesOn : ending.goesOn labels = true) :
    ending = .normal ∨ ∃ target, ending = .continue target := by
  match ending, goesOn with
  | .normal, _ => exact Or.inl rfl
  | .continue target, _ => exact Or.inr ⟨target, rfl⟩

theorem anyCaseCompletes_cons {case : SwitchCase} (completes : case.canComplete = true) :
    anyCaseCompletes (case :: rest) = true := by
  rw [anyCaseCompletes, completes, Bool.true_or]

theorem Code.canComplete_cases_of_rule {case : SwitchCase} (rule : case.isRule = true)
    (completes : case.canComplete = true) : Code.CanComplete (.cases (case :: rest)) := by
  refine ⟨fun _ => anyCaseCompletes_cons rest completes, fun noRule => ?_⟩
  rw [any_cons, rule, Bool.true_or] at noRule
  cases noRule

theorem canComplete_switch_of_cases (selector : Expression) (before after : List SwitchCase)
    (case : SwitchCase) (keywordSpan span : Span)
    (completes : Code.CanComplete (.cases (case :: after))) :
    Statement.canComplete (.switch selector (before ++ case :: after) keywordSpan span) = true := by
  obtain ⟨some, last⟩ := completes
  rw [Statement.canComplete, Bool.or_eq_true]
  refine Or.inr ?_
  cases rules : (before ++ case :: after).any SwitchCase.isRule with
  | true =>
    exact anyCaseCompletes_append_right before _ (some (cons_ne_nil _ _))
  | false =>
    rw [if_neg Bool.false_ne_true, lastGroupCompletes_append]
    rw [any_append, Bool.or_eq_false_iff] at rules
    exact last rules.2

/-- A run that comes to the end of a piece of code, in which no loop passes over a `continue`, was
said to be possible. -/
theorem Runs.canComplete (run : Runs code ending) (normal : ending = .normal)
    (sees : code.SeesContinues) : code.CanComplete := by
  induction run with
  | raises | «return» | «break» | «continue» | yield | throwRule | guardedRaises => cases normal
  | expression | locals | typeDeclaration | assert | empty | noElse | forEach | nil => rfl
  | @yes yes _ _ _ no _ _ ih =>
    have inside : yes.canComplete = true :=
      ih normal (sees.child mem_cons_self)
    cases no with
    | none => rfl
    | some no => rw [Code.CanComplete, Statement.canComplete, inside, Bool.true_or]
  | @no _ no _ _ _ _ _ _ ih =>
    have inside : no.canComplete = true :=
      ih normal (sees.child (by simp [Statement.children]))
    rw [Code.CanComplete, Statement.canComplete, inside, Bool.or_true]
  | «while» _ ih | «for» _ _ _ ih =>
    have inside := ih normal (sees.child (by simp [Statement.children]))
    rw [Code.CanComplete, Statement.canComplete]
    rcases inside with inside | inside <;> simp [inside]
  | @doWhile body _ labels condition _ span round goesOn _ bodyHypothesis ih =>
    have seesBody : SeesContinues [] body := sees.child mem_cons_self
    have inside : condition.isAlwaysTrue = false ∨ body.hasExitingBreak = true :=
      ih normal seesBody
    rw [Code.CanComplete, Statement.canComplete, Bool.or_eq_true]
    cases exits : body.hasExitingBreak with
    | true => exact Or.inr rfl
    | false =>
      have undecided := inside.resolve_right (by rw [exits]; exact Bool.false_ne_true)
      rw [undecided, Bool.not_false, Bool.and_true]
      cases completes : body.canComplete with
      | true => exact Or.inl rfl
      | false =>
        -- Only a `continue` is left to bring the run to the test of the condition.
        rcases Ending.eq_or_of_goesOn goesOn with rfl | ⟨target, rfl⟩
        · exact absurd (bodyHypothesis rfl seesBody) (by rw [Code.CanComplete, completes]; simp)
        · exact absurd ⟨completes, exits, undecided, target, round, goesOn⟩
            (sees labels body condition span .self)
  | doWhileLeft round left =>
    obtain rfl := Ending.eq_of_left normal left
    rw [Code.CanComplete, Statement.canComplete, round.hasExitingBreak, Bool.or_true]
  | switchSkipped noDefault noPattern =>
    rw [Code.CanComplete, Statement.canComplete, noDefault, noPattern]
    rfl
  | switchEntered entered ih =>
    rw [Code.CanComplete]
    rcases Ending.eq_or_of_ofEnclosing normal with rfl | rfl
    · refine canComplete_switch_of_cases _ _ _ _ _ _
        (ih rfl fun inner member => sees.child ?_)
      rw [Statement.children, flatMap_append]
      exact mem_append_right _ member
    · rw [Statement.canComplete, any_append, entered.any_hasExitingBreak]
      simp
  | «try» _ ih =>
    exact ih normal fun inner member => sees.child (by
      exact mem_append_left _ member)
  | @tryFinally body catches _ _ _ _ last _ _ ih lastHypothesis =>
    have inside : (body.canComplete || anyCatchCompletes catches) = true :=
      ih normal fun inner member => sees.child (by
        exact mem_append_left _ member)
    have finished : allComplete last.statements = true :=
      lastHypothesis rfl fun inner member => sees.child (by
        exact mem_append_right _ (by simpa using member))
    rw [Code.CanComplete, Statement.canComplete, Block.canComplete_eq last, finished, inside]
    rfl
  | tryOverruled _ _ abrupt => exact absurd normal abrupt
  | labeled inside ih =>
    rw [Code.CanComplete, Statement.canComplete, Bool.or_eq_true]
    rcases Ending.eq_or_of_ofLabeled normal with rfl | rfl
    · exact Or.inl (ih rfl (sees.inside (.behindLabel .self)))
    · exact Or.inr inside.breaksTo
  | synchronized _ ih | block _ ih =>
    rw [Code.CanComplete, Statement.canComplete, Block.canComplete_eq]
    exact ih normal fun inner member => sees.child member
  | @cons statement rest _ _ _ firstHypothesis ih =>
    have completes : statement.canComplete = true := firstHypothesis rfl (sees _ mem_cons_self)
    have inside : allComplete rest = true :=
      ih normal fun inner member => sees inner (mem_cons_of_mem _ member)
    rw [Code.CanComplete, allComplete, completes, inside]
    rfl
  | stops _ abrupt => exact absurd normal abrupt
  | loopEnds => exact Or.inl rfl
  | loopGoesOn _ _ _ _ ih =>
    exact ih normal sees
  | loopLeft round left =>
    obtain rfl := Ending.eq_of_left normal left
    exact Or.inr round.hasExitingBreak
  | casesEnd => exact ⟨fun empty => absurd rfl empty, fun _ => rfl⟩
  | @groupFalls statements rest _ _ _ _ _ groupHypothesis ih =>
    have completes : allComplete statements = true :=
      groupHypothesis rfl fun inner member => sees inner (mem_append_left _ member)
    obtain ⟨-, last⟩ := ih normal fun inner member => sees inner (mem_append_right _ member)
    refine ⟨fun _ => anyCaseCompletes_cons rest completes, fun noRule => ?_⟩
    cases rest with
    | nil => exact completes
    | cons next others => exact last noRule
  | groupStops _ abrupt => exact absurd normal abrupt
  | valueRule => exact Code.canComplete_cases_of_rule _ rfl rfl
  | @blockRule _ _ _ _ block _ ih =>
    have completes : allComplete block.statements = true :=
      ih normal fun inner member => sees inner (mem_append_left _ member)
    refine Code.canComplete_cases_of_rule _ rfl ?_
    rw [SwitchCase.canComplete, Block.canComplete_eq, completes]
  | @unguarded _ _ body _ ih =>
    have completes : allComplete body.statements = true :=
      ih normal fun inner member => sees inner (mem_append_left _ member)
    rw [Code.CanComplete, Block.canComplete_eq, completes, Bool.true_or]
  | @caught catches _ _ clause member _ ih =>
    have completes : allComplete clause.block.statements = true :=
      ih normal fun inner inside =>
        sees inner (mem_append_right _ (mem_flatMap.mpr ⟨clause, member, inside⟩))
    rw [Code.CanComplete, anyCatchCompletes_of_mem catches clause member completes, Bool.or_true]

theorem PassesOverContinue.wrong (passes : PassesOverContinue labels body condition) (span : Span) :
    ¬ CompletionRight labels (.doWhile body condition span) := by
  obtain ⟨stuck, noExit, undecided, target, round, goesOn⟩ := passes
  intro right
  refine right ?_ (.doWhile round goesOn ?_)
  · rw [Statement.canComplete, stuck, noExit]
    rfl
  · rw [undecided]
    exact .loopEnds

/-- What is said not to come to its end never does: the answers about a statement and all
statements inside it are right if and only if no `do` loop among them passes over a `continue`.
Without such a loop the answers about sequences and blocks are right too. -/
theorem canComplete_right_iff (labels : List String) (statement : Statement)
    (statements : List Statement) (span : Span) :
    ((∀ innerLabels inner, Occurs labels statement innerLabels inner →
      CompletionRight innerLabels inner) ↔ SeesContinues labels statement) ∧
    ((∀ part ∈ statements, SeesContinues [] part) →
      (allComplete statements = false → ¬ Runs (.sequence statements) .normal) ∧
      (Block.canComplete ⟨statements, span⟩ = false → ¬ Runs (.sequence statements) .normal)) := by
  refine ⟨⟨?_, ?_⟩, fun sees => ⟨?_, ?_⟩⟩
  · intro right innerLabels body condition span occurs passes
    exact passes.wrong span (right innerLabels _ occurs)
  · intro sees innerLabels inner occurs stuck run
    have completes : inner.canComplete = true := run.canComplete rfl (sees.inside occurs)
    rw [stuck] at completes
    cases completes
  · intro stuck run
    have completes : allComplete statements = true := run.canComplete rfl sees
    rw [stuck] at completes
    cases completes
  · intro stuck run
    have completes : allComplete statements = true := run.canComplete rfl sees
    rw [Block.canComplete_eq, completes] at stuck
    cases stuck

def retryingLoop (span : Span) : Statement :=
  .doWhile (.block ⟨[.continue none span], span⟩) (.name "x" 0 span) span

def spinningLoop (span : Span) : Statement :=
  .while (.literal (.boolean true) span) (.block ⟨[.continue none span], span⟩) span

theorem seesContinues_spinningLoop : SeesContinues [] (spinningLoop span) := by
  have inside : ∀ {labels inner}, Occurs [] (spinningLoop span) labels inner →
      inner = spinningLoop span ∨ inner = .block ⟨[.continue none span], span⟩ ∨
        inner = .continue none span := by
    intro labels inner occurs
    induction occurs with
    | self => exact Or.inl rfl
    | behindLabel _ ih =>
      rcases ih with same | same | same <;> cases same
    | child _ member ih =>
      rcases ih with rfl | rfl | rfl
      · exact Or.inr (Or.inl (mem_singleton.mp member))
      · exact Or.inr (Or.inr (mem_singleton.mp member))
      · cases member
  intro labels body condition loopSpan occurs
  rcases inside occurs with same | same | same <;> cases same

/-- The first loop may end though it is said not to, so that its answers are not all right; the
second does not, and is said not to. -/
theorem canComplete_right_iff_loops :
    ((retryingLoop ⟨.start, .start⟩).canComplete = false ∧
      Runs (.statement [] (retryingLoop ⟨.start, .start⟩)) .normal ∧
      ¬ SeesContinues [] (retryingLoop ⟨.start, .start⟩)) ∧
    allComplete [spinningLoop ⟨.start, .start⟩] = false ∧
      ¬ Runs (.sequence [spinningLoop ⟨.start, .start⟩]) .normal := by
  have stuck : (retryingLoop ⟨.start, .start⟩).canComplete = false := by decide
  have ends : Runs (.statement [] (retryingLoop ⟨.start, .start⟩)) .normal := by
    refine .doWhile (.block (.stops .continue (by decide))) rfl ?_
    exact .loopEnds
  refine ⟨⟨stuck, ends, fun sees => ?_⟩, by decide, ?_⟩
  · have right := (canComplete_right_iff [] (retryingLoop ⟨.start, .start⟩) [] ⟨.start, .start⟩).1
    exact right.mpr sees [] _ .self stuck ends
  · have right := (canComplete_right_iff [] (retryingLoop ⟨.start, .start⟩)
      [spinningLoop ⟨.start, .start⟩] ⟨.start, .start⟩).2
    refine (right fun part member => ?_).1 (by decide)
    rw [mem_singleton.mp member]
    exact seesContinues_spinningLoop _

end JavaFrontEnd
