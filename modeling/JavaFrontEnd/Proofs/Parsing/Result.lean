/-
What a parse yields. Every sequence of tokens is parsed to its end. The spans of the tree and of all
problems are true of the text, and each node holds its parts. Each turn after which a loop goes on
has moved the cursor, and at most two turns are counted for each token. Nothing is given up without
a report, except for modifiers that end the input. The levels that may be open bound the tree, but
for the members of enums and the links of chains.
-/

import JavaFrontEnd.Proofs.LiteralTexts
import JavaFrontEnd.Proofs.Parsing.AdmittedUnits
import JavaFrontEnd.Proofs.Parsing.Units

namespace JavaFrontEnd

open List

namespace Grammar

variable (config : Configuration)

def tokensOf (config : Configuration) (source : String) : List Token :=
  Token.significant config.level source

def Environment.forTokens (config : Configuration) (tokens : List Token) : Environment :=
  ⟨config, boundFor tokens.length⟩

def State.final (config : Configuration) (tokens : List Token) : State :=
  (unitParts recursion (.forTokens config tokens) (.initial tokens)).2

def Terms.whole (text : Option (List Char)) : Terms :=
  { counts := true, deepens := false, honest := false, fallible := false, scope := ⟨0, text⟩ }

/-- What is known at the end of a parse, of whose tokens the text may be known. -/
structure Parsed (text : Option (List Char)) (config : Configuration)
    (tokens : List Token) : Prop where
  ended : (State.final config tokens).current.kind = .endOfInput
  frank : Candid (.forTokens config tokens) (.final config tokens) ∨
    Trailing recursion (.forTokens config tokens) (.initial tokens) (.final config tokens)
  ready : Ready ⟨0, text⟩ (.forTokens config tokens) (.final config tokens)
  course : Course (.whole text) (.forTokens config tokens) (.initial tokens) (.final config tokens)
  gathered : Gathered ⟨0, text⟩ false (State.initial tokens).opening (.final config tokens)
    (CompilationUnit.ofTokens config tokens).1.node.parts
  span : (CompilationUnit.ofTokens config tokens).1.span =
    (State.initial tokens).current.span.cover (State.final config tokens).last.span
  arguments : (CompilationUnit.ofTokens config tokens).1.annotationArguments =
    (State.final config tokens).annotationArguments
  found : (CompilationUnit.ofTokens config tokens).2 = (State.final config tokens).found.reverse

theorem parsed_of_located (tokens : List Token) (text : Option (List Char))
    (located : ∀ characters ∈ text, Located characters (State.initial tokens)) :
    Parsed text config tokens := by
  have ready : Ready ⟨0, text⟩ (.forTokens config tokens) (State.initial tokens) :=
    { ready_initial config tokens with located }
  have obeys : Obeys (course (Terms.whole text).surely) (.forTokens config tokens)
      (State.initial tokens) (unitParts recursion) _ :=
    @unitParts_obeys (.whole text) _ _ _ recursion_sound (.inl rfl)
  obtain ⟨parts, final, runs, ⟨isEnd, isFrank, isSpan, held⟩, holds, leads⟩ :=
    obeys.exists_value ready
  have isFinal : State.final config tokens = final := congrArg Prod.snd runs
  obtain ⟨package, imports, types, span⟩ := parts
  have isUnit : CompilationUnit.ofTokens config tokens =
      ({ package, imports, types, span, annotationArguments := final.annotationArguments },
        final.found.reverse) := by
    unfold CompilationUnit.ofTokens
    dsimp only
    change unitParts recursion ⟨config, boundFor tokens.length⟩ (State.initial tokens) = _ at runs
    rw [runs]
  rw [← isFinal] at isEnd isFrank isSpan held holds leads
  refine ⟨isEnd, isFrank, holds, leads, ?_, ?_, ?_, ?_⟩
  · rw [isUnit]
    exact held
  · rw [isUnit]
    exact isSpan
  · rw [isUnit, isFinal]
  · rw [isUnit, isFinal]

theorem parsed_source (source : String) :
    Parsed (some source.toList) config (tokensOf config source) := by
  refine parsed_of_located config _ _ ?_
  rintro _ ⟨⟩
  exact located_initial config.level source

end Grammar

variable {source : String}

/-! ### Spans -/

/-- The nodes of a unit that are part of no other: that of the unit, and those of the arguments of
annotations. -/
def CompilationUnit.roots (unit : CompilationUnit) : List Node :=
  unit.node :: unit.annotationArguments.toList.flatMap fun arguments =>
    arguments.map AnnotationArgument.node

/-- A location is reached from the start of a text by going over the bytes before its offset. -/
def Location.LiesIn (source : String) (location : Location) : Prop :=
  ∃ before, before <+: source.toList ∧ (String.ofList before).utf8ByteSize = location.offset ∧
    location = Location.start.advanceOver before

structure Span.LiesIn (source : String) (span : Span) : Prop where
  start : span.start.LiesIn source
  stop : span.stop.LiesIn source
  ordered : span.start.offset ≤ span.stop.offset
  bounded : span.stop.offset ≤ source.utf8ByteSize

theorem Location.IsTrue.liesIn {location : Location} (isTrue : location.IsTrue source.toList) :
    location.LiesIn source := by
  obtain ⟨before, isBeginning, rfl⟩ := isTrue
  exact ⟨before, isBeginning, rfl, (advanceOver_start before).symm⟩

theorem Span.IsTrue.liesIn {span : Span} (isTrue : span.IsTrue source.toList) :
    span.LiesIn source where
  start := isTrue.start.liesIn
  stop := isTrue.stop.liesIn
  ordered := isTrue.ordered
  bounded := by
    obtain ⟨before, ⟨after, isText⟩, isStop⟩ := isTrue.stop
    have whole : (Location.after source.toList).offset = source.utf8ByteSize :=
      congrArg String.utf8ByteSize String.ofList_toList
    rw [← whole, ← isText, isStop, Location.offset_after_append]
    exact Nat.le_add_right _ _

theorem Node.Sound.of_path {root : Node} (sound : root.Sound text) (isPath : root.Path path) :
    ∀ node ∈ path, node.Sound text := by
  induction isPath with
  | last node => exact forall_mem_singleton.mpr sound
  | step isPart _ ih =>
    exact forall_mem_cons.mpr ⟨sound, ih (sound.part isPart)⟩

theorem Token.isTrue_of_mem_problems (isProblem : diagnostic ∈ Token.problems level source) :
    diagnostic.span.IsTrue source.toList := by
  obtain ⟨token, isToken, reports⟩ := mem_filterMap.mp isProblem
  have isSpan : diagnostic.span = token.span := by
    unfold Token.problem? at reports
    repeat' split at reports
    all_goals cases reports
    all_goals rfl
  rw [isSpan]
  exact (Token.stands_of_mem_all isToken).isTrue

namespace CompilationUnit

variable (config : Configuration)

theorem parse_eq (source : String) :
    parse config source = ((ofTokens config (Grammar.tokensOf config source)).1,
        Token.problems config.level source ++
          (ofTokens config (Grammar.tokensOf config source)).2) :=
  rfl

theorem sound_of_mem_roots (source : String) :
    ∀ root ∈ (parse config source).1.roots, root.Sound source.toList := by
  have parsed := Grammar.parsed_source config source
  have region := parsed.gathered.region _ rfl
  have isTrue := region.isTrue.cover region.last
  have starts := region.isTrue.start_cover region.last
  have stops := region.isTrue.stop_cover region.last
  rw [parse_eq]
  refine forall_mem_cons.mpr ⟨.intro ?_ (fun part isPart _ => ?_) region.sound,
    fun root isRoot => ?_⟩
  · change Span.IsTrue _ (ofTokens _ _).1.span
    rw [parsed.span]
    exact isTrue
  · obtain ⟨front, reach⟩ := region.within part isPart
    change Span.encloses (ofTokens _ _).1.span _ = true
    rw [parsed.span, Span.encloses_iff]
    unfold Grammar.State.lastReach at reach
    unfold Grammar.State.opening at front starts stops
    dsimp only at front starts stops
    omega
  · obtain ⟨arguments, isListed, isArgument⟩ := mem_flatMap.mp isRoot
    obtain ⟨argument, isGiven, rfl⟩ := mem_map.mp isArgument
    rw [parsed.arguments] at isListed
    exact (parsed.ready.located _ rfl).arguments arguments isListed argument isGiven

/-- Every span in a unit and in the problems found in its text lies in the text, and the span of
every node encloses those of its parts; annotations alone may stand outside. -/
theorem parse_spans (configuration : Configuration) (source : String) :
    (∀ root ∈ (parse configuration source).1.roots, ∀ path, root.Path path → ∀ node ∈ path,
      node.span.LiesIn source ∧
      ∀ part ∈ node.parts, part.sort ≠ .annotationUse → node.span.encloses part.span = true) ∧
    ∀ diagnostic ∈ (parse configuration source).2, diagnostic.span.LiesIn source := by
  refine ⟨fun root isRoot path isPath node isNode => ?_, fun diagnostic isFound => ?_⟩
  · cases (sound_of_mem_roots configuration source root isRoot).of_path isPath node isNode with
    | intro isTrue encloses _ => exact ⟨isTrue.liesIn, encloses⟩
  · rw [parse_eq] at isFound
    rcases mem_append.mp isFound with ofToken | isFound
    · exact (Token.isTrue_of_mem_problems ofToken).liesIn
    · have parsed := Grammar.parsed_source configuration source
      rw [parsed.found, mem_reverse] at isFound
      exact ((parsed.ready.located _ rfl).found diagnostic isFound).liesIn

end CompilationUnit

open Grammar

/-! ### Progress -/

namespace Grammar

variable {α β σ : Type} {env : Environment} {state later after : State}
  {turn : List α → Parser (Turn (List α) β)}

/-- A loop that begins with nothing found moves the cursor in each turn after which it goes on. -/
def Advances (turn : List α → Parser (Turn (List α) β)) (env : Environment)
    (state : State) : Prop :=
  ∀ found next later after, Turns turn env [] state found later →
    turn found env later = (some (.again next), after) → later.consumed < after.consumed

def Terms.progress : Terms :=
  { counts := true, deepens := false, honest := false, fallible := true, scope := ⟨0, none⟩ }

instance : Terms.progress.Fallible :=
  ⟨rfl⟩

theorem Advances.of_step (node : α → Node)
    (step : ∀ found later, Ready ⟨0, none⟩ env later →
      Gathered ⟨0, none⟩ false state.opening later (found.reverse.map node) →
      ∀ next after, turn found env later = (some (.again next), after) →
        later.consumed < after.consumed ∧ Ready ⟨0, none⟩ env after ∧
        Gathered ⟨0, none⟩ false state.opening after (next.reverse.map node))
    (ready : Ready ⟨0, none⟩ env state) : Advances turn env state := by
  have reached : ∀ {found later}, Turns turn env [] state found later → Ready ⟨0, none⟩ env later ∧
      Gathered ⟨0, none⟩ false state.opening later (found.reverse.map node) := by
    intro found later turns
    induction turns with
    | start => exact ⟨ready, .start ready⟩
    | turn _ goesOn ih =>
      exact (step _ _ ih.1 ih.2 _ _ goesOn).2
  intro found next later after turns goesOn
  obtain ⟨ready, held⟩ := reached turns
  exact (step found later ready held next after goesOn).1

theorem Obeys.goesOn {turn : Parser (Turn σ β)} {again : σ → State → Prop} {done : β → State → Prop}
    {next : σ}
    (obeys : Obeys (course terms) env state turn fun outcome after => outcome.Meets (again · after)
      (done · after)) (ready : Ready terms.scope env state)
    (goesOn : turn env state = (some (.again next), after)) :
    Ready terms.scope env after ∧ again next after := by
  have outcome := obeys ready
  rw [goesOn] at outcome
  exact ⟨outcome.holds, outcome.yields _ rfl⟩

theorem recursion_obeys (nonterminal : Nonterminal) :
    Obeys (course .progress) env state (recursion nonterminal) fun _ _ => True := by
  exact (recursion_sound.reads nonterminal fun _ => rfl).mono fun _ _ _ => trivial

theorem Advances.of_turns {results : β → List Node} (ready : Ready ⟨0, none⟩ env state)
    (step : ∀ found later, Gathered ⟨0, none⟩ false state.opening later (found.reverse.map node) →
      GathersTurn false false Terms.progress.counting env state.opening later (turn found)
      (·.reverse.map node) results) : Advances turn env state := by
  refine .of_step node (fun found later ready held next after goesOn => ?_) ready
  obtain ⟨ready, less, held⟩ := (step found later held).goesOn ready goesOn
  exact ⟨less, ready, held⟩

section Loops

variable (ready : Ready ⟨0, none⟩ env state)
include ready

theorem topLevelTurn_advances : Advances (topLevelTurn recursion) env state := by
  refine .of_step TypeDeclaration.node (fun found later ready held next after goesOn => ?_) ready
  have obeys := @topLevelTurn_obeys .progress env _ _ _ _ recursion_sound _ held
  obtain ⟨ready, less, held, _⟩ := obeys.goesOn ready goesOn
  exact ⟨less, ready, held⟩

theorem memberTurn_advances (owner : String) (kind : BodyKind) :
    Advances (memberTurn recursion owner kind) env state :=
  .of_turns ready fun _ _ held => memberTurn_obeys held

theorem statementTurn_advances (stop : List Token → Bool) :
    Advances (statementTurn recursion stop) env state :=
  .of_turns ready fun _ _ held => statementTurn_obeys held

theorem caseTurn_advances : Advances (caseTurn recursion) env state :=
  .of_turns ready fun _ _ held => caseTurn_obeys held

theorem constantTurn_advances : Advances (constantTurn recursion) env state := by
  refine .of_step EnumConstant.node (fun found later ready held next after goesOn => ?_) ready
  by_cases isOver : maxSteps < later.counted.steps
  · have stops : exhausted env later = (some true, later.counted.stop) := if_pos isOver
    simp only [constantTurn, bind, Parser.bind, stops, if_pos] at goesOn
    cases goesOn
  · have counts : exhausted env later = (some false, later.counted) := if_neg isOver
    simp only [constantTurn, bind, Parser.bind, counts] at goesOn
    have held : Gathered ⟨0, none⟩ false state.opening later.counted _ := held.congr rfl rfl rfl
    have obeys := @constantStep_obeys .progress env _ _ _ _ recursion_sound _ held
    obtain ⟨ready, less, held⟩ := obeys.goesOn ready.counted goesOn
    exact ⟨less, ready, held⟩

end Loops

variable (config : Configuration) (tokens : List Token)

theorem steps_final_le : (State.final config tokens).steps ≤ 2 * (withEnd tokens).length := by
  have parsed := parsed_of_located config tokens none nofun
  have length : (withEnd tokens).length = (State.initial tokens).following.length + 1 := by
    rw [← tokens_initial, State.tokens, length_cons]
  have position := parsed.course.position
  have paid := parsed.course.paid
  have atStart : (State.initial tokens).consumed = 0 ∧ (State.initial tokens).steps = 0 :=
    ⟨rfl, rfl⟩
  omega

theorem usedUp_final (few : (withEnd tokens).length ≤ 100000) :
    (State.final config tokens).usedUp = false := by
  have parsed := parsed_of_located config tokens none nofun
  have steps := steps_final_le config tokens
  refine Bool.eq_false_iff.mpr fun isUsedUp => ?_
  rcases parsed.course.usedUp isUsedUp with early | tooMany
  · exact nomatch early
  · unfold maxSteps at tooMany
    omega

/-- The result of a parse is made of its tokens, unless one of them is a literal without a value. -/
theorem ofTokens?_cases :
    CompilationUnit.ofTokens? config tokens = some (CompilationUnit.ofTokens config tokens) ∨
      CompilationUnit.ofTokens? config tokens = none ∧
        ∃ token ∈ tokens, token.literal? = none := by
  have isResult : CompilationUnit.ofTokens? config tokens =
      if (State.final config tokens).stopped then none
      else some (CompilationUnit.ofTokens config tokens) := rfl
  by_cases isStopped : (State.final config tokens).stopped = true
  · refine .inr ⟨by rw [isResult, if_pos isStopped], ?_⟩
    have admitted := unitParts_admitted sparing (.forTokens config tokens) (.initial tokens)
    obtain isStopped | ⟨token, isToken, isMissing⟩ := admitted (.inl isStopped)
    · cases isStopped
    · rw [tokens_initial] at isToken
      refine ⟨token, (mem_or_eq_of_mem_withEnd isToken).resolve_right ?_, isMissing⟩
      exact fun isEnd => literal?_ne_none (by rw [isEnd]; simp) isMissing
  · exact .inl (by rw [isResult, if_neg isStopped])

end Grammar

/-- A parse goes forward. What is true of its first state stays true, the parser of no nonterminal
moves the cursor back, and each loop that recovers from failures moves it in every turn after which
it goes on. The parse ends at the end mark, unless one of the tokens is a literal without a value.
At most two turns are counted for each token, so that up to 100,000 tokens nothing is dropped
because turns are used up. -/
theorem CompilationUnit.ofTokens_progress (configuration : Configuration) (tokens : List Token) :
    Ready ⟨0, none⟩ (.forTokens configuration tokens) (.initial tokens) ∧
    (∀ state, Ready ⟨0, none⟩ (.forTokens configuration tokens) state →
      (∀ nonterminal,
        Ready ⟨0, none⟩ (.forTokens configuration tokens)
          (recursion nonterminal (.forTokens configuration tokens) state).2 ∧
        state.consumed ≤
          (recursion nonterminal (.forTokens configuration tokens) state).2.consumed) ∧
      Advances (topLevelTurn recursion) (.forTokens configuration tokens) state ∧
      Advances (constantTurn recursion) (.forTokens configuration tokens) state ∧
      (∀ owner kind,
        Advances (memberTurn recursion owner kind) (.forTokens configuration tokens) state) ∧
      (∀ stop, Advances (statementTurn recursion stop) (.forTokens configuration tokens) state) ∧
      Advances (caseTurn recursion) (.forTokens configuration tokens) state) ∧
    ((∃ result, ofTokens? configuration tokens = some result) ∧
        (State.final configuration tokens).current.kind = .endOfInput ∨
      ofTokens? configuration tokens = none ∧ ∃ token ∈ tokens, token.literal? = none) ∧
    (State.final configuration tokens).steps ≤ 2 * (withEnd tokens).length ∧
    ((withEnd tokens).length ≤ 100000 → (State.final configuration tokens).usedUp = false) := by
  have parsed := parsed_of_located configuration tokens none nofun
  refine ⟨ready_initial configuration tokens, fun state ready => ⟨fun nonterminal => ?_,
    topLevelTurn_advances ready, constantTurn_advances ready, memberTurn_advances ready,
    statementTurn_advances ready, caseTurn_advances ready⟩, ?_,
    steps_final_le configuration tokens, usedUp_final configuration tokens⟩
  · have outcome := recursion_obeys nonterminal ready
    exact ⟨outcome.holds, outcome.leads.forward⟩
  · rcases ofTokens?_cases configuration tokens with isRead | isStopped
    · exact .inl ⟨⟨_, isRead⟩, parsed.ended⟩
    · exact .inr isStopped

/-- Text blocks are all that can keep a text from being read. A text block has no value exactly if
its indentation, which counts bytes, ends inside a character of one of its lines; where no text
block is such, a unit is made of the text. -/
theorem CompilationUnit.parse?_textBlocks (configuration : Configuration) (source : String) :
    (∀ raw, LiteralText.textBlock? raw = none ↔ ∃ line ∈ LiteralText.blockLines raw,
      LiteralText.EndsInside (LiteralText.indentation (LiteralText.blockLines raw)) line) ∧
    ((∃ result, parse? configuration source = some result) ∨
      parse? configuration source = none ∧ ∃ token ∈ tokensOf configuration source,
        token.kind = .textBlock ∧ ∃ line ∈ LiteralText.blockLines token.blockText,
          LiteralText.EndsInside
            (LiteralText.indentation (LiteralText.blockLines token.blockText)) line) := by
  refine ⟨LiteralText.textBlock?_eq_none_iff, ?_⟩
  have isParsed : parse? configuration source =
      (ofTokens? configuration (tokensOf configuration source)).bind fun read =>
        some (read.1, Token.problems configuration.level source ++ read.2) := rfl
  rcases ofTokens?_cases configuration (tokensOf configuration source) with
    isRead | ⟨isStopped, token, isToken, isMissing⟩
  · exact .inl ⟨_, by rw [isParsed, isRead, Option.bind_some]⟩
  · refine .inr ⟨by rw [isParsed, isStopped, Option.bind_none], token, isToken, ?_⟩
    have isBlock : token.kind = .textBlock := by
      by_contra isNoBlock
      exact literal?_ne_none isNoBlock isMissing
    have noText : LiteralText.textBlock? token.blockText = none := by
      unfold Token.literal? at isMissing
      simpa [isBlock] using isMissing
    exact ⟨isBlock, (LiteralText.textBlock?_eq_none_iff _).mp noText⟩

example : LiteralText.textBlock? "\n  a\n\u3000b\n  ".toList = none := by
  decide +kernel

/-! ### Reports -/

namespace Grammar

end Grammar

namespace Grammar

variable {α : Type} {env : Environment} {state : State}

theorem reports_nested_of_full (parser : Parser α) (isFull : maxDepth ≤ state.depth) :
    (nested parser env state).1 = none ∧
    (state.reported.length < env.configuration.maxSyntaxErrors →
      state.current.span.start.offset ∉ state.reported →
      .error .syntaxError SyntaxProblem.nestedTooDeeply.message state.current.span ∈
        (nested parser env state).2.found) := by
  rw [nested_of_full isFull]
  show (Parser.bind (violation .nestedTooDeeply state.current.span) _ env state).1 = none ∧
    (_ → _ → _ ∈ (Parser.bind (violation .nestedTooDeeply state.current.span) _ env state).2.found)
  unfold Parser.bind violation
  refine ⟨?_, fun isAllowed isNew => ?_⟩
  · split <;> rfl
  · have isOpen : ¬((decide (env.configuration.maxSyntaxErrors ≤ state.reported.length) ||
        state.reported.contains state.current.span.start.offset) = true) := by
      simp [Nat.not_le.mpr isAllowed, isNew]
    rw [if_neg isOpen]
    exact mem_cons_self

/-- A part of a parse ends on the level on which it began, and in between the count of levels has
neither gone above its bound nor below zero. -/
structure Returns (env : Environment) (state after : State) : Prop where
  ready : Ready ⟨0, none⟩ env after
  depth : after.depth = state.depth
  strayed : after.levels.strayed = state.levels.strayed
  lambdas : after.lambdas = state.lambdas

theorem Returns.of_obeys {parser : Parser α} {good : α → State → Prop} (terms : Terms)
    (obeys : Obeys (course terms) env state parser good) (ready : Ready terms.scope env state)
    (isLevel : terms.deepens = false := by rfl) (isScope : terms.scope = ⟨0, none⟩ := by rfl) :
    Returns env state (parser env state).2 := by
  have outcome := obeys ready
  have levels := outcome.leads.levels
  rw [isLevel] at levels
  exact ⟨isScope ▸ outcome.holds, levels.depth_eq, levels.strayed, outcome.leads.lambdas⟩

end Grammar

/-- Whether it succeeds or fails, each production leaves as many levels open as it found, and
lambda expressions allowed or not as before. While it runs, no level is opened above `maxDepth`, and
no more levels are closed than are open. So it is for the parse as a whole, which begins and ends
with no open level. -/
theorem CompilationUnit.ofTokens_balanced (configuration : Configuration) (tokens : List Token) :
    Ready ⟨0, none⟩ (.forTokens configuration tokens) (.initial tokens) ∧
    (∀ env state, Ready ⟨0, none⟩ env state →
      (∀ nonterminal, Returns env state (recursion nonterminal env state).2) ∧
      Returns env state (optionalPackage recursion env state).2 ∧
      Returns env state (Grammar.imports env state).2 ∧
      Returns env state (topLevelType recursion env state).2 ∧
      Returns env state (topLevelTypes recursion env state).2) ∧
    (State.final configuration tokens).depth = 0 ∧
    (State.final configuration tokens).levels.strayed = false := by
  have parsed := parsed_of_located configuration tokens none nofun
  refine ⟨ready_initial .., fun env state ready => ⟨fun nonterminal => ?_, ?_, ?_, ?_, ?_⟩, ?_⟩
  · exact .of_obeys .progress (recursion_obeys nonterminal) ready
  · exact .of_obeys .progress Readable.reads ready
  · exact .of_obeys .progress Readable.reads ready
  · exact .of_obeys .progress (topLevelType_reads (.inr rfl)) ready
  · exact .of_obeys Terms.progress.lenient.counting topLevelTypes_obeys ready
  · exact ⟨parsed.course.levels.depth_eq, parsed.course.levels.strayed⟩

theorem CompilationUnit.fits_of_mem_roots (config : Configuration) (tokens : List Token) :
    ∀ root ∈ (ofTokens config tokens).1.roots, root.Fits 0 := by
  have parsed := Grammar.parsed_of_located config tokens none nofun
  refine forall_mem_cons.mpr ⟨?_, fun root isRoot => ?_⟩
  · exact .of_parts (Nat.zero_le _) rfl parsed.gathered.fits
  · obtain ⟨arguments, isListed, isArgument⟩ := mem_flatMap.mp isRoot
    obtain ⟨argument, isGiven, rfl⟩ := mem_map.mp isArgument
    rw [parsed.arguments] at isListed
    exact parsed.ready.fits arguments isListed argument isGiven

/-- On each path through a unit, at most `maxDepth` nodes are read one level deeper than the node
before, and at most `maxDepth` are declarations of types other than enums. Where all levels are
open, what needs one more fails and is reported. -/
theorem CompilationUnit.ofTokens_depth (configuration : Configuration) (tokens : List Token) :
    (∀ root ∈ (ofTokens configuration tokens).1.roots, ∀ path, root.Path path →
      path.countP (·.deeper) ≤ maxDepth ∧ path.countP (·.sort.isOpenDeclaration) ≤ maxDepth) ∧
    ∀ (α : Type) (parser : Parser α) state, maxDepth ≤ state.depth →
      (nested parser (.forTokens configuration tokens) state).1 = none ∧
      (state.reported.length < configuration.maxSyntaxErrors →
        state.current.span.start.offset ∉ state.reported →
        .error .syntaxError SyntaxProblem.nestedTooDeeply.message state.current.span ∈
          (nested parser (.forTokens configuration tokens) state).2.found) := by
  refine ⟨fun root isRoot path isPath => ?_, fun α parser state isFull =>
    reports_nested_of_full parser isFull⟩
  have fits := fits_of_mem_roots configuration tokens root isRoot
  have deeper := fits.count_deeper isPath
  have declarations := fits.count_declarations isPath
  omega

end JavaFrontEnd
