/-
Units keep to the course of a parse. The circle of the grammar is closed by induction on the levels
to which productions are nested. At the top of a unit a type of which only modifiers are read before
the end of the input is given up in silence; whatever else was given up has been reported.
-/

import JavaFrontEnd.Proofs.Parsing.Statements

namespace JavaFrontEnd.Grammar

open List

variable {terms : Terms} {env : Environment} {scope : Scope} {state : State}
  {opening : Opening} {before : Bool} {self : Recursion}

/-! ### The circle of the grammar -/

instance production_sound [self.Sound] : (production self).Sound where
  reads nonterminal terms _ env state pays := by
    cases nonterminal
    case type => exact writtenType_reads.reads
    case annotationValue =>
      refine Obeys.bind Readable.reads fun parts _ held => .pure ?_
      exact held.rebuilt .expression [] (mem_append_right _ (mem_singleton_self _)) rfl
        nofun (nil_sublist _)
    case expression => exact expression_reads.reads
    case conditional => exact conditional_reads.reads
    case operation => exact operation_reads.reads
    case unary => exact unary_reads.reads
    case pattern => exact pattern_reads.reads
    case arrayInitializer => exact arrayInitializer_reads.reads
    case block => exact block_reads.reads
    case statement => exact statement_reads.reads
    case switch => exact switchParts_reads.reads
    case members =>
      have isCounting : terms.counting = terms := by
        unfold Terms.counting
        rw [← pays rfl]
      exact isCounting ▸ members_reads.reads

instance levels_sound (count : Nat) : (levels count).Sound := by
  induction count with
  | zero => exact ⟨fun _ _ _ _ _ _ => .of_holds fun ready => .read rfl (reject_obeys ready.current)⟩
  | succ count ih => exact production_sound

instance recursion_sound : recursion.Sound where
  reads nonterminal _ _ _ _ pays ready := (levels_sound _).reads nonterminal pays ready

/-! ### Packages and imports -/

instance : Movable false terms skipToDeclaration := by
  refine .start fun held => held.loop (fun _ => []) fun _ state held => .read rfl ?_
  split
  case h_8 isSemicolon =>
    exact held.advance (isSemicolon ▸ nofun) fun _ held => .done held.forget
  case h_9 isBrace =>
    exact held.advance (isBrace ▸ nofun) fun _ held => .done held.forget
  case h_10 =>
    refine held.advance (by assumption) fun passes held => ?_
    exact .turning passes.less (.again held.forget)
  all_goals exact .done held

section Imports

variable [terms.Fallible]

theorem expect_moves (kind : TokenKind) (isNoEnd : kind ≠ .endOfInput) :
    Moves true terms env state (expect kind construct) fun token _ => token = state.current := by
  refine .of_holds fun ready => expect_obeys.mono ?_
  rintro _ _ _ ⟨rfl, rfl, isKind⟩
  exact ⟨fun _ => (ready.jump (isKind ▸ isNoEnd)).consumed_lt, rfl⟩

instance [self.Sound] : Readable true terms (packageDeclaration self)
    fun package => [package.node] := by
  refine .start fun held => held.past fun annotations held => ?_
  refine .of_holds fun ready => ?_
  have inner := Gathered.start ready
  have starts := fun text isText => (held.region text isText).front
  refine (expect_moves .package nofun).andThen fun token isToken along => ?_
  have held := along held
  have inner := along inner
  refine Movable.moves.andThen fun name _ along => ?_
  have held := along held
  have inner := along inner
  refine (expect_moves .semicolon nofun).andThen fun _ _ along => ?_
  refine .read rfl (.pure ?_)
  have held := along held
  have inner := along inner
  rw [← append_nil (annotations.map AnnotationUse.node)] at held
  have whole : Gathered _ _ _ _ [⟨_, false, _, annotations.map AnnotationUse.node ++ []⟩] :=
    Gathered.enclosedAfter .other held inner starts (forall_mem_map.mpr fun _ _ => rfl) rfl
  rw [append_nil] at whole
  cases isToken
  exact whole

instance : Movable true terms importedName := by
  refine .start fun held => held.names fun name _ _ held => ?_
  refine held.clear.loop (fun _ => []) fun name state held => ?_
  refine held.accept nofun (fun passes held => ?_) fun _ => .done held
  refine .turning passes.less (held.accept nofun (fun _ held => .done held) fun _ => ?_)
  exact held.names fun part _ _ held => .again held.clear

theorem importRest_gathers (opening : Opening) (held : Gathered terms.scope true opening state []) :
    Gathers true terms env opening state (importRest opening.span) fun declaration =>
      [declaration.node] := by
  refine held.over fun static held => ?_
  extract_lets rest
  refine held.perhapsLast needFeature_moves fun held => held.over fun name held => ?_
  exact held.closed

end Imports

theorem attempt_importDeclaration {β : Type} {next : Option ImportDeclaration → Parser β}
    (isImport : state.current.kind = .import) :
    (Parser.attempt importDeclaration >>= next) env state =
      (advance >>= fun word => Parser.attempt (importRest word.span) >>= next) env state := by
  have opens : expect .import "ImportDeclaration" env state =
      (some state.current, state.advance) := by
    show (if (state.current.kind == .import) = true then advance else _ : Parser Token)
      env state = _
    rw [if_pos (beq_iff_eq.mpr isImport)]
    rfl
  have runs : importDeclaration env state = importRest state.current.span env state.advance := by
    show Parser.bind (expect .import "ImportDeclaration") _ env state = _
    unfold Parser.bind
    rw [opens]
  show Parser.bind (Parser.attempt importDeclaration) next env state = _
  unfold Parser.bind Parser.attempt
  rw [runs]
  rfl

instance [self.Sound] : Readable false terms (optionalPackage self)
    fun package => package.toList.map PackageDeclaration.node := by
  refine .start fun held => .read rfl (.read rfl (.read rfl (.ite (fun _ => ?_) fun _ => ?_)))
  · refine .attempt Readable.reads (fun package _ new => ?_) fun leads => .of_holds fun ready => ?_
    · exact .pure new.forget
    · have held := held.kept ready leads rfl
      exact held.ended
  · exact .pure held

instance : Readable false terms imports
    fun declarations => declarations.map ImportDeclaration.node := by
  refine .start fun held => held.loop
    (fun found => found.reverse.map ImportDeclaration.node) fun found state held => ?_
  refine .check (fun isImport => .of_run_eq (attempt_importDeclaration isImport) ?_)
    fun _ => .done held
  refine .of_holds fun ready => advance_obeys.bind ?_
  rintro _ _ leads ⟨rfl, rfl⟩
  refine .of_holds fun readyAfter => ?_
  have less := (ready.jump (isImport ▸ nofun)).consumed_lt
  have own := (Gathered.start ready).passed readyAfter leads rfl less
  refine .turning less (.attempt (importRest_gathers state.opening own) ?_ ?_)
  · refine fun declaration further new => .of_holds fun readyLast => ?_
    have course := Course.trans leads further
    have joined := held.passed readyLast course rfl (new.advanced rfl)
    exact .again (held.widen new joined).snoc.forget
  · refine fun further => .of_holds fun readyLast => ?_
    have held := held.kept readyLast (Course.trans leads further) rfl
    refine held.over fun _ held => ?_
    exact .again held

/-! ### Types at the top -/

def Candid (env : Environment) (state : State) : Prop :=
  state.abandoned = [] ∨ Told env state

/-- From a value and a state, the turns of a loop after which it goes on have led to others. -/
inductive Turns (turn : σ → Parser (Turn σ β)) (env : Environment) (value : σ)
    (state : State) : σ → State → Prop where
  | start : Turns turn env value state value state
  | turn {reached next : σ} {later after : State}
      (earlier : Turns turn env value state reached later)
      (goesOn : turn reached env later = (some (.again next), after)) :
      Turns turn env value state next after

/-- Modifiers were read from an earlier state on up to the end of the input, where no declaration
came, and nothing else was given up. -/
structure Trails (grammar : Recursion) (env : Environment) (earlier state : State) : Prop where
  isEnd : state.current.kind = .endOfInput
  less : earlier.consumed < state.consumed
  abandoned : state.abandoned = [state.consumed]
  modified : ∃ read, modifiers grammar env earlier = (some read, { state with abandoned := [] })

/-- What was given up since the loop over declarations began has been reported, apart from
modifiers with which the last turn of the loop began and which trail. -/
def Frank (self : Recursion) (env : Environment) (start state : State) : Prop :=
  Candid env state ∨ ∃ found earlier, Turns (topLevelTurn self) env [] start found earlier ∧
    Trails self env earlier.counted state

/-- Behind the package and the imports, turns of the loop over declarations have led to a state from
which modifiers trail. -/
def Trailing (self : Recursion) (env : Environment) (initial final : State) : Prop :=
  ∃ package middle imported start found earlier,
    optionalPackage self env initial = (some package, middle) ∧
    Grammar.imports env middle = (some imported, start) ∧
    Turns (topLevelTurn self) env [] start found earlier ∧ Trails self env earlier.counted final

namespace Terms

def lenient (terms : Terms) : Terms :=
  { terms with honest := false }

def strict (terms : Terms) : Terms :=
  { terms with honest := true }

end Terms

section Types

variable [self.Sound]

theorem topLevelType?_obeys [terms.Fallible] :
    Obeys (course terms) env state (topLevelType? self) fun found after =>
      (∀ declaration, found = some declaration →
        Gathered terms.scope true state.opening after [declaration.node]) ∧
      (found = none → after.current.kind = .endOfInput ∧
        ∃ read, modifiers self env state = (some read, after)) := by
  refine .of_holds fun ready => .read rfl ?_
  refine Readable.reads.traced.bind fun found leads yields => ?_
  obtain ⟨runs, new⟩ := yields
  refine .of_holds fun readyAfter => ?_
  refine Obeys.bind (typeDeclaration?_obeys ⟨state.current.span, found.1, found.2⟩ new rfl) ?_
  rintro _ (_ | declaration) _ ⟨isSome, isNone⟩
  · cases isNone rfl
    refine .read rfl (.ite (fun isEnd => ?_) fun _ => reject_obeys readyAfter.current)
    exact .pure ⟨nofun, fun _ => ⟨isEnd, found, runs⟩⟩
  · refine .pure ⟨?_, nofun⟩
    rintro _ ⟨⟩
    exact isSome declaration rfl

theorem topLevelType_reads [isFallible : terms.Fallible]
    (isTyped : (topLevelType? self env state).1 ≠ some none ∨ terms.honest = false) :
    Reads true terms env state (topLevelType self) fun declaration => [declaration.node] := by
  refine Obeys.bind (topLevelType?_obeys).traced ?_
  rintro after (_ | declaration) _ ⟨runs, isSome, isNone⟩
  · refine .fail fun _ => ⟨isFallible.isFallible, fun honest => ?_⟩
    rcases isTyped with isTyped | isLenient
    · exact absurd (congrArg Prod.fst runs) isTyped
    · exact absurd (honest.symm.trans isLenient) nofun
  · exact .pure <| isSome declaration rfl

theorem Candid.later {later : State} (candid : Candid env earlier)
    (course : Course terms.strict env earlier later) : Candid env later := by
  rcases course.abandoned rfl with same | told
  · rcases candid with none | told
    · exact .inl (same.trans none)
    · exact .inr (told.later course.reported)
  · exact .inr told

theorem Obeys.lenient {α : Type} {parser : Parser α} {good : α → State → Prop}
    (obeys : Obeys (course terms.strict) env state parser good) :
    Obeys (course terms.lenient) env state parser fun value after =>
      good value after ∧ (Candid env state → Candid env after) := by
  intro ready
  have outcome := obeys ready
  refine ⟨outcome.holds, { outcome.leads with abandoned := nofun }, ?_, fun value isValue => ?_⟩
  · exact fun isNone => ⟨(outcome.fails isNone).1, nofun⟩
  · exact ⟨outcome.yields value isValue, fun candid => candid.later outcome.leads⟩

theorem skipToDeclaration_of_end (ready : Ready scope env state)
    (isEnd : state.current.kind = .endOfInput) :
    skipToDeclaration env state = (some (), state) := by
  obtain ⟨fuel, isBound⟩ := Nat.exists_eq_add_one_of_ne_zero (Nat.ne_zero_of_lt ready.bounded)
  unfold skipToDeclaration iterate
  rw [isBound]
  simp only [iterateFrom, bind, Parser.bind, peek, isEnd, pure, Parser.pure]

omit [self.Sound] in
theorem recovering_of_end {after : State} (ready : Ready scope env after)
    (isEnd : after.current.kind = .endOfInput) (less : state.consumed < after.consumed)
    (runs : topLevelType? self env state = (some none, after)) :
    recovering (topLevelType self) skipToDeclaration env state =
      (some none, { after with abandoned := after.consumed :: after.abandoned }) := by
  have fails : topLevelType self env state = (none, after) := by
    show Parser.bind (topLevelType? self) _ env state = _
    unfold Parser.bind
    rw [runs]
    rfl
  have abandons : Ready scope env
      { after with abandoned := after.consumed :: after.abandoned } :=
    { ready with located := fun text isText => { ready.located text isText with } }
  have skips := skipToDeclaration_of_end abandons isEnd
  unfold recovering
  simp only [bind, Parser.bind, Parser.get, Parser.attempt, fails, skips, pure]
  rw [if_neg (Nat.ne_of_gt less)]
  rfl

variable (self) in
theorem topLevelType_recovers (isNoEnd : state.current.kind ≠ .endOfInput) :
    Obeys (course terms.lenient) env state
      (recovering (topLevelType self) skipToDeclaration) fun found after =>
        Gathered terms.lenient.scope true state.opening after
          (recovered (fun declaration => [declaration.node]) found) ∧
        (Candid env state → Candid env after ∨ Trails self env state after) := by
  by_cases isTyped : (topLevelType? self env state).1 = some none
  · have reads : Reads true terms.lenient env state
        (recovering (topLevelType self) skipToDeclaration)
        (recovered fun declaration => [declaration.node]) :=
      Reads.recovering isNoEnd (topLevelType_reads (.inr rfl))
    refine .of_holds fun ready => reads.traced.mono ?_
    rintro found last leads ⟨runs, held⟩
    refine ⟨held, fun candid => ?_⟩
    have obeys : Obeys (course terms.strict.failing) env state (topLevelType? self) _ :=
      topLevelType?_obeys
    have outcome := obeys ready
    obtain ⟨_, isNone⟩ := outcome.yields none isTyped
    obtain ⟨isEnd, read, isRead⟩ := isNone rfl
    have course : Course terms.strict env state _ := { outcome.leads with }
    have candid := candid.later course
    have less := outcome.leads.consumed_lt_of_end isNoEnd isEnd
    have trails := recovering_of_end outcome.holds isEnd less (Prod.ext isTyped rfl)
    cases runs.symm.trans trails
    rcases candid with isClean | told
    · refine .inr ⟨isEnd, less, congrArg _ isClean, read, ?_⟩
      rw [isRead, ← isClean]
    · exact .inl (.inr told)
  · refine (Obeys.lenient (Reads.recovering isNoEnd (topLevelType_reads (.inl isTyped))
     )).mono fun _ _ yields => ⟨yields.1, fun candid => ?_⟩
    exact .inl (yields.2 candid)

theorem topLevelTurn_obeys {found : List TypeDeclaration}
    (held : Gathered terms.lenient.scope before opening state
      (found.reverse.map TypeDeclaration.node)) :
    Obeys (course terms.lenient.counting) env state (topLevelTurn self found)
      fun outcome after => outcome.Meets (fun next => state.consumed < after.consumed ∧
          Gathered terms.lenient.scope before opening after
            (next.reverse.map TypeDeclaration.node) ∧
          state.current.kind ≠ .endOfInput ∧
          (Candid env state → Candid env after ∨ Trails self env state.counted after))
        fun types => after.current.kind = .endOfInput ∧
          Gathered terms.lenient.scope before opening after (types.map TypeDeclaration.node) ∧
          (after = state ∨ state.current.kind ≠ .endOfInput ∧
            (Candid env state → Candid env after)) := by
  refine .of_holds fun ready => .check (fun isEnd => .done ⟨isEnd, held, .inl rfl⟩)
    fun isNoEnd => ?_
  refine held.count isNoEnd (fun isOver isAfter held =>
      .done ⟨?_, held, .inr ⟨isNoEnd, fun candid => ?_⟩⟩)
    fun held => ?_
  · rw [isAfter]
    exact ready.counted.stop.1
  · rw [isAfter]
    have counted : Candid env state.counted := candid
    have course : Course terms.strict env _ _ :=
      Ready.course_stop ready.counted isOver
    exact counted.later course
  refine held.accept nofun (fun {after} passes held => ?_) fun _ => ?_
  · have still : Candid env state → Candid env after := by
      unfold Candid Told
      rw [passes.abandoned, passes.reported]
      exact id
    exact .pure ⟨passes.less, passes.less, held.weaken, isNoEnd, fun candid => .inl (still candid)⟩
  have recovers : Obeys (course terms.saving.surely.lenient) env state.counted _ _ :=
    topLevelType_recovers self isNoEnd
  refine Obeys.bind recovers fun next leads yields => .of_holds fun ready => ?_
  obtain ⟨new, isFrank⟩ := yields
  have less := new.advanced rfl
  have held := held.widen new (held.kept ready leads rfl)
  cases next with
  | none => exact .pure ⟨less, less, held.left, isNoEnd, isFrank⟩
  | some next => exact .pure ⟨less, less, held.snoc, isNoEnd, isFrank⟩

theorem topLevelTypes_obeys :
    Obeys (course terms.lenient.counting) env state (topLevelTypes self)
      fun types after => after.current.kind = .endOfInput ∧
        Gathered terms.lenient.scope false state.opening after (types.map TypeDeclaration.node) ∧
        (Candid env state → Frank self env state after) := by
  refine .of_holds fun ready => ?_
  have held : Gathered terms.lenient.scope false state.opening state [] := .start ready
  refine .iterate (fun found after => Gathered terms.lenient.scope false state.opening
    after (found.reverse.map TypeDeclaration.node) ∧
      Turns (topLevelTurn self) env [] state found after ∧
      (Candid env state → Frank self env state after)) ?_ ⟨held, .start, .inl⟩
  rintro found after ⟨held, turns, earlier⟩
  have isCandid (isNoEnd : after.current.kind ≠ .endOfInput) (candid : Candid env state) :
      Candid env after :=
    (earlier candid).resolve_right fun trailing => by
      obtain ⟨_, _, _, trails⟩ := trailing
      exact isNoEnd trails.isEnd
  refine (topLevelTurn_obeys held).traced.mono fun outcome _ meets => ?_
  obtain ⟨runs, meets⟩ := meets
  cases outcome with
  | again next =>
    obtain ⟨less, held, isNoEnd, isFrank⟩ := meets
    refine ⟨less, held, .turn turns runs, fun candid => ?_⟩
    rcases isFrank (isCandid isNoEnd candid) with candid | trails
    · exact .inl candid
    · exact .inr ⟨found, after, turns, trails⟩
  | done types =>
    obtain ⟨isEnd, listed, rfl | ⟨isNoEnd, isFrank⟩⟩ := meets
    · exact ⟨isEnd, listed, earlier⟩
    · exact ⟨isEnd, listed, fun candid => .inl (isFrank (isCandid isNoEnd candid))⟩

theorem unitParts_obeys (candid : Candid env state) :
    Obeys (course terms.counting.lenient) env state (unitParts self)
      fun parts after => after.current.kind = .endOfInput ∧
        (Candid env after ∨ Trailing self env state after) ∧
        parts.2.2.2 = state.current.span.cover after.last.span ∧
        Gathered terms.lenient.scope false state.opening after
          (parts.1.toList.map PackageDeclaration.node ++
            parts.2.1.map ImportDeclaration.node ++ parts.2.2.1.map TypeDeclaration.node) := by
  refine .of_holds fun ready => .read rfl ?_
  have held := Gathered.start ready
  refine Obeys.bind (Obeys.lenient Readable.reads).traced ?_
  rintro middle package leads ⟨isPackage, new, isCandid⟩
  refine .of_holds fun ready => ?_
  have candid := isCandid candid
  have held := held.widen new (held.kept ready leads rfl)
  refine Obeys.bind (Obeys.lenient Readable.reads).traced ?_
  rintro start imported leads ⟨areImports, new, isCandid⟩
  refine .of_holds fun ready => ?_
  have candid := isCandid candid
  have held := held.widen new (held.kept ready leads rfl)
  refine Obeys.bind topLevelTypes_obeys ?_
  rintro after types leads ⟨isEnd, new, isFrank⟩
  refine .of_holds fun ready => .read rfl (.pure ⟨isEnd, ?_, rfl, ?_⟩)
  · refine (isFrank candid).imp_right fun trailing => ?_
    obtain ⟨found, earlier, turns, trails⟩ := trailing
    exact ⟨package, middle, imported, start, found, earlier, isPackage, areImports, turns, trails⟩
  · exact held.widen new (held.kept ready leads rfl)

end Types

end JavaFrontEnd.Grammar

namespace JavaFrontEnd

open List

/-! The start of a parse. Any tokens may be parsed, since an end mark is put after them where it is
missing. The tokens of a text are cut from it and stand one behind the other, so that a parse of a
text begins in a state whose places are true of the text. -/

/-! ### Tokens that begin with an angle bracket -/

namespace Scan

theorem afterAngle?_wordKind (word : String) : Grammar.afterAngle? (wordKind word) = none := by
  have table : ∀ entry ∈ TokenKind.keywords, Grammar.afterAngle? entry.2 = none := by decide
  unfold wordKind
  cases found : TokenKind.keywords.lookup word with
  | none => rfl
  | some kind =>
    obtain ⟨before, after, isEntry, _⟩ := lookup_eq_some_iff.mp found
    exact table (word, kind) (by rw [isEntry]; simp)

theorem afterAngle?_integer (rest : List Char) (further : Nat) :
    Grammar.afterAngle? (integer rest further).kind = none := by
  unfold integer
  split <;> rfl

theorem afterAngle?_number (first : Char) (rest : List Char) :
    Grammar.afterAngle? (number first rest).kind = none := by
  unfold number
  split
  · exact afterAngle?_integer _ _
  · dsimp only
    split
    · rfl
    · split
      · exact afterAngle?_integer _ _
      · rfl

theorem afterAngle?_token (first : Char) (rest : List Char) :
    Grammar.afterAngle? (token first rest).kind = none ∨ token first rest = symbol first rest := by
  unfold token
  split
  · exact .inl (afterAngle?_wordKind _)
  split
  · exact .inl rfl
  split
  · exact .inl (afterAngle?_number _ _)
  split
  · exact .inl rfl
  split
  · exact .inl rfl
  · exact .inl rfl
  · exact .inl rfl
  · exact .inl rfl
  · left
    unfold charLiteral
    split <;> rfl
  · split
    · exact .inl rfl
    · exact .inr rfl
  · exact .inr rfl

theorem symbol_of_afterAngle? (isAngle : Grammar.afterAngle? (symbol first rest).kind = some left) :
    first :: rest.take (symbol first rest).further = '>' :: left.2.toList := by
  have table : ∀ entry ∈ TokenKind.symbols, entry.1.toList ≠ [] ∧
      ∀ left ∈ Grammar.afterAngle? entry.2, entry.1.toList = '>' :: left.2.toList := by decide
  unfold symbol at *
  split at isAngle
  next entry found =>
    obtain ⟨listed, isListed, rfl⟩ := mem_map.mp (mem_of_find?_eq_some found)
    have isPrefix : listed.1.toList.isPrefixOf (first :: rest) = true := find?_some
      (p := fun entry : List Char × TokenKind => entry.1.isPrefixOf (first :: rest)) found
    obtain ⟨isSome, spells⟩ := table listed isListed
    rw [← spells left isAngle]
    obtain ⟨head, tail, isList⟩ := exists_cons_of_ne_nil isSome
    rw [isList] at isPrefix ⊢
    obtain ⟨after, isWhole⟩ := isPrefixOf_iff_prefix.mp isPrefix
    obtain ⟨rfl, rfl⟩ := cons.inj isWhole
    simp
  next => cases isAngle

end Scan

/-! ### The tokens of a text -/

namespace Token

open Grammar

variable {level : Level} {source : String} {token : Token}

theorem stands_of_mem_all (isToken : token ∈ all level source) : Stands source.toList token := by
  obtain ⟨before, after, split⟩ := append_of_mem isToken
  obtain ⟨first, rest, isSource, rfl⟩ := (cut_all level source).eq_read split
  refine ⟨⟨text before, rest.drop (Scan.token first rest).further, ?_, ?_⟩, ?_, fun _ => ?_⟩
  · rw [toList_lexeme_read, isSource, append_assoc, cons_append, take_append_drop]
  · rw [toList_lexeme_read, ← Location.advanceOver_start, ← Location.advanceOver_start,
      Location.advanceOver_append]
    rfl
  · intro left isAngle
    rw [toList_lexeme_read]
    change afterAngle? ((Scan.token first rest).kind.atLevel level) = _ at isAngle
    rcases (Scan.token first rest).kind.atLevel_eq_or level with same | isIdentifier
    · rw [same] at isAngle
      rcases Scan.afterAngle?_token first rest with isNone | isSymbol
      · rw [isNone] at isAngle
        cases isAngle
      · rw [isSymbol] at isAngle ⊢
        exact Scan.symbol_of_afterAngle? isAngle
    · rw [isIdentifier] at isAngle
      cases isAngle
  · rw [toList_lexeme_read]
    exact cons_ne_nil _ _

theorem ne_endOfInput_of_mem_all (isToken : token ∈ all level source) :
    token.kind ≠ .endOfInput := by
  obtain ⟨before, after, split⟩ := mem_iff_append.mp isToken
  obtain ⟨first, rest, _, rfl⟩ := (cut_all level source).eq_read split
  exact kind_read_ne_endOfInput _ _ _ _

theorem stands_endOfInput (text : List Char) : Stands text (endOfInput (.after text)) where
  cut := ⟨text, [], by simp [endOfInput], by simp [endOfInput, Span.point]⟩
  angle _ isAngle := nomatch isAngle
  solid isNoEnd := absurd rfl isNoEnd

theorem stands_of_mem_significant (isToken : token ∈ significant level source) :
    Stands source.toList token := by
  rcases mem_append.mp isToken with isKept | isEnd
  · exact stands_of_mem_all (mem_of_mem_filter isKept)
  · cases mem_singleton.mp isEnd
    rw [Location.advanceOver_start]
    exact stands_endOfInput source.toList

theorem stop_offset_le {text : List Char} (stands : Stands text token) :
    token.span.stop.offset ≤ (Location.after text).offset := by
  obtain ⟨before, after, rfl, isSpan⟩ := stands.cut
  rw [isSpan, Location.offset_after_append (before ++ _) after]
  exact Nat.le_add_right _ _

theorem getLast?_significant (level : Level) (source : String) :
    (significant level source).getLast?.map kind = some .endOfInput := by
  rw [significant, getLast?_concat]
  rfl

def Behind (first second : Token) : Prop :=
  first.span.stop.offset ≤ second.span.start.offset ∧
    second.span.start.offset ≤ second.span.stop.offset

instance : Trans Behind Behind Behind :=
  ⟨fun one two => ⟨Nat.le_trans one.1 (Nat.le_trans one.2 two.1), two.2⟩⟩

theorem isChain_significant (level : Level) (source : String) :
    (significant level source).IsChain Behind := by
  have chain : (all level source).IsChain Behind := by
    refine (cut_all level source).isChain.imp_of_mem_imp fun first second _ isSecond adjacent => ?_
    exact ⟨Nat.le_of_eq (congrArg Location.offset adjacent),
      (stands_of_mem_all isSecond).isTrue.ordered⟩
  refine (chain.sublist filter_sublist).append (.singleton _) fun last isLast final isFinal => ?_
  cases isFinal
  have isToken := mem_of_mem_filter (mem_of_getLast? isLast)
  rw [Location.advanceOver_start]
  exact ⟨stop_offset_le (stands_of_mem_all isToken), Nat.le_refl _⟩

end Token

/-! ### The first state -/

namespace Grammar

theorem getLast?_withEnd (tokens : List Token) :
    (withEnd tokens).getLast?.map Token.kind = some .endOfInput := by
  unfold withEnd
  split
  next last isLast =>
    split
    next isEnd => rw [isLast, Option.map_some, isEnd]
    next => rw [getLast?_concat, Option.map_some, Token.endOfInput]
  next => rfl

theorem mem_or_eq_of_mem_withEnd {tokens : List Token} {token : Token}
    (isToken : token ∈ withEnd tokens) : token ∈ tokens ∨ token.kind = .endOfInput := by
  unfold withEnd at isToken
  split at isToken
  · split at isToken
    · exact .inl isToken
    · rcases mem_append.mp isToken with isToken | isEnd
      · exact .inl isToken
      · exact .inr (mem_singleton.mp isEnd ▸ rfl)
  · exact .inr (mem_singleton.mp isToken ▸ rfl)

theorem withEnd_of_ended {tokens : List Token}
    (isEnded : tokens.getLast?.map Token.kind = some .endOfInput) : withEnd tokens = tokens := by
  obtain ⟨last, isLast, isEnd⟩ := Option.map_eq_some_iff.mp isEnded
  unfold withEnd
  rw [isLast]
  exact if_pos isEnd

theorem length_withEnd_le (tokens : List Token) : (withEnd tokens).length ≤ tokens.length + 1 := by
  unfold withEnd
  split
  · split
    · exact Nat.le_succ _
    · simp
  · simp

theorem tokens_initial (tokens : List Token) : (State.initial tokens).tokens = withEnd tokens := by
  have isEnded := getLast?_withEnd tokens
  unfold State.tokens State.initial
  generalize withEnd tokens = ended at isEnded ⊢
  cases ended with
  | nil => cases isEnded
  | cons first rest => rfl

theorem ready_initial (config : Configuration) (tokens : List Token) :
    Ready ⟨0, none⟩ ⟨config, boundFor tokens.length⟩ (State.initial tokens) where
  ended := by
    rw [tokens_initial]
    exact getLast?_withEnd tokens
  bounded := by
    have length := length_withEnd_le tokens
    rw [← tokens_initial, State.tokens, length_cons] at length
    show _ < boundFor tokens.length
    unfold boundFor
    omega
  floor_le := Nat.zero_le _
  depth_le := Nat.zero_le _
  listed := nofun
  unnamed := forall_mem_nil _
  fits := nofun
  located := nofun

theorem located_initial (level : Level) (source : String) :
    Located source.toList (State.initial (Token.significant level source)) := by
  have isTokens :=
    (tokens_initial _).trans (withEnd_of_ended (Token.getLast?_significant level source))
  exact
    { stand := fun token isToken => Token.stands_of_mem_significant (isTokens ▸ isToken)
      ordered := by
        rw [isTokens]
        exact (Token.isChain_significant level source).imp fun _ _ behind => behind.1
      inner := by
        rw [isTokens, Token.significant, dropLast_concat]
        exact fun token isToken => Token.ne_endOfInput_of_mem_all (mem_of_mem_filter isToken)
      previous := fun _ isPrevious => nomatch isPrevious
      found := forall_mem_nil _
      arguments := forall_mem_nil _ }

end Grammar

end JavaFrontEnd
