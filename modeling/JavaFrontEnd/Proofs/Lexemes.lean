/-
Cutting a text into tokens loses nothing and its positions are true: each token is what a reader
finds where the tokens before it end, and its span goes from the location of that place to the
location behind its lexeme.
-/

import JavaFrontEnd.Token
import Mathlib.Data.List.Chain

namespace JavaFrontEnd

open List

/-! What every reader of a token keeps to. It counts no further than the text goes, so that a token
has as many characters as its reader says; it never finds the mark that stands after the last token;
and what it calls invalid is one character. A string, a text block or a comment ends at the first
closer that is not escaped; one that is not closed goes to the end of its line or of the text. -/

/-! ### Delimiters -/

structure Delimiters where
  opener : List Char
  closer : List Char
  escapes : Bool
  inLine : Bool

def Delimiters.string : Delimiters := ⟨['"'], ['"'], true, true⟩

def Delimiters.block : Delimiters := ⟨['"', '"', '"'], ['"', '"', '"'], true, false⟩

def Delimiters.comment : Delimiters := ⟨['/', '*'], ['*', '/'], false, false⟩

def TokenKind.delimiters? : TokenKind → Option Delimiters
  | .stringLiteral => some .string
  | .textBlock => some .block
  | .blockComment => some .comment
  | _ => none

def endsLine (character : Char) : Bool :=
  character = '\n' || character = '\r'

def isEscapedAfter (text : List Char) : Bool :=
  (text.reverse.takeWhile (· = '\\')).length % 2 = 1

@[simp]
theorem isEscapedAfter_append (text : List Char) (character : Char) :
    isEscapedAfter (text ++ [character]) = (character = '\\' && !isEscapedAfter text) := by
  unfold isEscapedAfter
  rw [reverse_append, reverse_singleton, singleton_append, takeWhile_cons]
  by_cases isBackslash : character = '\\'
  · simp only [isBackslash, decide_true, if_true, length_cons, Bool.true_and]
    rw [← decide_not, decide_eq_decide]
    omega
  · simp [isBackslash]

namespace Delimiters

structure Passes (delimiters : Delimiters) (body after : List Char) : Prop where
  inLine : delimiters.inLine = true → ∀ character ∈ body, endsLine character = false
  closers : ∀ place < body.length, delimiters.closer <+: (body ++ after).drop place →
    delimiters.escapes = true ∧ isEscapedAfter (body.take place) = true

def ending (delimiters : Delimiters) (closed : Bool) : List Char :=
  if closed then delimiters.closer else []

/-- The body of a token, with the text after the token, ends where it has to: at a closer that
counts, or else at the end of the text or, if the token must not go further, of the line. -/
structure Ends (delimiters : Delimiters) (closed : Bool) (body after : List Char) : Prop where
  passes : delimiters.Passes body (delimiters.ending closed ++ after)
  counts : closed = true → delimiters.escapes = true → isEscapedAfter body = false
  runsOut : closed = false → after = [] ∨
    delimiters.inLine = true ∧ ∃ character ∈ after.head?, endsLine character = true

/-- What a scanner says about a text behind an opener: whether the token is closed, and how much of
the text it takes. -/
def Finds (delimiters : Delimiters) (text : List Char) (result : Bool × Nat) : Prop :=
  ∃ body after, text = body ++ delimiters.ending result.1 ++ after ∧
    result.2 = (body ++ delimiters.ending result.1).length ∧ delimiters.Ends result.1 body after

variable {delimiters : Delimiters} {body after : List Char} {character : Char}

theorem Passes.nil : delimiters.Passes [] after :=
  ⟨fun _ => forall_mem_nil _, nofun⟩

theorem Passes.step (passes : delimiters.Passes body (character :: after))
    (staysInLine : delimiters.inLine = true → endsLine character = false)
    (isNoCloser : delimiters.closer <+: character :: after →
      delimiters.escapes = true ∧ isEscapedAfter body = true) :
    delimiters.Passes (body ++ [character]) after where
  inLine isInLine := forall_mem_append.mpr
    ⟨passes.inLine isInLine, forall_mem_singleton.mpr (staysInLine isInLine)⟩
  closers place isPlace := by
    rw [append_assoc, singleton_append]
    rcases Nat.lt_or_ge place body.length with isEarlier | isLast
    · rw [take_append_of_le_length (Nat.le_of_lt isEarlier)]
      exact passes.closers place isEarlier
    · rw [length_append, length_singleton] at isPlace
      obtain rfl : place = body.length := by omega
      rw [drop_left, take_left]
      exact isNoCloser

theorem Passes.finds (passes : delimiters.Passes body after) (isOver : after = [] ∨
      delimiters.inLine = true ∧ ∃ character ∈ after.head?, endsLine character = true) :
    delimiters.Finds (body ++ after) (false, body.length) :=
  ⟨body, after, by simp [ending], by simp [ending], passes, nofun, fun _ => isOver⟩

theorem Passes.closed (passes : delimiters.Passes body (delimiters.closer ++ after))
    (counts : delimiters.escapes = true → isEscapedAfter body = false) :
    delimiters.Finds (body ++ (delimiters.closer ++ after))
      (true, body.length + delimiters.closer.length) :=
  ⟨body, after, by simp [ending], by simp [ending], passes, fun _ => counts, nofun⟩

theorem Finds.le (finds : delimiters.Finds text result) : result.2 ≤ text.length := by
  obtain ⟨body, after, rfl, isCount, _⟩ := finds
  exact isCount ▸ (prefix_append ..).length_le

end Delimiters

namespace Scan

variable (rest characters : List Char)

/-- A reading fits the text that begins with the first character of its token. -/
structure Reading.Fits (reading : Reading) (first : Char) (rest : List Char) : Prop where
  within : reading.further ≤ rest.length
  isNoEnd : reading.kind ≠ .endOfInput
  invalidAlone : reading.kind = .invalid → reading.further = 0
  ends : ∀ delimiters, reading.kind.delimiters? = some delimiters → ∃ text count,
    first :: rest = delimiters.opener ++ text ∧
      reading.further + 1 = delimiters.opener.length + count ∧
      delimiters.Finds text (reading.closed, count)

def isPlain (kind : TokenKind) : Bool :=
  kind != .endOfInput && kind != .invalid && kind.delimiters?.isNone

theorem Reading.Fits.of_kind {reading : Reading} {rest : List Char}
    (within : reading.further ≤ rest.length) (plain : isPlain reading.kind = true := by rfl) :
    reading.Fits first rest := by
  simp only [isPlain, Bool.and_eq_true, bne_iff_ne, Option.isNone_iff_eq_none] at plain
  obtain ⟨⟨isNoEnd, isValid⟩, isBare⟩ := plain
  exact ⟨within, isNoEnd, fun isInvalid => absurd isInvalid isValid,
    fun _ isDelimited => nomatch isBare.symm.trans isDelimited⟩

theorem Reading.Fits.of_finds {rest : List Char} {reading : Reading}
    {delimiters : Delimiters} {count : Nat} (isKind : reading.kind.delimiters? = some delimiters)
    (isText : first :: rest = delimiters.opener ++ text)
    (isCount : reading.further + 1 = delimiters.opener.length + count)
    (finds : delimiters.Finds text (reading.closed, count)) : reading.Fits first rest where
  within := by
    have isWithin := finds.le
    have length := congrArg List.length isText
    rw [length_cons, length_append] at length
    dsimp only at isWithin
    omega
  isNoEnd isEnd := by rw [isEnd] at isKind; cases isKind
  invalidAlone isInvalid := by rw [isInvalid] at isKind; cases isKind
  ends _ isSame := by
    cases isKind.symm.trans isSame
    exact ⟨text, count, isText, isCount, finds⟩

theorem runLength_le (accepts : Char → Bool) (characters : List Char) :
    runLength accepts characters ≤ characters.length :=
  (takeWhile_sublist accepts).length_le

/-! ### Words -/

theorem isPlain_wordKind (word : String) : isPlain (wordKind word) = true := by
  have table : ∀ entry ∈ TokenKind.keywords, isPlain entry.2 = true := by decide
  unfold wordKind
  cases found : TokenKind.keywords.lookup word with
  | none => decide
  | some kind =>
    obtain ⟨before, after, isEntry, _⟩ := lookup_eq_some_iff.mp found
    exact table (word, kind) (by rw [isEntry]; simp)

theorem word_fits (first : Char) (rest : List Char) : (word first rest).Fits first rest :=
  .of_kind (runLength_le isWordPart rest) (isPlain_wordKind _)

/-! ### Numbers -/

theorem oneIf_le (accepts : Char → Bool) (characters : List Char) :
    oneIf accepts characters ≤ characters.length := by
  cases characters with
  | nil => exact Nat.le_refl 0
  | cons character rest =>
    rw [oneIf, length_cons]
    split <;> omega

theorem exponentLength_le : exponentLength characters ≤ characters.length := by
  have digitsLe := runLength_le Char.isDigit
  unfold exponentLength
  dsimp only
  split
  next mark rest =>
    split
    · split
      next digits =>
        have counted := digitsLe digits
        split <;> simp only [length_cons] <;> omega
      next digits =>
        have counted := digitsLe digits
        split <;> simp only [length_cons] <;> omega
      next =>
        have counted := digitsLe rest
        split <;> simp only [length_cons] <;> omega
    · exact Nat.zero_le _
  next => exact Nat.zero_le _

theorem floatTailLength_le : floatTailLength characters ≤ characters.length := by
  have exponent := exponentLength_le characters
  have suffix := oneIf_le isFloatSuffix (characters.drop (exponentLength characters))
  rw [length_drop] at suffix
  unfold floatTailLength
  dsimp only
  omega

theorem integer_fits {rest : List Char} (within : further ≤ rest.length) :
    (integer rest further).Fits first rest := by
  have length : (rest.drop further).length = rest.length - further := length_drop
  unfold integer
  split
  next isLong =>
    rw [isLong, length_cons] at length
    exact .of_kind (by dsimp only; omega)
  next isLong =>
    rw [isLong, length_cons] at length
    exact .of_kind (by dsimp only; omega)
  next => exact .of_kind within

theorem radixDigits?_le {rest : List Char} (found : radixDigits? first rest = some further) :
    further ≤ rest.length := by
  have counted : ∀ {accepts : Char → Bool} {digits : List Char},
      some (runLength accepts digits + 1) = some further → further ≤ digits.length + 1 := by
    intro accepts digits isFound
    rw [← Option.some.inj isFound]
    exact Nat.add_le_add_right (runLength_le accepts digits) 1
  unfold radixDigits? at found
  dsimp only at found
  split at found
  · cases found
  · split at found
    · split at found
      · cases found
      · exact counted found
    · split at found
      · cases found
      · exact counted found
    · split at found
      · cases found
      · exact counted found
    · split at found
      · cases found
      · exact counted found
    · cases found

theorem number_fits (first : Char) (rest : List Char) : (number first rest).Fits first rest := by
  unfold number
  split
  next further found => exact integer_fits (radixDigits?_le found)
  next =>
    have whole := runLength_le isDigitPart rest
    have length : (rest.drop (runLength isDigitPart rest)).length =
        rest.length - runLength isDigitPart rest := length_drop
    dsimp only
    split
    next fraction isFraction =>
      have places := runLength_le isDigitPart fraction
      have tail := floatTailLength_le (fraction.drop (runLength isDigitPart fraction))
      rw [length_drop] at tail
      rw [isFraction, length_cons] at length
      exact .of_kind (by dsimp only; omega)
    next =>
      have tail := floatTailLength_le (rest.drop (runLength isDigitPart rest))
      split
      next => exact integer_fits whole
      next => exact .of_kind (by dsimp only; omega)

theorem fraction_fits : (fraction rest).Fits first rest := by
  have places := runLength_le isDigitPart rest
  have tail := floatTailLength_le (rest.drop (runLength isDigitPart rest))
  rw [length_drop] at tail
  exact .of_kind (by unfold fraction; dsimp only; omega)

/-! ### Strings, characters and comments -/

section Scanners

variable {body characters : List Char} {count : Nat} (isCount : count = body.length)
include isCount

theorem stringEnd_finds (passes : Delimiters.string.Passes body characters)
    (isFlag : escaped = isEscapedAfter body) :
    Delimiters.string.Finds (body ++ characters) (stringEnd escaped count characters) := by
  fun_induction stringEnd escaped count characters generalizing body with
  | case1 => exact isCount ▸ passes.finds (.inl rfl)
  | case2 _ _ character _ isEnd => exact isCount ▸ passes.finds (.inr ⟨rfl, character, rfl, isEnd⟩)
  | case3 _ _ _ isNoEnd ih =>
    rw [append_cons]
    refine ih (by simp [isCount]) (passes.step (fun _ => Bool.eq_false_iff.mpr isNoEnd) ?_)
      (by simp [← isFlag])
    exact fun _ => ⟨rfl, isFlag.symm⟩
  | case4 _ _ _ isUnescaped isNoEnd ih =>
    rw [append_cons]
    refine ih (by simp [isCount]) (passes.step (fun _ => rfl) ?_) (by simp [← isFlag, isUnescaped])
    exact fun isCloser => absurd (cons_prefix_cons.mp isCloser).1 (by decide)
  | case5 =>
    exact isCount ▸ passes.closed (by simp_all)
  | case6 _ _ character _ isNoEnd _ isNoBackslash isNoQuote ih =>
    rw [append_cons]
    refine ih (by simp [isCount]) (passes.step (fun _ => Bool.eq_false_iff.mpr isNoEnd) ?_)
      (by simp [isNoBackslash])
    exact fun isCloser => absurd (cons_prefix_cons.mp isCloser).1.symm isNoQuote

theorem textBlockEnd_finds (passes : Delimiters.block.Passes body characters)
    (isUnescaped : isEscapedAfter body = false) :
    Delimiters.block.Finds (body ++ characters) (textBlockEnd count characters) := by
  have backslash : ∀ {rest}, ¬ Delimiters.block.closer <+: '\\' :: rest := fun isCloser =>
    absurd (cons_prefix_cons.mp isCloser).1 (by decide)
  fun_induction textBlockEnd count characters generalizing body with
  | case1 => exact isCount ▸ passes.finds (.inl rfl)
  | case2 =>
    have found := (passes.step nofun fun isCloser => absurd isCloser backslash).finds (.inl rfl)
    simpa [isCount] using found
  | case3 _ escaped _ ih =>
    rw [append_cons, append_cons]
    refine ih (by simp [isCount])
      ((passes.step nofun fun isCloser => absurd isCloser backslash).step nofun ?_) ?_
    · exact fun _ => ⟨rfl, by simp [isUnescaped]⟩
    · rw [isEscapedAfter_append, isEscapedAfter_append, isUnescaped]
      exact Bool.and_false _
  | case4 => exact isCount ▸ passes.closed fun _ => isUnescaped
  | case5 _ character rest isNoLast isNoEscape isNoCloser ih =>
    rw [append_cons]
    refine ih (by simp [isCount]) (passes.step nofun ?_) ?_
    · rintro ⟨tail, isCloser⟩
      cases isCloser
      exact absurd rfl (isNoCloser tail rfl)
    · have isNoBackslash : character ≠ '\\' := by
        rintro rfl
        cases rest with
        | nil => exact isNoLast rfl rfl
        | cons => exact isNoEscape _ _ rfl rfl
      simp [isNoBackslash]

theorem commentEnd_finds (passes : Delimiters.comment.Passes body characters) :
    Delimiters.comment.Finds (body ++ characters) (commentEnd count characters) := by
  fun_induction commentEnd count characters generalizing body with
  | case1 => exact isCount ▸ passes.finds (.inl rfl)
  | case2 => exact isCount ▸ passes.closed nofun
  | case3 _ _ _ isNoCloser ih =>
    rw [append_cons]
    refine ih (by simp [isCount]) (passes.step nofun ?_)
    rintro ⟨tail, isCloser⟩
    cases isCloser
    exact absurd rfl (isNoCloser tail rfl)

end Scanners

theorem closingQuote?_lt {count : Nat} {characters : List Char}
    (found : closingQuote? escaped count characters = some position) :
    position < count + characters.length := by
  induction characters generalizing escaped count with
  | nil => cases found
  | cons character rest ih =>
    have further : ∀ {escaped}, closingQuote? escaped (count + 1) rest = some position →
        position < count + (character :: rest).length := by
      intro escaped isLater
      have later := ih isLater
      rw [length_cons]
      omega
    rw [closingQuote?] at found
    split at found
    · cases found
    split at found
    · exact further found
    split at found
    · exact further found
    split at found
    · cases found
      exact Nat.lt_add_of_pos_right (Nat.succ_pos _)
    · exact further found

theorem charLiteral_fits : (charLiteral rest).Fits first rest := by
  unfold charLiteral
  split
  next count found =>
    have within := closingQuote?_lt found
    rw [Nat.zero_add] at within
    exact .of_kind within
  next => exact .of_kind (oneIf_le _ rest)

/-! ### Every token -/

theorem symbol_fits (first : Char) : (symbol first rest).Fits first rest := by
  have table : ∀ entry ∈ TokenKind.symbols, isPlain entry.2 = true := by decide
  unfold symbol
  split
  next entry found =>
    obtain ⟨listed, isListed, rfl⟩ := mem_map.mp (mem_of_find?_eq_some found)
    have isPrefix : listed.1.toList.isPrefixOf (first :: rest) = true := find?_some
      (p := fun entry : List Char × TokenKind => entry.1.isPrefixOf (first :: rest)) found
    have within := ( isPrefixOf_iff_prefix.mp isPrefix).length_le
    exact .of_kind (Nat.sub_le_of_le_add within) (table listed isListed)
  next => exact ⟨Nat.zero_le _, nofun, fun _ => rfl, nofun⟩

theorem token_fits (first : Char) (rest : List Char) : (token first rest).Fits first rest := by
  unfold token
  split
  · exact word_fits first rest
  split
  · exact .of_kind (runLength_le isSpace rest)
  split
  · exact number_fits first rest
  split
  · exact .of_kind (Nat.zero_le _)
  split
  · refine .of_kind ?_
    rw [length_cons, Nat.add_comm]
    exact Nat.add_le_add_right (runLength_le _ _) 1
  · exact .of_finds rfl rfl (Nat.add_comm _ 2) (commentEnd_finds rfl .nil)
  · exact .of_finds rfl rfl (Nat.add_comm _ 3) (textBlockEnd_finds rfl .nil rfl)
  · exact .of_finds rfl rfl (Nat.add_comm ..) (stringEnd_finds rfl .nil rfl)
  · exact charLiteral_fits _
  · split
    · exact fraction_fits _
    · exact symbol_fits ..
  · exact symbol_fits ..

end Scan

/-! ### Locations -/

namespace Location

variable (text : List Char)

/-- The location behind a text, told from the text as a whole: the line ends in it, the characters
with a width since the last of them, and the bytes. -/
def after (text : List Char) : Location where
  line := text.count '\n' + 1
  column := (text.reverse.takeWhile (· ≠ '\n')).countP (· ≠ '\r') + 1
  offset := (String.ofList text).utf8ByteSize

theorem advance_after (character : Char) :
    (after text).advance character = after (text ++ [character]) := by
  have bytes : (String.ofList (text ++ [character])).utf8ByteSize =
      (String.ofList text).utf8ByteSize + character.utf8Size := by simp
  unfold advance after
  rw [bytes, count_append, reverse_append, reverse_singleton, singleton_append, takeWhile_cons]
  by_cases endsLine : character = '\n'
  · simp [endsLine]
  · by_cases isReturn : character = '\r'
    · simp [isReturn]
    · simp [endsLine, isReturn]

theorem advanceOver_after (more : List Char) :
    (after text).advanceOver more = after (text ++ more) := by
  induction more generalizing text with
  | nil => rw [advanceOver_nil, append_nil]
  | cons character rest ih =>
    rw [advanceOver_cons, advance_after, ih, append_assoc, singleton_append]

theorem advanceOver_start : start.advanceOver text = after text :=
  advanceOver_after [] text

end Location

theorem TokenKind.atLevel_eq_or (kind : TokenKind) (level : Level) :
    kind.atLevel level = kind ∨ kind.atLevel level = .identifier := by
  have either : ∀ (allowed : Bool) (reserved : TokenKind),
      (if allowed then reserved else .identifier) = reserved ∨
        (if allowed then reserved else .identifier) = TokenKind.identifier := by
    intro allowed reserved
    cases allowed
    · exact .inr rfl
    · exact .inl rfl
  unfold atLevel
  split
  · exact either _ _
  · exact either _ _
  · exact either _ _
  · exact .inl rfl

namespace Token

variable (level : Level) (location : Location)

/-! ### One token after the other -/

def text (tokens : List Token) : List Char :=
  tokens.flatMap fun token => token.lexeme.toList

def read (level : Level) (location : Location) (first : Char) (rest : List Char) : Token :=
  let reading := Scan.token first rest
  let characters := first :: rest.take reading.further
  { kind := reading.kind.atLevel level, closed := reading.closed
    lexeme := String.ofList characters, span := ⟨location, location.advanceOver characters⟩ }

theorem toList_lexeme_read (first : Char) (rest : List Char) :
    (read level location first rest).lexeme.toList =
      first :: rest.take (Scan.token first rest).further :=
  String.toList_ofList

theorem text_read_cons (first : Char) (rest : List Char) (tokens : List Token) :
    text (read level location first rest :: tokens) =
      first :: rest.take (Scan.token first rest).further ++ text tokens := by
  unfold text
  rw [flatMap_cons, toList_lexeme_read]

/-- The tokens of a text that begins at a location: each is read where the one before it ends. -/
inductive Cut (level : Level) : Location → List Char → List Token → Prop where
  | nothing (location : Location) : Cut level location [] []
  | more (location : Location) (first : Char) (rest : List Char) {tokens : List Token}
      (later : Cut level (read level location first rest).span.stop
        (rest.drop (Scan.token first rest).further) tokens) :
      Cut level location (first :: rest) (read level location first rest :: tokens)

theorem exists_cut (before : Array Token) (characters : List Char) :
    ∃ tokens, (cut level location before characters).toList = before.toList ++ tokens ∧
      Cut level location characters tokens := by
  fun_induction cut level location before characters with
  | case1 location before => exact ⟨[], (append_nil _).symm, .nothing location⟩
  | case2 location before first rest _ _ _ _ ih =>
    obtain ⟨tokens, listed, later⟩ := ih
    refine ⟨read level location first rest :: tokens, ?_, .more location first rest later⟩
    rw [listed, Array.toList_push, append_assoc, singleton_append]
    rfl

theorem cut_all (source : String) : Cut level .start source.toList (all level source) := by
  obtain ⟨tokens, listed, isCut⟩ := exists_cut level .start #[] source.toList
  rwa [all, listed]

namespace Cut

variable {level : Level} {location : Location} {characters : List Char} {tokens : List Token}

theorem text_eq (isCut : Cut level location characters tokens) : text tokens = characters := by
  induction isCut with
  | nothing => rfl
  | more location first rest later ih =>
    rw [text_read_cons, ih, cons_append, take_append_drop]

theorem isChain (isCut : Cut level location characters tokens) :
    tokens.IsChain fun first second => first.span.stop = second.span.start := by
  induction isCut with
  | nothing => exact .nil
  | more location first rest later ih =>
    generalize rest.drop (Scan.token first rest).further = remaining at later
    cases later with
    | nothing => exact .singleton _
    | more => exact .cons_cons rfl ih

theorem eq_read (isCut : Cut level location characters tokens) {after : List Token}
    (split : tokens = before ++ token :: after) :
    ∃ first rest, characters = text before ++ first :: rest ∧
      token = read level (location.advanceOver (text before)) first rest := by
  induction isCut generalizing before with
  | nothing => cases before <;> cases split
  | more location first rest later ih =>
    cases before with
    | nil =>
      cases split
      exact ⟨first, rest, rfl, rfl⟩
    | cons head before =>
      obtain ⟨rfl, splitRest⟩ := cons.inj split
      obtain ⟨next, others, isRest, isRead⟩ := ih splitRest
      refine ⟨next, others, ?_, ?_⟩
      · rw [text_read_cons, append_assoc, ← isRest, cons_append, take_append_drop]
      · rw [text_read_cons, Location.advanceOver_append]
        exact isRead

end Cut

/-! ### What a token looks like -/

theorem length_lexeme_read (first : Char) (rest : List Char) :
    (read level location first rest).lexeme.length = (Scan.token first rest).further + 1 := by
  rw [← String.length_toList, toList_lexeme_read, length_cons, length_take,
    Nat.min_eq_left (Scan.token_fits first rest).within]

theorem kind_read_ne_endOfInput (level : Level) (location : Location) (first : Char)
    (rest : List Char) : (read level location first rest).kind ≠ .endOfInput := by
  have isNoEnd := (Scan.token_fits first rest).isNoEnd
  show (Scan.token first rest).kind.atLevel level ≠ _
  rcases (Scan.token first rest).kind.atLevel_eq_or level with same | isIdentifier
  · rwa [same]
  · rw [isIdentifier]
    decide

theorem further_eq_zero_of_invalid {level : Level} {location : Location}
    (isInvalid : (read level location first rest).kind = .invalid) :
    (Scan.token first rest).further = 0 := by
  refine (Scan.token_fits first rest).invalidAlone ?_
  change (Scan.token first rest).kind.atLevel level = _ at isInvalid
  rcases (Scan.token first rest).kind.atLevel_eq_or level with same | isIdentifier
  · rwa [same] at isInvalid
  · rw [isIdentifier] at isInvalid
    cases isInvalid

/-! ### The partition -/

/-- The tokens of a text make up the text. None is empty or an end mark, and an invalid one is a
single character. Each begins where the one before it ends; it is what the reader finds there, and
its span goes from the location behind the text before it to that behind its own text, where a
location counts the lines, columns and bytes before it. The grammar sees the tokens other than
white space and comments, and after them one end mark at the location behind the whole text. -/
theorem all_partition (level : Level) (source : String) :
    text (all level source) = source.toList ∧
    (∀ before token after, all level source = before ++ token :: after →
      token.lexeme ≠ "" ∧ token.kind ≠ .endOfInput ∧
      (token.kind = .invalid → token.lexeme.length = 1) ∧
      token.span = ⟨Location.start.advanceOver (text before),
        Location.start.advanceOver (text before ++ token.lexeme.toList)⟩ ∧
      ∃ first rest, source.toList = text before ++ first :: rest ∧
        token.kind = (Scan.token first rest).kind.atLevel level ∧
        token.closed = (Scan.token first rest).closed ∧
        token.lexeme.length = (Scan.token first rest).further + 1) ∧
    (all level source).IsChain (fun first second => first.span.stop = second.span.start) ∧
    (∀ characters, Location.start.advanceOver characters = .after characters) ∧
    significant level source =
      (all level source).filter (fun token => !token.kind.isTrivia) ++
        [{ kind := .endOfInput, lexeme := "", span := .point (.after source.toList) }] := by
  have isCut := cut_all level source
  refine ⟨isCut.text_eq, ?_, isCut.isChain, Location.advanceOver_start, ?_⟩
  · intro before token after split
    obtain ⟨first, rest, isSource, rfl⟩ := isCut.eq_read split
    have length := length_lexeme_read level (Location.start.advanceOver (text before)) first rest
    refine ⟨?_, kind_read_ne_endOfInput _ _ _ _, ?_, ?_, first, rest, isSource, rfl, rfl, length⟩
    · intro isEmpty
      rw [isEmpty] at length
      exact absurd length.symm (Nat.succ_ne_zero _)
    · intro isInvalid
      rw [length, further_eq_zero_of_invalid isInvalid]
    · rw [Location.advanceOver_append, toList_lexeme_read]
      rfl
  · rw [← Location.advanceOver_start]
    rfl

/-! ### The ends of delimited tokens -/

theorem kind_of_delimiters?_read (isKind :
      (read level location first rest).kind.delimiters? = some delimiters) :
    (Scan.token first rest).kind.delimiters? = some delimiters := by
  change ((Scan.token first rest).kind.atLevel level).delimiters? = _ at isKind
  rcases (Scan.token first rest).kind.atLevel_eq_or level with same | isIdentifier
  · rwa [same] at isKind
  · rw [isIdentifier] at isKind
    cases isKind

/-- A string, a text block or a comment is its opener, a body and, when it is closed, its closer.
It ends as early as it may: every closer that begins in the body is escaped, by an odd number of
backslashes of the body itself, and the closer at its end is not. The body of a string is on one
line. A token that is not closed goes to the end of the text, a string to the end of its line. -/
theorem all_delimited (level : Level) (source : String) (before after : List Token) (token : Token)
    (split : all level source = before ++ token :: after) (delimiters : Delimiters)
    (isKind : token.kind.delimiters? = some delimiters) :
    ∃ body, token.lexeme.toList = delimiters.opener ++ (body ++ delimiters.ending token.closed) ∧
      delimiters.Ends token.closed body (text after) := by
  have isCut := cut_all level source
  obtain ⟨first, rest, isSource, isRead⟩ := isCut.eq_read split
  have isText := isCut.text_eq
  rw [split, isSource, text, flatMap_append, flatMap_cons, ← text, ← text,
    append_cancel_left_eq] at isText
  subst isRead
  obtain ⟨_, count, isOpened, isCount, body, ahead, rfl, isLength, ends⟩ :=
    (Scan.token_fits first rest).ends delimiters (kind_of_delimiters?_read _ _ isKind)
  rw [isOpened, ← append_assoc] at isText
  obtain ⟨isLexeme, rfl⟩ := append_inj isText (by
    rw [String.length_toList, length_lexeme_read, length_append, isCount]
    exact congrArg _ isLength)
  exact ⟨body, isLexeme, ends⟩

/-- The quote behind a backslash does not close the string before it. -/
theorem all_delimited_escaped_quote : ∃ token, all .latest "\"\\\"" = [] ++ token :: [] ∧
    ∃ body, token.lexeme.toList =
        Delimiters.string.opener ++ (body ++ Delimiters.string.ending token.closed) ∧
      Delimiters.string.Ends token.closed body (text []) := by
  have isToken : all .latest "\"\\\"" = [] ++ read .latest .start '"' ['\\', '"'] :: [] := by
    rw [all, show "\"\\\"".toList = ['"', '\\', '"'] from rfl, cut,
      show drop (Scan.token '"' ['\\', '"']).further ['\\', '"'] = [] by decide, cut]
    rfl
  exact ⟨_, isToken, all_delimited _ _ _ _ _ isToken _ rfl⟩

end Token

end JavaFrontEnd
