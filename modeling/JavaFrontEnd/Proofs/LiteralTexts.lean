/-
The texts between the quotes of literals.
-/

import JavaFrontEnd.Literal
import Mathlib.Data.List.Forall2
import Mathlib.Data.List.TakeWhile

namespace JavaFrontEnd

open List

/-! What a text block keeps of its lines. The indentation that the lines lose is counted in bytes,
so it may end inside a character. Otherwise each line only loses blanks, but a last line that is
empty is lost together with the line end before it. -/

/-! ### Bytes and lines -/

namespace Text

theorem foldl_utf8Size (text : List Char) (start : Nat) :
    text.foldl (fun length character => length + character.utf8Size) start =
      start + byteLength text := by
  unfold byteLength
  induction text generalizing start with
  | nil => rfl
  | cons character rest inductionHypothesis =>
    rw [foldl_cons, foldl_cons, inductionHypothesis, inductionHypothesis (0 + _)]
    omega

theorem byteLength_cons :
    byteLength (character :: rest) = character.utf8Size + byteLength rest := by
  rw [← foldl_utf8Size, byteLength, foldl_cons, Nat.zero_add]

theorem byteLength_append (first second : List Char) :
    byteLength (first ++ second) = byteLength first + byteLength second := by
  rw [← foldl_utf8Size, byteLength, foldl_append, byteLength]

theorem lines_go (noReturn : '\r' ∉ current) (noEnd : '\n' ∉ current) (noLater : '\r' ∉ rest) :
    ∃ more, lines.go done current rest = done.reverse ++ more ∧
      (more = [] ↔ current = [] ∧ rest = []) ∧ (∀ line ∈ more, '\n' ∉ line) ∧
      current.reverse ++ rest = ['\n'].intercalate more ++
        if rest.getLast? = some '\n' then ['\n'] else [] := by
  induction rest generalizing done current with
  | nil =>
    cases current with
    | nil => exact ⟨[], by simp [lines.go]⟩
    | cons last before =>
      refine ⟨[(last :: before).reverse], ?_⟩
      simp_all [lines.go]
  | cons character rest ih =>
    by_cases isEnd : character = '\n'
    · subst isEnd
      obtain ⟨more, isGo, isNil, noEnds, isText⟩ :=
        @ih [] (current.reverse :: done) not_mem_nil not_mem_nil (not_mem_of_not_mem_cons noLater)
      rw [lines.go.eq_3 done current rest fun before isReturn =>
        noReturn (isReturn ▸ mem_cons_self), isGo]
      refine ⟨current.reverse :: more, by simp, by simp, by simp_all, ?_⟩
      rw [reverse_nil, nil_append] at isText
      by_cases isLast : rest = []
      · simp [isNil.mpr ⟨rfl, isLast⟩, isLast]
      · rw [intercalate_cons_of_ne_nil fun isNone => isLast (isNil.mp isNone).2,
          getLast?_cons_of_ne_nil isLast]
        nth_rw 1 [isText]
        simp
    · obtain ⟨more, isGo, isNil, noEnds, isText⟩ := @ih (character :: current) done
        (not_mem_cons_of_ne_of_not_mem (ne_of_not_mem_cons noLater) noReturn)
        (not_mem_cons_of_ne_of_not_mem (Ne.symm isEnd) noEnd) (not_mem_of_not_mem_cons noLater)
      refine ⟨more, by rw [lines.go.eq_4 _ _ _ _ isEnd, isGo], by simp_all, noEnds, ?_⟩
      rw [reverse_cons, append_assoc, singleton_append] at isText
      rw [isText]
      cases rest with
      | nil => simp [isEnd]
      | cons => rw [getLast?_cons_cons]

end Text

namespace LiteralText

open Text

/-- A number of bytes from the start of a line ends inside one of its characters. -/
def EndsInside (margin : Nat) (line : List Char) : Prop :=
  ∃ before character after, line = before ++ character :: after ∧
    byteLength before < margin ∧ margin < byteLength before + character.utf8Size

theorem dropBytes_eq_none_iff (isLong : margin ≤ byteLength line) :
    dropBytes margin line = none ↔ EndsInside margin line := by
  fun_induction dropBytes margin line with
  | case1 => simp [EndsInside]
  | case2 => exact absurd isLong (Nat.not_succ_le_zero _)
  | case3 margin first rest isWhole inductionHypothesis =>
    rw [byteLength_cons] at isLong
    rw [inductionHypothesis (by omega)]
    constructor
    · rintro ⟨before, character, after, rfl, isWithin⟩
      refine ⟨first :: before, character, after, rfl, ?_⟩
      rw [byteLength_cons]
      omega
    · rintro ⟨before, character, after, isLine, isWithin⟩
      cases before with
      | nil =>
        cases isLine
        have isBefore : margin + 1 < 0 + first.utf8Size := isWithin.2
        omega
      | cons =>
        cases isLine
        rw [byteLength_cons] at isWithin
        exact ⟨_, _, _, rfl, by omega⟩
  | case4 margin first rest isCut =>
    refine iff_of_true rfl ⟨[], first, rest, rfl, Nat.succ_pos margin, ?_⟩
    show margin + 1 < 0 + first.utf8Size
    omega

theorem unindent?_eq_none_iff : unindent? margin line = none ↔ EndsInside margin line := by
  unfold unindent?
  split
  case isTrue isLong => exact dropBytes_eq_none_iff isLong
  case isFalse isShort =>
    refine iff_of_false (Option.some_ne_none _) ?_
    rintro ⟨before, character, after, rfl, isWithin⟩
    rw [byteLength_append, byteLength_cons] at isShort
    omega

theorem mapM_eq_none_iff {f : List Char → Option (List Char)} {lines : List (List Char)} :
    lines.mapM f = none ↔ ∃ line ∈ lines, f line = none := by
  induction lines with
  | nil => simp
  | cons line rest inductionHypothesis =>
    rw [mapM_cons, exists_mem_cons_iff, ← inductionHypothesis]
    cases f line <;> cases rest.mapM f <;> simp

theorem forall₂_of_mapM {f : List Char → Option (List Char)} {lines kept : List (List Char)}
    (areKept : lines.mapM f = some kept) : Forall₂ (fun line left => f line = some left) lines
      kept := by
  induction lines generalizing kept with
  | nil =>
    cases areKept
    exact .nil
  | cons line rest inductionHypothesis =>
    rw [mapM_cons] at areKept
    obtain ⟨left, isLeft, areLater⟩ := Option.bind_eq_some_iff.mp areKept
    obtain ⟨later, isLater, isKept⟩ := Option.bind_eq_some_iff.mp areLater
    cases isKept
    exact .cons isLeft (inductionHypothesis isLater)

/-- A text block has no value exactly if its indentation ends inside a character of one of its
lines. -/
theorem textBlock?_eq_none_iff (raw : List Char) : textBlock? raw = none ↔
    ∃ line ∈ blockLines raw, EndsInside (indentation (blockLines raw)) line := by
  have isNone : textBlock? raw = none ↔
      (blockLines raw).mapM (unindent? (indentation (blockLines raw))) = none := by
    show (Option.bind _ fun kept => some _) = none ↔ _
    cases (blockLines raw).mapM (unindent? (indentation (blockLines raw))) <;> simp
  simp only [isNone, mapM_eq_none_iff, unindent?_eq_none_iff]

/-! ### What is kept -/

/-- What is left of a line that loses some of the blanks that it begins with. -/
def IsUnindented (line left : List Char) : Prop :=
  ∃ blanks, line = blanks ++ left ∧ ∀ blank ∈ blanks, isBlank blank = true

theorem isUnindented_of_dropBytes (isIndented : margin ≤ byteLength (line.takeWhile isBlank))
    (isKept : dropBytes margin line = some kept) :
    IsUnindented line kept := by
  fun_induction dropBytes margin line with
  | case1 line => exact ⟨[], Option.some.inj isKept, forall_mem_nil _⟩
  | case2 => cases isKept
  | case3 margin first rest isWhole ih =>
    rw [takeWhile_cons] at isIndented
    split at isIndented
    case isFalse => cases isIndented
    case isTrue isFirst =>
      rw [byteLength_cons] at isIndented
      obtain ⟨blanks, rfl, areBlank⟩ := ih (by omega) isKept
      exact ⟨first :: blanks, rfl, forall_mem_cons.mpr ⟨isFirst, areBlank⟩⟩
  | case4 => cases isKept

variable {lines : List (List Char)}

theorem indentation_le (isLine : line ∈ lines) (isLong : indentation lines ≤ byteLength line) :
    indentation lines ≤ byteLength (line.takeWhile isBlank) := by
  cases areBlank : line.all isBlank with
  | true => rwa [takeWhile_eq_self_iff.mpr (all_eq_true.mp areBlank)]
  | false =>
    refine min?_getD_le_of_mem (mem_map.mpr ⟨line, mem_filter.mpr ⟨isLine, ?_⟩, rfl⟩)
    rw [areBlank]
    rfl

theorem isUnindented_of_unindent? (isLine : line ∈ lines)
    (isKept : unindent? (indentation lines) line = some kept) : IsUnindented line kept := by
  unfold unindent? at isKept
  split at isKept
  case isTrue isLong => exact isUnindented_of_dropBytes (indentation_le isLine isLong) isKept
  case isFalse =>
    cases isKept
    exact ⟨_, takeWhile_append_dropWhile.symm, fun _ => mem_takeWhile_imp⟩

theorem intercalate_kept (areKept : Forall₂ IsUnindented lines kept)
    (noEnds : ∀ line ∈ lines, '\n' ∉ line) :
    ['\n'].intercalate kept <+ ['\n'].intercalate lines ∧
      (['\n'].intercalate kept).count '\n' = (['\n'].intercalate lines).count '\n' := by
  induction areKept with
  | nil => exact ⟨.refl _, rfl⟩
  | @cons line left lines kept isLeft areKept ih =>
    obtain ⟨noEnd, noneLater⟩ := forall_mem_cons.mp noEnds
    obtain ⟨blanks, rfl, -⟩ := isLeft
    have isSublist := sublist_append_right blanks left
    have sameCount : left.count '\n' = (blanks ++ left).count '\n' := by
      rw [count_eq_zero.mpr noEnd, count_eq_zero.mpr fun isEnd => noEnd (isSublist.subset isEnd)]
    cases areKept with
    | nil => simpa using sameCount
    | cons =>
      obtain ⟨isLater, sameLater⟩ := ih noneLater
      rw [intercalate_cons_cons, intercalate_cons_cons]
      refine ⟨(isSublist.append (.refl _)).append isLater, ?_⟩
      rw [count_append, count_append, count_append, count_append, sameLater, sameCount]

theorem decodeFrom_eq_append (noEscape : '\\' ∉ characters) (done : Array Char) :
    decodeFrom done characters = done ++ characters := by
  fun_induction decodeFrom done characters <;> simp_all

theorem decode_eq_self (noEscape : '\\' ∉ characters) : decode characters = characters := by
  rw [decode, decodeFrom_eq_append noEscape]
  simp

/-- The text of a block without escapes and carriage returns. Its lines are those after the opening
line, each without some of the blanks that it begins with. The end of the last line is lost if
nothing follows it. There is a text unless the indentation ends inside a character. -/
theorem textBlock_lines {opening body : List Char} (noEnd : '\n' ∉ opening)
    (noReturn : '\r' ∉ body) (noEscape : '\\' ∉ body) :
    ∃ lines lost, body = ['\n'].intercalate lines ++ lost ∧ (∀ line ∈ lines, '\n' ∉ line) ∧
      lost = (if body.getLast? = some '\n' then ['\n'] else []) ∧
      (textBlock? (opening ++ '\n' :: body) = none ↔
        ∃ line ∈ lines, EndsInside (indentation lines) line) ∧
      ∀ text ∈ textBlock? (opening ++ '\n' :: body), ∃ kept, text = ['\n'].intercalate kept ∧
        Forall₂ IsUnindented lines kept ∧ text.count '\n' + lost.length = body.count '\n' := by
  obtain ⟨lines, isLines, -, noEnds, isJoined⟩ :=
    @lines_go [] body [] not_mem_nil not_mem_nil noReturn
  have isBody : blockLines (opening ++ '\n' :: body) = lines := by
    unfold blockLines
    rw [dropWhile_append_of_pos (by grind), dropWhile_cons_of_neg (by simp)]
    exact isLines
  refine ⟨lines, _, isJoined, noEnds, rfl, isBody ▸ textBlock?_eq_none_iff _, fun text isText => ?_⟩
  obtain ⟨kept, areKept, isDecoded⟩ := Option.bind_eq_some_iff.mp isText
  rw [isBody] at areKept
  cases isDecoded
  have areKept : Forall₂ IsUnindented lines kept := by
    refine forall₂_iff_get.mpr ⟨(forall₂_of_mapM areKept).length_eq, fun index isLine isKept => ?_⟩
    exact isUnindented_of_unindent? (get_mem ..) ((forall₂_of_mapM areKept).get isLine isKept)
  obtain ⟨isSublist, sameCount⟩ := intercalate_kept areKept noEnds
  have isPlain : decode (['\n'].intercalate kept) = ['\n'].intercalate kept := by
    refine decode_eq_self fun isEscape => noEscape ?_
    rw [← nil_append body, ← reverse_nil, isJoined]
    exact mem_append_left _ (isSublist.subset isEscape)
  refine ⟨kept, isPlain, areKept, ?_⟩
  have isCount := congrArg (count '\n') isJoined
  rw [reverse_nil, nil_append, count_append] at isCount
  rw [isPlain, sameCount, isCount]
  split <;> rfl

theorem textBlock_lines_closed :
    textBlock? "\n    hello\n      world\n".toList = some "hello\n  world".toList ∧
      "hello\n  world".toList.count '\n' + 1 = "    hello\n      world\n".toList.count '\n' := by
  have isText : textBlock? ([] ++ '\n' :: "    hello\n      world\n".toList) =
      some "hello\n  world".toList := by decide +kernel
  obtain ⟨_, _, -, -, rfl, -, shown⟩ :=
    @textBlock_lines [] "    hello\n      world\n".toList not_mem_nil (by decide) (by decide)
  obtain ⟨_, -, -, isCount⟩ := shown _ isText
  exact ⟨isText, isCount⟩

end LiteralText

end JavaFrontEnd

namespace JavaFrontEnd.LiteralText

open List

/-! The characters of character literals. A literal is accepted by its form, but decoded by other
rules: they take a digit less after a first octal digit above three, and have no character for a
surrogate. Other accepted literals stand for one character (`length_decode_characterBody`). -/

/-- An octal escape with three digits, the first of which leaves room for one more only. -/
def isWideOctal : List Char → Bool
  | ['\\', first, _, _] => Scan.isOctalDigit first && !(first ≤ '3')
  | _ => false

/-- A Unicode escape of half a character. An accepted body of this length has no other form. -/
def isSurrogate (body : List Char) : Bool :=
  6 ≤ body.length && (hexNumber? (body.drop (body.length - 4))).any fun code =>
    0xD800 ≤ code && code < 0xE000

/-! ### Single escapes -/

theorem decode_escape (letter : Char)
    (noEscape : '\\' ∉ rest.drop ((escape letter rest).2 - 1)) :
    decode ('\\' :: letter :: rest) =
      (escape letter rest).1 ++ rest.drop ((escape letter rest).2 - 1) := by
  rw [decode, decodeFrom]
  show (decodeFrom (#[] ++ (escape letter rest).1)
    (rest.drop ((escape letter rest).2 - 1))).toList = _
  rw [decodeFrom_eq_append noEscape]
  simp

theorem escape_octal (isDigit : Scan.isOctalDigit letter = true) (rest : List Char) :
    ∃ character, escape letter rest = ([character], 1 + (octalTail letter rest).length) := by
  have isOther (other : Char) (notDigit : Scan.isOctalDigit other = false) : letter ≠ other := by
    rintro rfl
    exact absurd isDigit (Bool.eq_false_iff.mp notDigit)
  rw [escape, if_neg (isOther 'n' rfl), if_neg (isOther 't' rfl), if_neg (isOther 'r' rfl),
    if_neg (isOther 'b' rfl), if_neg (isOther 'f' rfl), if_neg (isOther 's' rfl), if_pos isDigit]
  exact ⟨_, rfl⟩

theorem octalTail_eq (areDigits : rest.all Scan.isOctalDigit = true) (first : Char) :
    octalTail first rest = rest.take (if first ≤ '3' then 2 else 1) := by
  rw [octalTail, takeWhile_eq_self_iff]
  intro digit isTaken
  exact all_eq_true.mp areDigits digit (mem_of_mem_take isTaken)

theorem length_decode_octal (isDigit : Scan.isOctalDigit letter = true)
    (areDigits : rest.all Scan.isOctalDigit = true) (short : rest.length ≤ 2) :
    (decode ('\\' :: letter :: rest)).length =
      if isWideOctal ('\\' :: letter :: rest) then 2 else 1 := by
  obtain ⟨character, isEscape⟩ := escape_octal isDigit rest
  have noEscape : '\\' ∉ rest := fun isRest =>
    absurd (all_eq_true.mp areDigits _ isRest) (by decide)
  rw [decode_escape letter fun isLeft => noEscape (mem_of_mem_drop isLeft), isEscape,
    octalTail_eq areDigits]
  rcases rest with _ | ⟨second, _ | ⟨third, _ | ⟨fourth, more⟩⟩⟩
  · simp [isWideOctal]
  · by_cases small : letter ≤ '3' <;> simp [small, isWideOctal]
  · by_cases small : letter ≤ '3' <;> simp [small, isWideOctal, isDigit]
  · simp at short

theorem drop_takeWhile (test : Char → Bool) (rest : List Char) :
    rest.drop (rest.takeWhile test).length = rest.dropWhile test :=
  (congrArg _ takeWhile_append_dropWhile.symm).trans drop_left

theorem escape_unicode (rest : List Char) : escape 'u' rest =
    (((hexNumber? ((rest.dropWhile (· = 'u')).take 4)).bind character?).toList,
      1 + (rest.takeWhile (· = 'u')).length + ((rest.dropWhile (· = 'u')).take 4).length) := by
  rw [← drop_takeWhile]
  rfl

theorem hexValue_lt (isDigit : Scan.isHexDigit digit = true) : hexValue digit < 16 := by
  have isAscii : digit.toNat < 128 := by
    unfold Scan.isHexDigit Char.isDigit at isDigit
    simp [Char.le_def, UInt32.le_iff_toNat_le] at isDigit
    have isCode : digit.toNat = digit.val.toNat := rfl
    omega
  have onAscii : ∀ code < 128, Scan.isHexDigit (Char.ofNat code) = true →
      hexValue (Char.ofNat code) < 16 := by decide
  rw [← Char.ofNat_toNat digit] at isDigit ⊢
  exact onAscii _ isAscii isDigit

theorem hexNumber?_eq (four : digits.length = 4)
    (areDigits : digits.all Scan.isHexDigit = true) :
    ∃ code < 65536, hexNumber? digits = some code := by
  rcases digits with _ | ⟨a, _ | ⟨b, _ | ⟨c, _ | ⟨d, _ | _⟩⟩⟩⟩ <;> cases four
  simp only [all_cons, all_nil, Bool.and_true, Bool.and_eq_true] at areDigits
  obtain ⟨isA, isB, isC, isD⟩ := areDigits
  have notSign : a ≠ '+' := by
    rintro rfl
    exact absurd isA (by decide)
  have aSmall := hexValue_lt isA
  have bSmall := hexValue_lt isB
  have cSmall := hexValue_lt isC
  have dSmall := hexValue_lt isD
  refine ⟨16 * (16 * (16 * (16 * 0 + hexValue a) + hexValue b) + hexValue c) + hexValue d,
    by omega, ?_⟩
  simp [hexNumber?, notSign, isA, isB, isC, isD]

theorem length_character? (small : code < 65536) :
    (character? code).toList.length = if 0xD800 ≤ code ∧ code < 0xE000 then 0 else 1 := by
  unfold character? Nat.isValidChar
  by_cases isHalf : 0xD800 ≤ code ∧ code < 0xE000
  · rw [if_neg (by omega), if_pos isHalf]
    rfl
  · rw [if_pos (by omega), if_neg isHalf]
    rfl

theorem length_decode_unicode (digits : (rest.dropWhile (· = 'u')).length = 4)
    (areDigits : (rest.dropWhile (· = 'u')).all Scan.isHexDigit = true) :
    (decode ('\\' :: 'u' :: rest)).length =
      if isSurrogate ('\\' :: 'u' :: rest) then 0 else 1 := by
  have isSplit : rest.takeWhile (· = 'u') ++ rest.dropWhile (· = 'u') = rest :=
    takeWhile_append_dropWhile
  have isLength := congrArg length isSplit
  rw [length_append] at isLength
  have isEscape := escape_unicode rest
  rw [take_of_length_le digits.le] at isEscape
  have noMore : rest.drop (1 + (rest.takeWhile (· = 'u')).length +
      (rest.dropWhile (· = 'u')).length - 1) = [] := drop_eq_nil_of_le (by omega)
  rw [decode_escape 'u' (by rw [isEscape, noMore]; exact not_mem_nil), isEscape, noMore,
    append_nil]
  have isLast : ('\\' :: 'u' :: rest).drop (rest.length + 1 + 1 - 4) =
      rest.dropWhile (· = 'u') := by
    rw [show rest.length + 1 + 1 - 4 = (rest.takeWhile (· = 'u')).length + 1 + 1 by omega,
      drop_succ_cons, drop_succ_cons, drop_takeWhile]
  obtain ⟨code, small, isCode⟩ := hexNumber?_eq digits areDigits
  rw [isSurrogate, length_cons, length_cons, isLast, isCode, decide_eq_true (by omega : _ ≤ _)]
  show (character? code).toList.length = _
  rw [length_character? small]
  simp

/-- An accepted body stands for one character, unless it is an octal escape with a digit too many,
which is left over, or half a character, for which there is none. -/
theorem length_decode_characterBody (body : List Char)
    (accepted : Scan.isCharacterBody body = true) :
    (decode body).length = if isWideOctal body then 2 else if isSurrogate body then 0 else 1 := by
  fun_cases Scan.isCharacterBody body with
  | case1 character =>
    have noEscape : '\\' ∉ [character] := by
      intro isOnly
      rw [← mem_singleton.mp isOnly] at accepted
      exact absurd accepted (by decide)
    rw [decode, decodeFrom_eq_append noEscape]
    simp [isWideOctal, isSurrogate]
  | case2 letter tail isSimple =>
    rw [Scan.isCharacterBody, if_pos isSimple, List.isEmpty_iff] at accepted
    have single : ['b', 't', 'n', 'f', 'r', 's', '"', '\'', '\\'].all
        (fun letter => (escape letter []).1.length == 1) = true := by decide
    rw [accepted, decode_escape letter (by simp), drop_nil, append_nil,
      eq_of_beq (all_eq_true.mp single letter (contains_iff_mem.mp isSimple))]
    rfl
  | case3 letter tail notSimple isDigit =>
    rw [Scan.isCharacterBody, if_neg notSimple, if_pos isDigit, Bool.and_eq_true,
      decide_eq_true_eq] at accepted
    have notLong : isSurrogate ('\\' :: letter :: tail) = false := by
      rw [isSurrogate, decide_eq_false (by simp only [length_cons]; omega), Bool.false_and]
    rw [length_decode_octal isDigit accepted.2 accepted.1, notLong]
    rfl
  | case4 tail digits notSimple notDigit =>
    rw [Scan.isCharacterBody, if_neg notSimple, if_neg notDigit, if_pos rfl, Bool.and_eq_true,
      decide_eq_true_eq] at accepted
    have notOctal : isWideOctal ('\\' :: 'u' :: tail) = false := by
      unfold isWideOctal
      split
      · rename_i isOctal
        cases isOctal
        rfl
      · rfl
    rw [length_decode_unicode accepted.1 accepted.2, notOctal]
    rfl
  | case5 letter tail notSimple notDigit notMark =>
    rw [Scan.isCharacterBody, if_neg notSimple, if_neg notDigit, if_neg notMark] at accepted
    cases accepted
  | case6 body notPlain notEscape =>
    rw [Scan.isCharacterBody] at accepted
    · cases accepted
    · exact notPlain
    · exact notEscape

theorem length_decode_characterBody_octal :
    Scan.isCharacterBody ['\\', '4', '7', '7'] = true ∧
      (decode ['\\', '4', '7', '7']).length = 2 :=
  ⟨rfl, length_decode_characterBody _ rfl⟩

end JavaFrontEnd.LiteralText
