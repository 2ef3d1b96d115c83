/-
Where carets stand. Under a token that lies on one line the listing has a caret below each of its
characters and below no other: the columns that the reader counts and the line that the listing cuts
out, trims and indents again agree.
-/

import JavaFrontEnd.Proofs.Lexemes
import Mathlib.Data.List.DropRight

namespace JavaFrontEnd

open List

/-! ### The line around a place -/

namespace Text

theorem prefix_go (done : List (List Char)) (current rest : List Char) :
    done.reverse <+: lines.go done current rest := by
  fun_induction lines.go done current rest with
  | case1 done current =>
    split
    · exact prefix_rfl
    · rw [reverse_cons]
      exact prefix_append ..
  | case2 done current rest line ih =>
    rw [reverse_cons] at ih
    exact (prefix_append ..).trans ih
  | case3 done current character rest _ ih => exact ih

theorem exists_lines_append (before rest : List Char) :
    ∃ done, done.length = before.count '\n' ∧
      lines (before ++ rest) = lines.go done (before.reverse.takeWhile (· ≠ '\n')) rest := by
  induction before using reverseRecOn generalizing rest with
  | nil => exact ⟨[], rfl, rfl⟩
  | append_singleton before character ih =>
    obtain ⟨done, isLength, isRest⟩ := ih (character :: rest)
    rw [append_assoc, singleton_append, isRest, count_append, reverse_append, reverse_singleton,
      singleton_append, takeWhile_cons, ← isLength]
    by_cases isEnd : character = '\n'
    · subst isEnd
      exact ⟨_ :: done, rfl, rfl⟩
    · refine ⟨done, by simp [isEnd], ?_⟩
      rw [lines.go.eq_4 _ _ _ _ isEnd]
      simp [isEnd]

theorem getElem?_go {current : List Char} (isBegun : current ≠ []) (noReturn : '\r' ∉ current)
    (rest : List Char) (noLater : '\r' ∉ rest) (done : List (List Char)) :
    ∃ more, (lines.go done current rest)[done.length]? = some (current.reverse ++ more) := by
  induction rest generalizing current with
  | nil =>
    refine ⟨[], ?_⟩
    unfold lines.go
    simp [isBegun]
  | cons character rest ih =>
    by_cases isEnd : character = '\n'
    · subst isEnd
      obtain ⟨others, isLines⟩ := prefix_go (current.reverse :: done) [] rest
      rw [lines.go.eq_3 done current rest fun before isReturn =>
        noReturn (isReturn ▸ mem_cons_self), ← isLines]
      exact ⟨[], by simp⟩
    · obtain ⟨more, isLine⟩ := @ih (character :: current) (cons_ne_nil _ _)
        (not_mem_cons_of_ne_of_not_mem (ne_of_not_mem_cons noLater) noReturn)
        (not_mem_of_not_mem_cons noLater)
      rw [lines.go.eq_4 _ _ _ _ isEnd, isLine, reverse_cons, append_assoc]
      exact ⟨_, rfl⟩

theorem exists_rdropWhile {accepts : Char → Bool} (stays : accepts last = false)
    (kept rest : List Char) :
    ∃ more, (kept ++ [last] ++ rest).rdropWhile accepts = kept ++ [last] ++ more := by
  induction rest using reverseRecOn with
  | nil => exact ⟨[], by rw [append_nil, rdropWhile_concat_neg _ _ _ (by simp [stays])]⟩
  | append_singleton rest character ih =>
    rw [← append_assoc, rdropWhile_concat]
    split
    · exact ih
    · exact ⟨rest ++ [character], by simp⟩

end Text

namespace Listing

/-! ### The row of carets -/

theorem length_takeWhile_le (noIndent : isIndent first = false) (head rest : List Char) :
    ((head ++ first :: rest).takeWhile isIndent).length ≤ head.length := by
  induction head with
  | nil => simp [noIndent]
  | cons character head ih =>
    rw [cons_append, takeWhile_cons]
    split
    · exact Nat.succ_le_succ ih
    · exact Nat.zero_le _

theorem marked_append {head lexeme tail : List Char} {span : Span}
    (isIn : isIndent first = false) (begins : lexeme = first :: others)
    (isShown : Text.isBlank last = false) (ends : lexeme = initial ++ [last])
    (isStart : span.start.column = head.length + 1)
    (isStop : span.stop.column = head.length + lexeme.length + 1)
    (oneLine : span.stop.line = span.start.line) :
    ∃ shown indent, marked (head ++ lexeme ++ tail) span =
        (shown, indent ++ replicate lexeme.length '^') ∧
      (∀ character ∈ indent, character = ' ' ∨ character = '\t') ∧
      (shown.drop indent.length).take lexeme.length = lexeme := by
  have noEnd : isLineEnd last = false := by
    refine Bool.eq_false_iff.mpr fun isEnd => ?_
    rcases Bool.or_eq_true .. ▸ isEnd with isEnd | isEnd <;>
    · rw [of_decide_eq_true isEnd] at isShown
      cases isShown
  obtain ⟨more, isLine⟩ := Text.exists_rdropWhile noEnd (head ++ initial) tail
  rw [append_assoc head, ← ends] at isLine
  obtain ⟨leading, isLeading⟩ :
    ∃ count, ((head ++ lexeme ++ more).takeWhile isIndent).length = count := ⟨_, rfl⟩
  have atMost : leading ≤ head.length := by
    rw [← isLeading, begins, append_assoc]
    exact length_takeWhile_le isIn head (others ++ more)
  obtain ⟨further, isTrimmed⟩ :=
    Text.exists_rdropWhile isShown (head.drop leading ++ initial) more
  rw [append_assoc (head.drop leading), ← ends, append_assoc, append_assoc,
    ← drop_append_of_le_length atMost, ← append_assoc] at isTrimmed
  have isUnder : max (span.start.column - 1) leading - leading = (head.drop leading).length := by
    rw [length_drop]
    omega
  refine ⟨head.drop leading ++ (lexeme ++ further),
    (head.drop leading).map fun character => if character = '\t' then '\t' else ' ', ?_, ?_, ?_⟩
  · have isFilled : 0 < lexeme.length := by simp [begins]
    unfold marked
    dsimp only
    rw [← rdropWhile, isLine, isLeading, Text.trimRight, ← rdropWhile, isTrimmed, isUnder,
      if_pos ⟨oneLine, by omega⟩, take_left, length_map, Nat.sub_self, replicate_zero, append_nil]
    congr 3
    simp only [length_append, length_drop]
    omega
  · intro character isMember
    obtain ⟨_, -, rfl⟩ := mem_map.mp isMember
    split
    · exact .inr rfl
    · exact .inl rfl
  · rw [length_map, drop_left, take_left]

theorem entry_of_line {line shown row : List Char} {diagnostic : Diagnostic}
    (isLine : (Text.lines source.toList)[diagnostic.span.start.line - 1]? = some line)
    (isMarked : marked line diagnostic.span = (shown, row)) (number : Nat) :
    entry number diagnostic (some source) =
      s!"{number}. {diagnostic.severity.display} in {diagnostic.file} " ++
        s!"(at line {diagnostic.span.start.line})\n" ++
          s!"\t{String.ofList shown}\n\t{String.ofList row}\n" ++
            s!"{diagnostic.message}\n{separator}\n" := by
  have isText (text : String) : toString text = text := rfl
  have isOpened : " (at line " = " " ++ "(at line " := rfl
  unfold entry
  simp only [Option.bind_some, isLine, isMarked, isText, String.append_assoc, isOpened]

/-! ### The place of a token -/

theorem exists_cut {source : String} {token : Token}
    (isToken : token ∈ Token.significant level source) (isNoEnd : token.kind ≠ .endOfInput) :
    ∃ before rest first others, source.toList = before ++ token.lexeme.toList ++ rest ∧
      token.span = ⟨.after before, .after (before ++ token.lexeme.toList)⟩ ∧
      isIndent first = false ∧ token.lexeme.toList = first :: others := by
  rcases mem_append.mp isToken with isRead | isEnd
  · obtain ⟨isListed, isSeen⟩ := mem_filter.mp isRead
    obtain ⟨earlier, later, isSplit⟩ := append_of_mem isListed
    obtain ⟨first, rest, isSource, rfl⟩ := (Token.cut_all level source).eq_read isSplit
    rw [Token.toList_lexeme_read]
    refine ⟨Token.text earlier, rest.drop (Scan.token first rest).further, first, _, ?_, ?_, ?_,
      rfl⟩
    · rw [isSource, append_assoc, cons_append, take_append_drop]
    · rw [← Location.advanceOver_start, ← Location.advanceOver_start, Location.advanceOver_append]
      rfl
    · refine Bool.eq_false_iff.mpr fun isBlank => ?_
      rcases Bool.or_eq_true .. ▸ isBlank with isBlank | isBlank <;>
      · cases of_decide_eq_true isBlank
        cases isSeen
  · rw [mem_singleton.mp isEnd] at isNoEnd
    exact absurd rfl isNoEnd

theorem column_after (noReturn : '\r' ∉ text) :
    (Location.after text).column = (text.reverse.takeWhile (· ≠ '\n')).length + 1 := by
  unfold Location.after
  rw [countP_eq_length.mpr]
  intro character isMember
  have isThere := mem_reverse.mp ((takeWhile_sublist _).subset isMember)
  exact decide_eq_true fun isReturn => noReturn (isReturn ▸ isThere)

/-- The row below the line of a token: blanks and tabs, and then as many carets as the token has
characters. As far into the line that is shown the token begins. -/
theorem entry_underlines {level : Level} {source : String} {token : Token} {diagnostic : Diagnostic}
    {last : Char} (isToken : token ∈ Token.significant level source)
    (isNoEnd : token.kind ≠ .endOfInput) (noReturn : '\r' ∉ source.toList)
    (oneLine : token.span.stop.line = token.span.start.line)
    (isLast : token.lexeme.toList.getLast? = some last) (isShown : Text.isBlank last = false)
    (isSpan : diagnostic.span = token.span) (number : Nat) :
    ∃ line shown indent carets,
      (Text.lines source.toList)[token.span.start.line - 1]? = some line ∧
      marked line token.span = (shown, indent ++ carets) ∧
      (∀ character ∈ indent, character = ' ' ∨ character = '\t') ∧
      carets = replicate token.lexeme.length '^' ∧
      (shown.drop indent.length).take carets.length = token.lexeme.toList ∧
      entry number diagnostic (some source) =
        s!"{number}. {diagnostic.severity.display} in {diagnostic.file} " ++
          s!"(at line {diagnostic.span.start.line})\n" ++
            s!"\t{String.ofList shown}\n\t{String.ofList (indent ++ carets)}\n" ++
              s!"{diagnostic.message}\n{separator}\n" := by
  obtain ⟨before, rest, first, others, isSource, isAt, isIn, begins⟩ := exists_cut isToken isNoEnd
  obtain ⟨initial, ends⟩ := getLast?_eq_some_iff.mp isLast
  rw [isSource] at noReturn
  have noEarlier : '\r' ∉ before ++ token.lexeme.toList :=
    fun isReturn => noReturn (mem_append_left _ isReturn)
  have sameCount : (before ++ token.lexeme.toList).count '\n' = before.count '\n' := by
    rw [isAt] at oneLine
    exact Nat.succ.inj oneLine
  have isBegun : (before ++ token.lexeme.toList).reverse.takeWhile (· ≠ '\n') =
      token.lexeme.toList.reverse ++ before.reverse.takeWhile (· ≠ '\n') := by
    rw [reverse_append, takeWhile_append_of_pos]
    rw [count_append, Nat.add_eq_left, count_eq_zero] at sameCount
    intro character isMember
    exact decide_eq_true fun isEnd => sameCount (isEnd ▸ mem_reverse.mp isMember)
  obtain ⟨done, isCount, isRest⟩ := Text.exists_lines_append (before ++ token.lexeme.toList) rest
  have noneLost :=
    (takeWhile_sublist (l := (before ++ token.lexeme.toList).reverse) (· ≠ '\n')).subset
  obtain ⟨tail, isLine⟩ := @Text.getElem?_go _ (by rw [isBegun, ends]; simp)
    (fun isReturn => noEarlier (mem_reverse.mp (noneLost isReturn))) rest
    (fun isReturn => noReturn (mem_append_right _ isReturn)) done
  rw [← isRest, ← isSource, isCount, sameCount, isBegun, reverse_append, reverse_reverse] at isLine
  have isStart : token.span.start.column =
      (before.reverse.takeWhile (· ≠ '\n')).reverse.length + 1 := by
    rw [isAt, length_reverse]
    exact column_after fun isReturn => noEarlier (mem_append_left _ isReturn)
  have isStop : token.span.stop.column =
      (before.reverse.takeWhile (· ≠ '\n')).reverse.length + token.lexeme.toList.length + 1 := by
    rw [isAt, column_after noEarlier, isBegun, length_append, length_reverse, length_reverse,
      Nat.add_comm token.lexeme.toList.length]
  obtain ⟨shown, indent, isMarked, isBlank, isUnder⟩ :=
    @marked_append _ _ _ _ _ _ tail _ isIn begins isShown ends isStart isStop oneLine
  have isIndex : before.count '\n' = token.span.start.line - 1 := by
    rw [isAt]
    rfl
  rw [isIndex] at isLine
  rw [String.length_toList] at isMarked isUnder
  refine ⟨_, shown, indent, _, isLine, isMarked, isBlank, rfl, ?_, ?_⟩
  · rwa [length_replicate]
  · rw [← isSpan] at isLine isMarked
    exact entry_of_line isLine isMarked number

theorem entry_underlines_tabbed :
    ∃ line shown indent carets : List Char, (Text.lines "\tint\tx;".toList)[0]? = some line ∧
      marked line ⟨⟨1, 6, 5⟩, ⟨1, 7, 6⟩⟩ = (shown, indent ++ carets) ∧
      (shown.drop indent.length).take carets.length = "x".toList := by
  let token : Token :=
    { kind := .identifier, lexeme := "x", span := ⟨⟨1, 6, 5⟩, ⟨1, 7, 6⟩⟩ }
  have isToken : token ∈ Token.significant .latest "\tint\tx;" := by decide +kernel
  obtain ⟨line, shown, indent, carets, isLine, isMarked, -, -, isUnder, -⟩ :=
    @entry_underlines _ _ _ ⟨.error, .syntaxError, "", token.span, ""⟩ 'x' isToken (by decide)
      (by decide) rfl (by decide) (by decide) rfl 1
  exact ⟨line, shown, indent, carets, isLine, isMarked, isUnder⟩

end Listing

end JavaFrontEnd
