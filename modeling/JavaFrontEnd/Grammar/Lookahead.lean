/-
Looking ahead. Whether a declaration, a cast, a lambda expression or a pattern begins at the
cursor is decided by finding out, without reading anything, where a type that begins there would
end. Every function here works on the tokens from a point on and yields those after the part it
passed; beyond the last token the end mark repeats forever.
-/

import JavaFrontEnd.Token

namespace JavaFrontEnd.Grammar.Lookahead

variable (tokens : List Token)

def kind : List Token → TokenKind
  | [] => .endOfInput
  | token :: _ => token.kind

def kindAt (distance : Nat) (tokens : List Token) : TokenKind :=
  kind (tokens.drop distance)

def afterSegments : List Token → List Token
  | point :: name :: rest =>
    if point.kind = .dot ∧ name.kind = .identifier then afterSegments rest
    else point :: name :: rest
  | tokens => tokens

def afterDimensions : List Token → List Token
  | opening :: closing :: rest =>
    if opening.kind = .leftBracket ∧ closing.kind = .rightBracket then afterDimensions rest
    else opening :: closing :: rest
  | tokens => tokens

/-- Passes tokens up to the parenthesis that closes the last one of `depth` open ones. -/
def afterParentheses : Nat → List Token → Option (List Token)
  | _, [] => none
  | depth, token :: rest =>
    if token.kind = .endOfInput then none
    else if token.kind = .leftParen then afterParentheses (depth + 1) rest
    else if token.kind = .rightParen then
      if depth ≤ 1 then some rest else afterParentheses (depth - 1) rest
    else afterParentheses depth rest

/-- A token that may stand between the angle brackets of type arguments. -/
def isTypeArgumentPart (kind : TokenKind) : Bool :=
  kind.isPrimitiveType || match kind with
    | .identifier | .dot | .comma | .question | .extends | .super | .leftBracket | .rightBracket
    | .at | .amp => true
    | _ => false

/-- How many angle brackets a token closes, counted negatively, or opens. -/
def angleChange : TokenKind → Int
  | .less => 1
  | .greater => -1
  | .rightShift => -2
  | .unsignedRightShift => -3
  | _ => 0

/-- Passes type arguments of which `depth` angle brackets are open. It is no argument list when a
token closes more brackets than are open. -/
def afterTypeArguments : Int → List Token → Option (List Token)
  | _, [] => none
  | depth, token :: rest =>
    if angleChange token.kind = 0 ∧ !isTypeArgumentPart token.kind then none
    else
      let open' := depth + angleChange token.kind
      if 0 < open' then afterTypeArguments open' rest
      else if open' = 0 then some rest
      else none

theorem length_afterSegments_le : (afterSegments tokens).length ≤ tokens.length := by
  fun_induction afterSegments tokens with
  | case1 => simp only [List.length_cons]; omega
  | case2 => exact Nat.le_refl _
  | case3 => exact Nat.le_refl _

theorem length_afterDimensions_le : (afterDimensions tokens).length ≤ tokens.length := by
  fun_induction afterDimensions tokens with
  | case1 => simp only [List.length_cons]; omega
  | case2 => exact Nat.le_refl _
  | case3 => exact Nat.le_refl _

theorem length_afterParentheses_lt {depth : Nat} {tokens rest : List Token}
    (passed : afterParentheses depth tokens = some rest) : rest.length < tokens.length := by
  fun_induction afterParentheses depth tokens with
  | case1 => simp at passed
  | case2 => simp at passed
  | case3 _ _ _ _ _ shorter | case5 _ _ _ _ _ _ _ shorter | case6 _ _ _ _ _ _ shorter =>
    have := shorter passed
    simp only [List.length_cons]
    omega
  | case4 =>
    cases passed
    simp only [List.length_cons]
    omega

theorem length_afterTypeArguments_lt {depth : Int} {tokens rest : List Token}
    (passed : afterTypeArguments depth tokens = some rest) : rest.length < tokens.length := by
  fun_induction afterTypeArguments depth tokens with
  | case1 => simp at passed
  | case2 => simp at passed
  | case3 _ _ _ _ _ _ shorter =>
    have := shorter passed
    simp only [List.length_cons]
    omega
  | case4 =>
    cases passed
    simp only [List.length_cons]
    omega
  | case5 => simp at passed

def afterAnnotations : List Token → Option (List Token)
  | mark :: name :: rest =>
    if mark.kind = .at ∧ name.kind = .identifier then
      have _notLonger := length_afterSegments_le rest
      if kind (afterSegments rest) = .leftParen then
        match passed : afterParentheses 0 (afterSegments rest) with
        | some after =>
          have := length_afterParentheses_lt passed
          afterAnnotations after
        | none => none
      else afterAnnotations (afterSegments rest)
    else some (mark :: name :: rest)
  | tokens => some tokens
termination_by tokens => tokens.length
decreasing_by
  all_goals simp only [List.length_cons]
  all_goals omega

/-- Passes the arguments and further segments of a type name whose first segment is passed. -/
def afterTypeName (tokens : List Token) : Option (List Token) :=
  if kind tokens = .less then
    match passed : afterTypeArguments 0 tokens with
    | some (point :: name :: rest) =>
      if point.kind = .dot ∧ name.kind = .identifier then
        have := length_afterTypeArguments_lt passed
        afterTypeName rest
      else some (point :: name :: rest)
    | other => other
  else
    match tokens with
    | point :: name :: rest =>
      if point.kind = .dot ∧ name.kind = .identifier then afterTypeName rest
      else some (point :: name :: rest)
    | other => some other
termination_by tokens.length
decreasing_by
  all_goals simp only [List.length_cons] at *
  all_goals omega

def afterType : Option (List Token) := do
  let start ← afterAnnotations tokens
  match start with
  | [] => none
  | first :: rest =>
    if first.kind.isPrimitiveType then some (afterDimensions rest)
    else if first.kind = .identifier then (afterTypeName rest).map afterDimensions
    else none

/-- The name of a variable follows; the underscore is one that will be reported. -/
def isVariableName (kind : TokenKind) : Bool :=
  kind == .identifier || kind == .underscore

def declarationFollows : Bool :=
  match afterType tokens with
  | some rest => isVariableName (kind rest)
  | none => false

def patternFollows : Bool :=
  let start := tokens.dropWhile fun token => token.kind == .final
  match afterType start with
  | some rest =>
    isVariableName (kind rest) || (kind rest == .leftParen && kind start == .identifier)
  | none => false

def lambdaFollows : Bool :=
  kind tokens == .leftParen &&
    match afterParentheses 0 tokens with
    | some rest => kind rest == .arrow
    | none => false

theorem length_afterAnnotations_le {tokens rest : List Token}
    (passed : afterAnnotations tokens = some rest) : rest.length ≤ tokens.length := by
  fun_induction afterAnnotations tokens with
  | case1 mark name tokens _ shorter _ after found shorterStill hypothesis
  | case3 mark name tokens _ shorter _ hypothesis =>
    have := hypothesis passed
    simp only [List.length_cons]
    omega
  | case2 => simp at passed
  | case4 | case5 => cases passed; exact Nat.le_refl _

theorem length_afterTypeName_le {tokens rest : List Token}
    (passed : afterTypeName tokens = some rest) : rest.length ≤ tokens.length := by
  fun_induction afterTypeName tokens with
  | case1 tokens _ point name remaining found _ shorter hypothesis =>
    have := hypothesis passed
    simp only [List.length_cons] at shorter
    omega
  | case2 tokens _ point name remaining found _ =>
    cases passed
    exact Nat.le_of_lt (length_afterTypeArguments_lt found)
  | case3 tokens _ other =>
    exact Nat.le_of_lt (length_afterTypeArguments_lt passed)
  | case4 _ point name remaining _ hypothesis =>
    have := hypothesis passed
    simp only [List.length_cons]
    omega
  | case5 => cases passed; exact Nat.le_refl _
  | case6 => cases passed; exact Nat.le_refl _

theorem length_afterType_lt {tokens rest : List Token}
    (passed : afterType tokens = some rest) : rest.length < tokens.length := by
  unfold afterType at passed
  obtain ⟨start, found, passed⟩ := Option.bind_eq_some_iff.1 passed
  have notLonger := length_afterAnnotations_le found
  match start with
  | [] => simp at passed
  | first :: remaining =>
    simp only [List.length_cons] at notLonger
    dsimp only at passed
    split at passed
    · rw [← Option.some.inj passed]
      have := length_afterDimensions_le remaining
      omega
    · split at passed
      · obtain ⟨named, found, dimensioned⟩ := Option.map_eq_some_iff.1 passed
        rw [← dimensioned]
        have := length_afterDimensions_le named
        have := length_afterTypeName_le found
        omega
      · simp at passed

def afterIntersection (tokens : List Token) : Option (List Token) :=
  match tokens with
  | token :: rest =>
    if token.kind = .amp then
      match passed : afterType rest with
      | some after =>
        have := length_afterType_lt passed
        afterIntersection after
      | none => none
    else some (token :: rest)
  | [] => some []
termination_by tokens.length
decreasing_by
  simp only [List.length_cons]
  omega

/-- A token that begins the operand of a cast to a type that is not primitive. -/
def startsCastOperand (kind : TokenKind) : Bool :=
  kind.isLiteral || kind.isPrimitiveType || match kind with
    | .identifier | .underscore | .leftParen | .bang | .tilde | .this | .super | .new
    | .switch => true
    | _ => false

def castFollows : Bool :=
  if lambdaFollows tokens then false
  else
    let inner := tokens.drop 1
    match afterType inner with
    | none => false
    | some rest =>
      if (kind inner).isPrimitiveType then kind rest == .rightParen
      else
        match afterIntersection rest with
        | some (closing :: operand) =>
          closing.kind == .rightParen && startsCastOperand (kind operand)
        | _ => false

/-- The word `package` comes before anything that can only belong to a type declaration. -/
def packageFollows : List Token → Bool
  | [] => false
  | token :: rest =>
    match token.kind with
    | .package => true
    | .class | .interface | .enum | .leftBrace | .semicolon => false
    | _ => packageFollows rest

def continuesModifiers (token : Token) : Bool :=
  token.kind.isModifier || token.kind == .class || token.kind == .interface || token.kind == .at ||
    token.isWord "sealed" || token.isWord "non" || token.isWord "record"

def sealedFollows : List Token → Bool
  | word :: next :: _ => word.isWord "sealed" && continuesModifiers next
  | _ => false

def nonSealedFollows : List Token → Bool
  | non :: dash :: word :: _ =>
    non.isWord "non" && dash.kind == .minus && word.isWord "sealed" &&
      non.span.stop.offset == dash.span.start.offset &&
      dash.span.stop.offset == word.span.start.offset
  | _ => false

def enumWordFollows : List Token → Bool
  | word :: rest =>
    word.isWord "enum" && kind rest == .identifier &&
      (kindAt 1 rest == .leftBrace || kindAt 1 rest == .implements)
  | [] => false

def recordFollows : List Token → Bool
  | word :: rest =>
    word.isWord "record" && kind rest == .identifier &&
      (kindAt 1 rest == .leftParen || kindAt 1 rest == .less)
  | [] => false

def labelFollows : Bool :=
  kind tokens == .case ||
    (kind tokens == .default && (kindAt 1 tokens == .colon || kindAt 1 tokens == .arrow))

def yieldFollows (level : Level) : List Token → Bool
  | word :: rest =>
    word.contextualKeyword? level == some .yield &&
      !(kind rest).isAssignment &&
      match kind rest with
      | .dot | .leftBracket | .increment | .decrement | .colon | .semicolon | .endOfInput => false
      | _ => true
  | [] => false

end JavaFrontEnd.Grammar.Lookahead
