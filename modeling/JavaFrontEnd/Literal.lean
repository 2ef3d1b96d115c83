/-
Literals: the text between their quotes and the values they stand for.
-/

import JavaFrontEnd.Number
import JavaFrontEnd.Token
import JavaFrontEnd.Tree

namespace JavaFrontEnd.LiteralText

/-! The characters that the body of a string, character literal or text block stands for. -/

def hexValue (digit : Char) : Nat :=
  if digit.isDigit then digit.toNat - '0'.toNat
  else digit.toLower.toNat - 'a'.toNat + 10

/-- The number that hexadecimal digits spell, which may carry a plus sign; nothing when there are
no digits or other characters. -/
def hexNumber? (characters : List Char) : Option Nat :=
  let digits := match characters with
    | '+' :: rest => rest
    | other => other
  if digits.isEmpty || !digits.all Scan.isHexDigit then none
  else some (digits.foldl (fun value digit => 16 * value + hexValue digit) 0)

/-- The character with a code, unless the code is a surrogate or too large. -/
def character? (code : Nat) : Option Char :=
  if code.isValidChar then some (Char.ofNat code) else none

def octalValue (digit : Char) : Nat :=
  digit.toNat - '0'.toNat

/-- The digits that follow the first digit of an octal escape: two after a digit up to three, else
one, as far as they are there. -/
def octalTail (first : Char) (rest : List Char) : List Char :=
  (rest.take (if first ≤ '3' then 2 else 1)).takeWhile Scan.isOctalDigit

/-- One escape sequence after its backslash: the characters it stands for and how many characters
it takes. A backslash before a line feed stands for nothing, and an unknown letter for itself. -/
def escape (letter : Char) (rest : List Char) : List Char × Nat :=
  if letter = 'n' then (['\n'], 1)
  else if letter = 't' then (['\t'], 1)
  else if letter = 'r' then (['\r'], 1)
  else if letter = 'b' then (['\x08'], 1)
  else if letter = 'f' then (['\x0c'], 1)
  else if letter = 's' then ([' '], 1)
  else if Scan.isOctalDigit letter then
    let tail := octalTail letter rest
    let code := tail.foldl (fun value digit => 8 * value + octalValue digit) (octalValue letter)
    ([(character? code).getD '\x00'], 1 + tail.length)
  else if letter = 'u' then
    let marks := (rest.takeWhile (· = 'u')).length
    let digits := (rest.drop marks).take 4
    (((hexNumber? digits).bind character?).toList, 1 + marks + digits.length)
  else if letter = '\n' then ([], 1)
  else ([letter], 1)

/-- The text without its escapes, behind text already decoded. A backslash at the end stands for
itself. -/
def decodeFrom (done : Array Char) : List Char → Array Char
  | [] => done
  | '\\' :: [] => done.push '\\'
  | '\\' :: letter :: rest =>
    let (meant, taken) := escape letter rest
    decodeFrom (done ++ meant) (rest.drop (taken - 1))
  | character :: rest => decodeFrom (done.push character) rest
termination_by characters => characters.length
decreasing_by
  all_goals simp only [List.length_drop, List.length_cons]
  all_goals omega

def decode (characters : List Char) : List Char :=
  (decodeFrom #[] characters).toList

/-- A line of a text block without the indentation of the block. A line that is shorter than the
indentation only loses its own. The indentation counts bytes; where it ends inside a character of
the line, nothing is left that could be told. -/
def unindent? (indentation : Nat) (line : List Char) : Option (List Char) :=
  if indentation ≤ Text.byteLength line then Text.dropBytes indentation line
  else some (line.dropWhile Text.isBlank)

def indentationOf (line : List Char) : Nat :=
  Text.byteLength (line.takeWhile Text.isBlank)

/-- The indentation of a text block: the least one of its lines that hold more than blanks. -/
def indentation (lines : List (List Char)) : Nat :=
  ((lines.filter fun line => !line.all Text.isBlank).map indentationOf).min?.getD 0

def blockLines (raw : List Char) : List (List Char) :=
  Text.lines <| match raw.dropWhile (· ≠ '\n') with
    | _ :: rest => rest
    | [] => raw

/-- The text that a text block stands for: the lines lose the indentation of the block, and then
escapes are decoded. There is none if the indentation ends inside a character of some line. -/
def textBlock? (raw : List Char) : Option (List Char) := do
  let lines := blockLines raw
  let kept ← lines.mapM (unindent? (indentation lines))
  return decode (['\n'].intercalate kept)

/-- The body of a delimited token: the opening delimiter goes, and the closing one if it is
there. -/
def body (delimiter : List Char) (closed : Bool) (lexeme : List Char) : List Char :=
  let opened := lexeme.drop delimiter.length
  if closed then opened.take (opened.length - delimiter.length) else opened

end JavaFrontEnd.LiteralText

namespace JavaFrontEnd

/-! The values of literal tokens. -/

namespace LiteralText

/-- The number that digits spell in a radix; zero when a digit does not belong to the radix, when
there are no digits or when the number has more than 64 bits. -/
def radixValue (radix : Nat) (digits : List Char) : Nat :=
  if digits.isEmpty || !digits.all (fun digit => Scan.isHexDigit digit && hexValue digit < radix)
  then 0
  else
    let value := digits.foldl (fun value digit => radix * value + hexValue digit) 0
    if value < Nat.pow 2 64 then value else 0

/-- The value of an integer literal. A literal that is not decimal spells the bits of its type, and
so does every long one; a decimal `int` keeps its magnitude, even beyond its type. -/
def integer (long : Bool) (lexeme : List Char) : Int :=
  let digits := lexeme.filter fun character =>
    character ≠ '_' && character ≠ 'l' && character ≠ 'L'
  let (radix, spelled) := match digits with
    | '0' :: 'x' :: rest => (16, rest)
    | '0' :: 'X' :: rest => (16, rest)
    | '0' :: 'b' :: rest => (2, rest)
    | '0' :: 'B' :: rest => (2, rest)
    | '0' :: digit :: rest => (8, digit :: rest)
    | other => (10, other)
  let value := radixValue radix spelled
  if long || radix = 10 then (value : Int).bmod (Nat.pow 2 64)
  else (value : Int).bmod (Nat.pow 2 32)

/-- The number nearest to a decimal text of digits, a point and an exponent, each of which may be
missing. -/
def decimal (text : List Char) : Float :=
  let significand := text.takeWhile fun character => character ≠ 'e' && character ≠ 'E'
  let exponent : Int := match text.drop significand.length with
    | _ :: '-' :: digits => -(Text.decimalValue digits : Int)
    | _ :: '+' :: digits => (Text.decimalValue digits : Int)
    | _ :: digits => (Text.decimalValue digits : Int)
    | [] => 0
  let whole := significand.takeWhile (· ≠ '.')
  let places := significand.drop (whole.length + 1)
  let bits := Number.double.decimalBits (Text.decimalValue (whole ++ places))
    (exponent - (places.length : Int))
  Float.ofBits (UInt64.ofNat bits)

def floating (lexeme : List Char) : Literal :=
  let text := lexeme.filter (· ≠ '_')
  match text.getLast? with
  | some 'f' | some 'F' => .float (decimal text.dropLast)
  | some 'd' | some 'D' => .double (decimal text.dropLast)
  | _ => .double (decimal text)

end LiteralText

namespace Token

def blockText (token : Token) : List Char :=
  LiteralText.body ['"', '"', '"'] token.closed token.lexeme.toList

/-- The value of a literal token; a text block may have none. -/
def literal? (token : Token) : Option Literal :=
  let lexeme := token.lexeme.toList
  match token.kind with
  | .intLiteral => some (.int (LiteralText.integer false lexeme))
  | .longLiteral => some (.long (LiteralText.integer true lexeme))
  | .floatLiteral => some (LiteralText.floating lexeme)
  | .stringLiteral =>
    let characters := LiteralText.decode (LiteralText.body ['"'] token.closed lexeme)
    some (.string (String.ofList characters))
  | .textBlock => (LiteralText.textBlock? token.blockText).map (.string ∘ String.ofList)
  | .charLiteral =>
    let characters := LiteralText.decode (LiteralText.body ['\''] token.closed lexeme)
    some (.char (characters.head?.getD '\x00'))
  | .trueWord => some (.boolean true)
  | .falseWord => some (.boolean false)
  | _ => some .null

end Token

end JavaFrontEnd
