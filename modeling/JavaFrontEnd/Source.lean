/-
Positions in a source text. A location counts lines and columns from one and bytes from zero; it
is reached by advancing over the characters before it, so that the three counts always agree. A
span is a pair of locations whose end is exclusive.
-/

namespace JavaFrontEnd.Text

/-! White space as Unicode classifies it, and the trimming of a text by that class. The class is a
table of code points, because the character tests of the core library only know ASCII. -/

def isBlank (character : Char) : Bool :=
  let code := character.toNat
  (9 ≤ code && code ≤ 13) || code == 0x20 || code == 0x85 || code == 0xA0 || code == 0x1680 ||
    (0x2000 ≤ code && code ≤ 0x200A) || code == 0x2028 || code == 0x2029 || code == 0x202F ||
    code == 0x205F || code == 0x3000

def trimRight (characters : List Char) : List Char :=
  (characters.reverse.dropWhile isBlank).reverse

def trim (text : String) : String :=
  String.ofList (trimRight (text.toList.dropWhile isBlank))

def isDigit (character : Char) : Bool :=
  '0' ≤ character && character ≤ '9'

def decimalValue (digits : List Char) : Nat :=
  digits.foldl (fun value digit => 10 * value + (digit.toNat - '0'.toNat)) 0

def lowerAscii (text : String) : String :=
  String.ofList (text.toList.map Char.toLower)

/-! Cutting texts: into lines, and at byte offsets. -/

/-- The lines of a text. A line ends with a line feed, and a carriage return before that belongs
to the end of the line; a last line that is empty does not count. -/
def lines (characters : List Char) : List (List Char) :=
  go [] [] characters
where
  /-- The lines after those in `done`, newest first; `current` is the line so far, backwards. -/
  go (done : List (List Char)) (current : List Char) : List Char → List (List Char)
    | [] => (if current.isEmpty then done else current.reverse :: done).reverse
    | '\n' :: rest =>
      let line := match current with
        | '\r' :: before => before.reverse
        | _ => current.reverse
      go (line :: done) [] rest
    | character :: rest => go done (character :: current) rest

/-- What remains of a text after a number of bytes; nothing when the cut is inside a character
or beyond the end. -/
def dropBytes : Nat → List Char → Option (List Char)
  | 0, characters => some characters
  | _ + 1, [] => none
  | count + 1, character :: rest =>
    if character.utf8Size ≤ count + 1 then dropBytes (count + 1 - character.utf8Size) rest
    else none
termination_by _ characters => characters.length

/-- The first characters of a text, up to a number of bytes; nothing when the cut is inside a
character or beyond the end. -/
def takeBytes : Nat → List Char → Option (List Char)
  | 0, _ => some []
  | _ + 1, [] => none
  | count + 1, character :: rest =>
    if character.utf8Size ≤ count + 1 then
      (takeBytes (count + 1 - character.utf8Size) rest).map (character :: ·)
    else none
termination_by _ characters => characters.length

def byteLength (characters : List Char) : Nat :=
  characters.foldl (fun count character => count + character.utf8Size) 0

/-! Texts cut at a separating character, and put together again. -/

/-- The pieces of a text between the occurrences of a character. There is always at least one. -/
def pieces (separator : Char) : List Char → List (List Char)
  | [] => [[]]
  | char :: rest =>
    if char = separator then [] :: pieces separator rest
    else match pieces separator rest with
      | first :: more => (char :: first) :: more
      | [] => [[char]]

def segments (name : String) : List String :=
  (pieces '.' name.toList).map String.ofList

def cutLast? (separator : Char) (text : String) : Option (String × String) :=
  let after := text.toList.reverse.takeWhile (· ≠ separator)
  match text.toList.reverse.drop after.length with
  | [] => none
  | _ :: before => some (String.ofList before.reverse, String.ofList after.reverse)

def before (separator : Char) (text : String) : String :=
  String.ofList (text.toList.takeWhile (· ≠ separator))

def replaced (old new : Char) (text : String) : String :=
  String.ofList (text.toList.map fun char => if char = old then new else char)

end JavaFrontEnd.Text

namespace JavaFrontEnd

/-- A position in a source text: line and column for people, byte offset for the program. -/
structure Location where
  line : Nat
  column : Nat
  offset : Nat
  deriving DecidableEq, Repr

variable (location : Location)

namespace Location

variable (first second : Location)

def start : Location :=
  ⟨1, 1, 0⟩

/-- The position of a token that stands in no text: every count is zero. -/
def nowhere : Location :=
  ⟨0, 0, 0⟩

/-- The position after one more character. A line feed opens a new line, a carriage return has
no width, and every other character is one column wide. -/
def advance (character : Char) : Location :=
  let offset := location.offset + character.utf8Size
  if character = '\n' then
    ⟨location.line + 1, 1, offset⟩
  else if character = '\r' then
    ⟨location.line, location.column, offset⟩
  else
    ⟨location.line, location.column + 1, offset⟩

def advanceOver (characters : List Char) : Location :=
  characters.foldl advance location

def compare : Ordering :=
  (Ord.compare first.line second.line).then <|
    (Ord.compare first.column second.column).then (Ord.compare first.offset second.offset)

def min : Location :=
  if (first.compare second).isGT then second else first

def max : Location :=
  if (first.compare second).isGT then first else second

def display : String :=
  s!"{location.line}:{location.column}"

@[simp]
theorem advanceOver_nil : location.advanceOver [] = location :=
  rfl

@[simp]
theorem advanceOver_cons (character : Char) (rest : List Char) :
    location.advanceOver (character :: rest) = (location.advance character).advanceOver rest :=
  rfl

theorem advanceOver_append (first second : List Char) :
    location.advanceOver (first ++ second) = (location.advanceOver first).advanceOver second :=
  List.foldl_append

end Location

/-- A stretch of source text from `start` up to, and without, `stop`. -/
structure Span where
  start : Location
  stop : Location
  deriving DecidableEq, Repr

namespace Span

variable (span : Span)

def point : Span :=
  ⟨location, location⟩

def cover (first second : Span) : Span :=
  ⟨first.start.min second.start, first.stop.max second.stop⟩

def length : Nat :=
  span.stop.offset - span.start.offset

def isEmpty : Bool :=
  span.start.offset == span.stop.offset

def contains (location : Location) : Bool :=
  span.start.offset ≤ location.offset && location.offset < span.stop.offset

def encloses (outer inner : Span) : Bool :=
  outer.start.offset ≤ inner.start.offset && inner.stop.offset ≤ outer.stop.offset

def compare (first second : Span) : Ordering :=
  (first.start.compare second.start).then (first.stop.compare second.stop)

/-- The text that a span covers; the empty text when the span does not fit the source. -/
def sourceText (source : String) : String :=
  let size := source.utf8ByteSize
  let stop := Nat.min span.stop.offset size
  if size ≤ span.start.offset || stop < span.start.offset then ""
  else
    match (Text.dropBytes span.start.offset source.toList).bind
        (Text.takeBytes (stop - span.start.offset)) with
    | some characters => String.ofList characters
    | none => ""

/-- A span as messages show it: only what distinguishes the two ends is written. -/
def display : String :=
  if span.start.line = span.stop.line then
    if span.start.column = span.stop.column then span.start.display
    else s!"{span.start.display}-{span.stop.column}"
  else s!"{span.start.display}-{span.stop.display}"

end Span

end JavaFrontEnd
