/-
The tokens of Java source text. A kind says what a token is; the token itself adds the characters
it was read from and where they stand. Tokens with a closing delimiter also say whether it is
there. White space and comments are tokens too, so that the tokens of a text make up all of it.
-/

import JavaFrontEnd.Diagnostic

namespace JavaFrontEnd

/-- What a token is. Keywords come first, then operators, separators, literals and the rest. -/
inductive TokenKind where
  | package | import | static | «public» | «protected» | «private» | abstract | final | native
  | synchronized | transient | volatile | strictfp | «class» | interface | enum | extends
  | implements | new | this | super | instanceOf | void | boolean | byte | short | int | long
  | char | float | double | if | else | for | while | do | switch | case | default | assert
  | break | continue | return | throw | throws | try | catch | finally | const | goto | trueWord
  | falseWord | nullWord | underscore
  | assign | addAssign | subAssign | mulAssign | divAssign | modAssign | andAssign | orAssign
  | xorAssign | leftShiftAssign | rightShiftAssign | unsignedRightShiftAssign | plus | minus
  | star | slash | percent | increment | decrement | bang | tilde | amp | pipe | caret
  | leftShift | rightShift | unsignedRightShift | andAnd | orOr | equal | notEqual | less
  | lessEqual | greater | greaterEqual | question | colon | doubleColon | arrow
  | leftParen | rightParen | leftBracket | rightBracket | leftBrace | rightBrace | semicolon
  | comma | dot | at | ellipsis
  | stringLiteral | textBlock | charLiteral | intLiteral | longLiteral | floatLiteral
  | identifier | lineComment | blockComment | whitespace | byteOrderMark | invalid | endOfInput
  deriving DecidableEq, Repr

namespace TokenKind

def keywords : List (String × TokenKind) :=
  [("package", .package), ("import", .import), ("static", .static), ("public", .public),
   ("protected", .protected), ("private", .private), ("abstract", .abstract), ("final", .final),
   ("native", .native), ("synchronized", .synchronized), ("transient", .transient),
   ("volatile", .volatile), ("strictfp", .strictfp), ("class", .class), ("interface", .interface),
   ("enum", .enum), ("extends", .extends), ("implements", .implements), ("new", .new),
   ("this", .this), ("super", .super), ("instanceof", .instanceOf), ("void", .void),
   ("boolean", .boolean), ("byte", .byte), ("short", .short), ("int", .int), ("long", .long),
   ("char", .char), ("float", .float), ("double", .double), ("if", .if), ("else", .else),
   ("for", .for), ("while", .while), ("do", .do), ("switch", .switch), ("case", .case),
   ("default", .default), ("assert", .assert), ("break", .break), ("continue", .continue),
   ("return", .return), ("throw", .throw), ("throws", .throws), ("try", .try), ("catch", .catch),
   ("finally", .finally), ("const", .const), ("goto", .goto), ("true", .trueWord),
   ("false", .falseWord), ("null", .nullWord), ("_", .underscore)]

/-- The operators and separators with their kinds, longer spellings first: of all spellings that
begin a text, the first one in this list is the longest. -/
def symbols : List (String × TokenKind) :=
  [(">>>=", .unsignedRightShiftAssign), ("<<=", .leftShiftAssign), (">>=", .rightShiftAssign),
   (">>>", .unsignedRightShift), ("...", .ellipsis), ("+=", .addAssign), ("-=", .subAssign),
   ("*=", .mulAssign), ("/=", .divAssign), ("%=", .modAssign), ("&=", .andAssign),
   ("|=", .orAssign), ("^=", .xorAssign), ("++", .increment), ("--", .decrement),
   ("<<", .leftShift), (">>", .rightShift), ("&&", .andAnd), ("||", .orOr), ("==", .equal),
   ("!=", .notEqual), ("<=", .lessEqual), (">=", .greaterEqual), ("::", .doubleColon),
   ("->", .arrow), ("=", .assign), ("+", .plus), ("-", .minus), ("*", .star), ("/", .slash),
   ("%", .percent), ("!", .bang), ("~", .tilde), ("&", .amp), ("|", .pipe), ("^", .caret),
   ("<", .less), (">", .greater), ("?", .question), (":", .colon), ("(", .leftParen),
   (")", .rightParen), ("[", .leftBracket), ("]", .rightBracket), ("\x7b", .leftBrace),
   ("\x7d", .rightBrace), (";", .semicolon), (",", .comma), (".", .dot), ("@", .at)]

/-- The name of a kind in listings; that of most keywords is their spelling, capitalized. -/
def label : TokenKind → String
  | .instanceOf => "InstanceOf"
  | .underscore => "Underscore"
  | .assign => "Assign"
  | .addAssign => "AddAssign"
  | .subAssign => "SubAssign"
  | .mulAssign => "MulAssign"
  | .divAssign => "DivAssign"
  | .modAssign => "ModAssign"
  | .andAssign => "AndAssign"
  | .orAssign => "OrAssign"
  | .xorAssign => "XorAssign"
  | .leftShiftAssign => "LShiftAssign"
  | .rightShiftAssign => "RShiftAssign"
  | .unsignedRightShiftAssign => "URShiftAssign"
  | .plus => "Plus"
  | .minus => "Minus"
  | .star => "Star"
  | .slash => "Slash"
  | .percent => "Percent"
  | .increment => "Inc"
  | .decrement => "Dec"
  | .bang => "Bang"
  | .tilde => "Tilde"
  | .amp => "Amp"
  | .pipe => "Pipe"
  | .caret => "Caret"
  | .leftShift => "LShift"
  | .rightShift => "RShift"
  | .unsignedRightShift => "URShift"
  | .andAnd => "AndAnd"
  | .orOr => "PipePipe"
  | .equal => "Eq"
  | .notEqual => "Ne"
  | .less => "Lt"
  | .lessEqual => "Le"
  | .greater => "Gt"
  | .greaterEqual => "Ge"
  | .question => "Question"
  | .colon => "Colon"
  | .doubleColon => "DoubleColon"
  | .arrow => "Arrow"
  | .leftParen => "LParen"
  | .rightParen => "RParen"
  | .leftBracket => "LBracket"
  | .rightBracket => "RBracket"
  | .leftBrace => "LBrace"
  | .rightBrace => "RBrace"
  | .semicolon => "Semicolon"
  | .comma => "Comma"
  | .dot => "Dot"
  | .at => "At"
  | .ellipsis => "Ellipsis"
  | .stringLiteral => "StringLiteral"
  | .textBlock => "TextBlock"
  | .charLiteral => "CharLiteral"
  | .intLiteral => "IntLiteral"
  | .longLiteral => "LongLiteral"
  | .floatLiteral => "FloatLiteral"
  | .identifier => "Identifier"
  | .lineComment => "LineComment"
  | .blockComment => "BlockComment"
  | .whitespace => "Whitespace"
  | .byteOrderMark => "Bom"
  | .invalid => "Invalid"
  | .endOfInput => "Eof"
  | keyword =>
    ((keywords.find? fun entry => entry.2 == keyword).map fun entry => entry.1.capitalize).getD ""

def isKeyword (kind : TokenKind) : Bool :=
  keywords.any fun entry => entry.2 == kind

def isModifier : TokenKind → Bool
  | .public | .protected | .private | .abstract | .final | .native | .synchronized
  | .transient | .volatile | .static | .strictfp => true
  | _ => false

def isPrimitiveType : TokenKind → Bool
  | .boolean | .byte | .short | .int | .long | .char | .float | .double => true
  | _ => false

def isLiteral : TokenKind → Bool
  | .stringLiteral | .textBlock | .charLiteral | .intLiteral | .longLiteral | .floatLiteral
  | .trueWord | .falseWord | .nullWord => true
  | _ => false

def isOperator (kind : TokenKind) : Bool :=
  assign.ctorIdx ≤ kind.ctorIdx && kind.ctorIdx ≤ arrow.ctorIdx

def isAssignment : TokenKind → Bool
  | .assign | .addAssign | .subAssign | .mulAssign | .divAssign | .modAssign | .andAssign
  | .orAssign | .xorAssign | .leftShiftAssign | .rightShiftAssign
  | .unsignedRightShiftAssign => true
  | _ => false

/-- A token without meaning for the grammar: white space and comments. -/
def isTrivia : TokenKind → Bool
  | .whitespace | .lineComment | .blockComment | .byteOrderMark => true
  | _ => false

def isDelimited : TokenKind → Bool
  | .stringLiteral | .textBlock | .charLiteral | .blockComment => true
  | _ => false

def describe : TokenKind → String
  | .identifier => "Identifier"
  | .intLiteral | .longLiteral | .floatLiteral | .stringLiteral | .textBlock
  | .charLiteral => "Literal"
  | .semicolon => ";"
  | .comma => ","
  | .dot => "."
  | .leftParen => "("
  | .rightParen => ")"
  | .leftBrace => "\x7b"
  | .rightBrace => "\x7d"
  | .leftBracket => "["
  | .rightBracket => "]"
  | .less => "<"
  | .greater => ">"
  | .colon => ":"
  | .arrow => "->"
  | .assign => "="
  | .question => "?"
  | .at => "@"
  | .ellipsis => "..."
  | .doubleColon => "::"
  | .while => "while"
  | .class => "class"
  | .interface => "interface"
  | .enum => "enum"
  | .case => "case"
  | .default => "default"
  | .endOfInput => "EOF"
  | _ => "token"

end TokenKind

inductive TokenClass where
  | keyword | identifier | literal | operator | punctuation | invalid
  deriving DecidableEq, Repr

/-- The class of a kind; the words `true`, `false` and `null` count as literals. -/
def TokenKind.tokenClass (kind : TokenKind) : TokenClass :=
  if kind = .identifier then .identifier
  else if kind = .invalid then .invalid
  else if kind.isLiteral then .literal
  else if kind.isKeyword then .keyword
  else if kind.isOperator then .operator
  else .punctuation

/-- A word that is an identifier, except where the grammar gives it a meaning. -/
inductive ContextualKeyword where
  | record | var | yield | sealed | permits | when
  deriving DecidableEq, Repr

namespace ContextualKeyword

def ofWord? : String → Option ContextualKeyword
  | "record" => some .record
  | "var" => some .var
  | "yield" => some .yield
  | "sealed" => some .sealed
  | "permits" => some .permits
  | "when" => some .when
  | _ => none

def feature : ContextualKeyword → Feature
  | record => .records
  | var => .varLocalInference
  | yield => .switchExpressions
  | sealed | permits => .sealedTypes
  | when => .switchPatterns

end ContextualKeyword

structure Token where
  kind : TokenKind
  /-- The closing delimiter is there; tokens without one count as closed. -/
  closed : Bool := true
  lexeme : String
  span : Span
  deriving DecidableEq, Repr

namespace Token

/-- The contextual keyword that a token spells, when the level knows it. -/
def contextualKeyword? (token : Token) (level : Level) : Option ContextualKeyword :=
  if token.kind = .identifier then
    (ContextualKeyword.ofWord? token.lexeme).filter fun keyword => level.allows keyword.feature
  else none

def isWord (token : Token) (word : String) : Bool :=
  token.kind == .identifier && token.lexeme == word

/-- The name of a token in listings, which tells whether a delimited token is closed. -/
def label (token : Token) : String :=
  if token.kind.isDelimited then
    token.kind.label ++ if token.closed then "(Closed)" else "(Unclosed)"
  else token.kind.label

/-- The problem of a token that lacks its closing delimiter, or of a character literal that does
not hold exactly one character. -/
def problem? (token : Token) : Option Diagnostic :=
  let report (message : String) : Option Diagnostic :=
    if token.closed then none else some (.error .unterminatedLiteral message token.span)
  match token.kind with
  | .stringLiteral => report "String literal is not properly closed by a double-quote"
  | .textBlock => report "Text block is not properly closed with the delimiter"
  | .charLiteral => report "Invalid character constant"
  | .blockComment => report "Unexpected end of comment"
  | _ => none

end Token

end JavaFrontEnd

namespace JavaFrontEnd.Scan

/-! Reading one token off the front of a text. Each class of tokens has a reader of its own, which
says how many characters the token takes. A text that no reader accepts begins with an invalid
character, which is a token by itself, so a text with a first character always has a first token.
Where two readers accept a text the longer token counts; the readers are tried in an order that
gives just that. -/

variable (character first : Char) (rest : List Char)

structure Reading where
  kind : TokenKind
  closed : Bool := true
  /-- The length of the token less one: a token is never empty. -/
  further : Nat
  deriving DecidableEq, Repr

/-! ### Words and blanks -/

def isWordStart : Bool :=
  character.isAlpha || character = '_' || character = '$'

def isWordPart : Bool :=
  character.isAlphanum || character = '_' || character = '$'

def isSpace : Bool :=
  character = ' ' || character = '\t' || character = '\n' || character = '\r' || character = '\x0c'

def runLength (accepts : Char → Bool) (characters : List Char) : Nat :=
  (characters.takeWhile accepts).length

/-- The kind of a word: the kind of the reserved word that it spells, or identifier. -/
def wordKind (word : String) : TokenKind :=
  (TokenKind.keywords.lookup word).getD .identifier

def word : Reading :=
  let tail := rest.takeWhile isWordPart
  { kind := wordKind (String.ofList (first :: tail)), further := tail.length }

/-! ### Numbers -/

def isDigitPart : Bool :=
  character.isDigit || character = '_'

def isBinaryPart : Bool :=
  character = '0' || character = '1' || character = '_'

def isHexDigit : Bool :=
  character.isDigit || ('a' ≤ character && character ≤ 'f') ||
    ('A' ≤ character && character ≤ 'F')

def isHexPart : Bool :=
  isHexDigit character || character = '_'

/-- The letter after a floating-point literal that fixes its type. -/
def isFloatSuffix : Bool :=
  character = 'f' || character = 'F' || character = 'd' || character = 'D'

/-- The length of an exponent at the front of a text, zero when there is none. -/
def exponentLength (characters : List Char) : Nat :=
  let digitsAfter (before : Nat) (digits : List Char) : Nat :=
    match runLength Char.isDigit digits with
    | 0 => 0
    | count => before + count
  match characters with
  | mark :: rest =>
    if mark = 'e' || mark = 'E' then
      match rest with
      | '+' :: digits => digitsAfter 2 digits
      | '-' :: digits => digitsAfter 2 digits
      | digits => digitsAfter 1 digits
    else 0
  | [] => 0

/-- One when a text begins with a character that has a property, else zero. -/
def oneIf (accepts : Char → Bool) : List Char → Nat
  | [] => 0
  | character :: _ => if accepts character then 1 else 0

/-- The length of an exponent and a type suffix, either of which may be missing. -/
def floatTailLength (characters : List Char) : Nat :=
  let exponent := exponentLength characters
  exponent + oneIf isFloatSuffix (characters.drop exponent)

/-- An integer literal whose digits end after `further` characters of `rest`. The letter `L`
makes it a long one. -/
def integer (further : Nat) : Reading :=
  match rest.drop further with
  | 'l' :: _ => { kind := .longLiteral, further := further + 1 }
  | 'L' :: _ => { kind := .longLiteral, further := further + 1 }
  | _ => { kind := .intLiteral, further }

/-- The digits after a radix mark such as `0x`; nothing when there are none, for then the zero
stands alone. -/
def radixDigits? : Option Nat :=
  let counted (accepts : Char → Bool) (digits : List Char) : Option Nat :=
    match runLength accepts digits with
    | 0 => none
    | count => some (count + 1)
  if first ≠ '0' then none
  else
    match rest with
    | 'x' :: digits => counted isHexPart digits
    | 'X' :: digits => counted isHexPart digits
    | 'b' :: digits => counted isBinaryPart digits
    | 'B' :: digits => counted isBinaryPart digits
    | _ => none

/-- Reads a literal that begins with a digit. A point, an exponent or a type suffix after decimal
digits makes it a floating-point one. -/
def number : Reading :=
  match radixDigits? first rest with
  | some further => integer rest further
  | none =>
    let whole := runLength isDigitPart rest
    match rest.drop whole with
    | '.' :: fraction =>
      let places := runLength isDigitPart fraction
      let tail := floatTailLength (fraction.drop places)
      { kind := .floatLiteral, further := whole + 1 + places + tail }
    | after =>
      match floatTailLength after with
      | 0 => integer rest whole
      | tail => { kind := .floatLiteral, further := whole + tail }

/-- Reads a floating-point literal that begins with a point; `rest` begins with a digit. -/
def fraction : Reading :=
  let places := runLength isDigitPart rest
  { kind := .floatLiteral, further := places + floatTailLength (rest.drop places) }

/-! ### Strings, characters and comments -/

/-- The end of a string on its line: the number of characters up to and with the closing quote,
or up to the end of the line when there is none. A backslash takes away the meaning of a quote or
backslash after it. -/
def stringEnd (escaped : Bool) (count : Nat) : List Char → Bool × Nat
  | [] => (false, count)
  | character :: rest =>
    if character = '\n' || character = '\r' then (false, count)
    else if escaped then stringEnd false (count + 1) rest
    else if character = '\\' then stringEnd true (count + 1) rest
    else if character = '"' then (true, count + 1)
    else stringEnd false (count + 1) rest

def stringLiteral : Reading :=
  let (closed, further) := stringEnd false 0 rest
  { kind := .stringLiteral, closed, further }

/-- The end of a text block: the number of characters up to and with the closing quotes, or all of
them when there are none. A backslash takes away the meaning of the character after it. -/
def textBlockEnd (count : Nat) : List Char → Bool × Nat
  | [] => (false, count)
  | '\\' :: [] => (false, count + 1)
  | '\\' :: _ :: rest => textBlockEnd (count + 2) rest
  | '"' :: '"' :: '"' :: _ => (true, count + 3)
  | _ :: rest => textBlockEnd (count + 1) rest

/-- Reads a text block after its opening quotes, of which two are still to be counted. -/
def textBlock : Reading :=
  let (closed, further) := textBlockEnd 0 rest
  { kind := .textBlock, closed, further := further + 2 }

def isOctalDigit : Bool :=
  '0' ≤ character && character ≤ '7'

/-- The text between the quotes of a character literal stands for one character: a plain
character, or one escape sequence. -/
def isCharacterBody : List Char → Bool
  | [character] => character ≠ '\\'
  | '\\' :: letter :: tail =>
    if ['b', 't', 'n', 'f', 'r', 's', '"', '\'', '\\'].contains letter then tail.isEmpty
    else if isOctalDigit letter then tail.length ≤ 2 && tail.all isOctalDigit
    else if letter = 'u' then
      let digits := tail.dropWhile (· = 'u')
      digits.length = 4 && digits.all isHexDigit
    else false
  | _ => false

/-- The number of characters before the closing quote of a character literal, if the line has
one. -/
def closingQuote? (escaped : Bool) (count : Nat) : List Char → Option Nat
  | [] => none
  | character :: rest =>
    if character = '\n' || character = '\r' then none
    else if escaped then closingQuote? false (count + 1) rest
    else if character = '\\' then closingQuote? true (count + 1) rest
    else if character = '\'' then some count
    else closingQuote? false (count + 1) rest

/-- Reads a character literal after its opening quote. Without a closing quote on the line the
literal takes one character. -/
def charLiteral : Reading :=
  match closingQuote? false 0 rest with
  | some count =>
    { kind := .charLiteral, closed := isCharacterBody (rest.take count), further := count + 1 }
  | none =>
    { kind := .charLiteral, closed := false,
      further := oneIf (fun character => character ≠ '\n' && character ≠ '\r') rest }

/-- The end of a block comment: the number of characters up to and with its end mark, or all of
them when there is none. -/
def commentEnd (count : Nat) : List Char → Bool × Nat
  | [] => (false, count)
  | '*' :: '/' :: _ => (true, count + 2)
  | _ :: rest => commentEnd (count + 1) rest

/-- Reads a block comment after its opening mark, of which one character is still to be
counted. -/
def blockComment : Reading :=
  let (closed, further) := commentEnd 0 rest
  { kind := .blockComment, closed, further := further + 1 }

/-! ### Every token -/

def symbolTable : List (List Char × TokenKind) :=
  TokenKind.symbols.map fun entry => (entry.1.toList, entry.2)

/-- Reads the longest operator or separator; a character that begins none is invalid. -/
def symbol : Reading :=
  match symbolTable.find? fun entry => entry.1.isPrefixOf (first :: rest) with
  | some entry => { kind := entry.2, further := entry.1.length - 1 }
  | none => { kind := .invalid, further := 0 }

def token : Reading :=
  if isWordStart first then word first rest
  else if isSpace first then { kind := .whitespace, further := runLength isSpace rest }
  else if first.isDigit then number first rest
  else if first = '\ufeff' then { kind := .byteOrderMark, further := 0 }
  else
    match first, rest with
    | '/', '/' :: comment =>
      { kind := .lineComment,
        further := 1 + runLength (fun character => character ≠ '\n') comment }
    | '/', '*' :: comment => blockComment comment
    | '"', '"' :: '"' :: block => textBlock block
    | '"', string => stringLiteral string
    | '\'', literal => charLiteral literal
    | '.', digit :: more =>
      if digit.isDigit then fraction (digit :: more) else symbol first rest
    | _, _ => symbol first rest

end JavaFrontEnd.Scan

namespace JavaFrontEnd

/-! A source text as a sequence of tokens. Cutting a text into tokens loses nothing: the lexemes,
put together again, are the text. What the grammar sees are the tokens other than white space and
comments, and an end mark after them. -/

/-- The kind of a token at a level: a word that is not yet reserved there is an identifier. -/
def TokenKind.atLevel (kind : TokenKind) (level : Level) : TokenKind :=
  match kind with
  | .assert => if level.allows .assertKeyword then .assert else .identifier
  | .enum => if level.allows .enums then .enum else .identifier
  | .underscore => if level.allows .underscoreKeyword then .underscore else .identifier
  | other => other

namespace Token

/-- Cuts a text into tokens, white space and comments included, behind tokens already cut. -/
def cut (level : Level) (location : Location) (before : Array Token) : List Char → Array Token
  | [] => before
  | first :: rest =>
    let reading := Scan.token first rest
    let characters := first :: rest.take reading.further
    let stop := location.advanceOver characters
    let token : Token :=
      { kind := reading.kind.atLevel level, closed := reading.closed,
        lexeme := String.ofList characters, span := ⟨location, stop⟩ }
    cut level stop (before.push token) (rest.drop reading.further)
termination_by characters => characters.length
decreasing_by
  simp only [List.length_drop, List.length_cons]
  omega

def all (level : Level) (source : String) : List Token :=
  (cut level .start #[] source.toList).toList

def endOfInput (location : Location) : Token :=
  { kind := .endOfInput, lexeme := "", span := .point location }

/-- The tokens that the grammar sees: the end mark comes last, at the end of the text. -/
def significant (level : Level) (source : String) : List Token :=
  (all level source).filter (fun token => !token.kind.isTrivia) ++
    [endOfInput (Location.start.advanceOver source.toList)]

def problems (level : Level) (source : String) : List Diagnostic :=
  (all level source).filterMap problem?

end Token

end JavaFrontEnd
