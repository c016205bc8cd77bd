import Lu.Decimal.Reading
import Lu.Source.Lines
import Lu.Token.Basic
import Lu.Token.Error

namespace Lu

/-- What the characters at the front of a source text are. -/
inductive Lexeme where
  /-- White space or a comment. -/
  | gap
  | token (kind : TokenKind)
  | error (kind : LexErrorKind)
deriving Inhabited

/-- A lexeme with the characters it covers and those after it. -/
structure Piece where
  lexeme : Lexeme
  text : List Char
  rest : List Char
deriving Inhabited

def isSpace (c : Char) : Bool := c = ' ' || c = '\t' || c = '\r' || c = '\n'

def isIdentStart (c : Char) : Bool := c.isAlpha || c = '_'

def isIdentPart (c : Char) : Bool := c.isAlphanum || c = '_'

/-- Digits of a base, with the underscores that may stand between them. -/
def isDigitPart (base : Nat) (c : Char) : Bool := (digitValue? base c).isSome || c = '_'

/-- Splits a comment body after its closing mark. -/
def splitComment? : List Char → List Char → Option (List Char × List Char)
  | body, '*' :: '/' :: rest => some (('/' :: '*' :: body).reverse, rest)
  | body, c :: rest => splitComment? (c :: body) rest
  | _, [] => none

/-- Splits text from a string at the first quote or line end that no backslash precedes. A
backslash at the end of a line or of the text is left over too. -/
def splitString (body : List Char) (chars : List Char) : List Char × List Char :=
  match chars with
  | '\\' :: c :: rest =>
    if c = '\n' then (body.reverse, chars) else splitString (c :: '\\' :: body) rest
  | c :: rest =>
    if c = '"' || c = '\\' || c = '\n' || c = '\r' then (body.reverse, chars)
    else splitString (c :: body) rest
  | [] => (body.reverse, [])

/-- The character that an escape stands for. -/
def escaped? : Char → Option Char
  | 'n' => some '\n'
  | 'r' => some '\r'
  | 't' => some '\t'
  | '\\' => some '\\'
  | '"' => some '"'
  | '0' => some '\x00'
  | _ => none

/-- Resolves the escapes of a string body; a backslash that starts none is reported by the
character after it. -/
def unescape (decoded : List Char) : List Char → Except Char (List Char)
  | [] => .ok decoded.reverse
  | '\\' :: c :: rest =>
    match escaped? c with
    | some meant => unescape (meant :: decoded) rest
    | none => .error c
  | c :: rest => if c = '\\' then .error c else unescape (c :: decoded) rest

/-- A sign at the front of the text, if there is one. -/
def splitSign : List Char → List Char × List Char
  | '+' :: rest => (['+'], rest)
  | '-' :: rest => (['-'], rest)
  | rest => ([], rest)

/-- The exponent at the front of the text, if there is a whole one. -/
def splitExponent? : List Char → Option (List Char × List Char)
  | e :: chars =>
    if e = 'e' ∨ e = 'E' then
      let digits := (splitSign chars).2
      let power := digits.takeWhile Char.isDigit
      if power.isEmpty then none
      else some (e :: ((splitSign chars).1 ++ power), digits.dropWhile Char.isDigit)
    else none
  | [] => none

def withoutUnderscores (text : List Char) : List Char := text.filter (· ≠ '_')

/-- An integer literal, whose digits are those in the given base, underscores left out. -/
def intPiece (base : Nat) (digits text rest : List Char) : Piece :=
  match readBased base (withoutUnderscores digits) with
  | .ok n => ⟨.token (.int n), text, rest⟩
  | .error _ => ⟨.error (.numberOutOfRange (String.ofList text)), text, rest⟩

/-- A float literal. Its text is a decimal number once the underscores are gone. -/
def floatPiece (text rest : List Char) : Piece :=
  let x := match readParts? (withoutUnderscores text) with
    | some parts => parts.value
    | none => 0.0
  ⟨.token (.float x), text, rest⟩

/-- A number at the front of the text. `whole` are the digits read so far, in the decimal base; a
point counts only with a digit after it, and an exponent only if it is whole. -/
def decimalPiece (whole rest : List Char) : Piece :=
  match rest with
  | '.' :: d :: more =>
    if d.isDigit then
      let text := whole ++ '.' :: d :: more.takeWhile (isDigitPart 10)
      match splitExponent? (more.dropWhile (isDigitPart 10)) with
      | some (exponent, rest) => floatPiece (text ++ exponent) rest
      | none => floatPiece text (more.dropWhile (isDigitPart 10))
    else intPiece 10 whole whole rest
  | _ =>
    match splitExponent? rest with
    | some (exponent, rest) => floatPiece (whole ++ exponent) rest
    | none => intPiece 10 whole whole rest

/-- The base that a letter after a zero announces. -/
def announcedBase? : Char → Option Nat
  | 'x' => some 16
  | 'b' => some 2
  | _ => none

/-- An integer in another base, from the zero at its front on. A digit of the base has to follow
the letter at once. -/
def basedPiece? : List Char → Option Piece
  | zero :: letter :: digit :: more =>
    if zero = '0' then
      match announcedBase? letter with
      | some base =>
        if (digitValue? base digit).isSome then
          let digits := digit :: more.takeWhile (isDigitPart base)
          some (intPiece base digits (zero :: letter :: digits) (more.dropWhile (isDigitPart base)))
        else none
      | none => none
    else none
  | _ => none

/-- A number that starts with the given digit. -/
def numberPiece (first : Char) (chars : List Char) : Piece :=
  match basedPiece? (first :: chars) with
  | some piece => piece
  | none =>
    decimalPiece (first :: chars.takeWhile (isDigitPart 10)) (chars.dropWhile (isDigitPart 10))

/-- A string after its opening quote. A string that is not closed on its line is reported before
its escapes are looked at. -/
def stringPiece (chars : List Char) : Piece :=
  match splitString [] chars with
  | (body, '"' :: rest) =>
    let text := '"' :: body ++ ['"']
    match unescape [] body with
    | .ok decoded => ⟨.token (.str (String.ofList decoded)), text, rest⟩
    | .error c => ⟨.error (.invalidEscape c), text, rest⟩
  | (body, rest) => ⟨.error .unterminatedString, '"' :: body, rest⟩

/-- An identifier or a keyword. -/
def wordPiece (first : Char) (chars : List Char) : Piece :=
  let text := first :: chars.takeWhile isIdentPart
  let name := String.ofList text
  let kind := match Keyword.ofText? name with
    | some k => TokenKind.keyword k
    | none => .ident name
  ⟨.token kind, text, chars.dropWhile isIdentPart⟩

/-- The mark of one character. -/
def simpleMark? : Char → Option Mark
  | '+' => some .plus
  | '-' => some .minus
  | '*' => some .star
  | '/' => some .slash
  | '%' => some .percent
  | '^' => some .caret
  | '!' => some .bang
  | '=' => some .assign
  | '<' => some .less
  | '>' => some .greater
  | '(' => some .leftParen
  | ')' => some .rightParen
  | '{' => some .leftBrace
  | '}' => some .rightBrace
  | ',' => some .comma
  | ';' => some .semicolon
  | ':' => some .colon
  | _ => none

/-- The mark of two characters. -/
def doubleMark? : Char → Char → Option Mark
  | '=', '=' => some .equal
  | '!', '=' => some .notEqual
  | '<', '=' => some .lessEqual
  | '>', '=' => some .greaterEqual
  | '&', '&' => some .andAnd
  | '|', '|' => some .orOr
  | _, _ => none

def simplePiece (first : Char) (chars : List Char) : Piece :=
  match simpleMark? first with
  | some m => ⟨.token (.mark m), [first], chars⟩
  | none => ⟨.error (.invalidCharacter first), [first], chars⟩

/-- A mark, the longer one first, or a character that starts no token. -/
def markPiece (first : Char) (chars : List Char) : Piece :=
  match chars with
  | second :: rest =>
    match doubleMark? first second with
    | some m => ⟨.token (.mark m), [first, second], rest⟩
    | none => simplePiece first chars
  | [] => simplePiece first chars

/-- A comment, or the mark that its first character is. Block comments do not nest. -/
def slashPiece (chars : List Char) : Piece :=
  match chars with
  | '/' :: rest =>
    ⟨.gap, '/' :: '/' :: rest.takeWhile (· ≠ '\n'), rest.dropWhile (· ≠ '\n')⟩
  | '*' :: rest =>
    match splitComment? [] rest with
    | some (body, rest) => ⟨.gap, '/' :: '*' :: body, rest⟩
    | none => ⟨.error .unterminatedComment, '/' :: '*' :: rest, []⟩
  | _ => markPiece '/' chars

/-- The longest lexeme at the front of a text that is not empty. -/
def firstPiece (first : Char) (chars : List Char) : Piece :=
  if isSpace first then ⟨.gap, first :: chars.takeWhile isSpace, chars.dropWhile isSpace⟩
  else if first.isDigit then numberPiece first chars
  else if isIdentStart first then wordPiece first chars
  else if first = '"' then stringPiece chars
  else if first = '/' then slashPiece chars
  else markPiece first chars

end Lu
