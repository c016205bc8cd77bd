import Lu.Source.Span

namespace Lu

/-- Words that are no identifiers. -/
inductive Keyword where
  | letK | fnK | returnK | ifK | elseK | whileK | forK | breakK | continueK | trueK | falseK | nilK
deriving DecidableEq, Repr, Inhabited

namespace Keyword

def all : List Keyword :=
  [.letK, .fnK, .returnK, .ifK, .elseK, .whileK, .forK, .breakK, .continueK, .trueK, .falseK,
   .nilK]

def text : Keyword → String
  | .letK => "let" | .fnK => "fn" | .returnK => "return" | .ifK => "if" | .elseK => "else"
  | .whileK => "while" | .forK => "for" | .breakK => "break" | .continueK => "continue"
  | .trueK => "true" | .falseK => "false" | .nilK => "nil"

def ofText? (text : String) : Option Keyword := all.find? (·.text == text)

theorem ofText?_text (keyword : Keyword) : ofText? keyword.text = some keyword := by
  cases keyword <;> decide

end Keyword

/-- Operators and delimiters. -/
inductive Mark where
  | plus | minus | star | slash | percent | caret
  | bang | assign | equal | notEqual | less | lessEqual | greater | greaterEqual | andAnd | orOr
  | leftParen | rightParen | leftBrace | rightBrace | comma | semicolon | colon
deriving DecidableEq, Repr, Inhabited

def Mark.text : Mark → String
  | .plus => "+" | .minus => "-" | .star => "*" | .slash => "/" | .percent => "%" | .caret => "^"
  | .bang => "!" | .assign => "=" | .equal => "==" | .notEqual => "!=" | .less => "<"
  | .lessEqual => "<=" | .greater => ">" | .greaterEqual => ">=" | .andAnd => "&&" | .orOr => "||"
  | .leftParen => "(" | .rightParen => ")" | .leftBrace => "\x7b" | .rightBrace => "\x7d"
  | .comma => "," | .semicolon => ";" | .colon => ":"

inductive TokenKind where
  | int (n : Int64)
  | float (x : Float)
  /-- The text is what the literal means, its escapes resolved. -/
  | str (text : String)
  | ident (name : String)
  | keyword (k : Keyword)
  | mark (m : Mark)
  | eof
deriving Inhabited

namespace TokenKind

/-- The kind in messages: fixed tokens are quoted, the others described. -/
def name : TokenKind → String
  | .int _ => "integer literal"
  | .float _ => "float literal"
  | .str _ => "string literal"
  | .ident _ => "identifier"
  | .keyword k => s!"`{k.text}`"
  | .mark m => s!"`{m.text}`"
  | .eof => "end of file"

/-- Whether two kinds are the same up to what a literal or an identifier holds. -/
def sameKind : TokenKind → TokenKind → Bool
  | .int _, .int _ | .float _, .float _ | .str _, .str _ | .ident _, .ident _ | .eof, .eof => true
  | .keyword a, .keyword b => a == b
  | .mark a, .mark b => a == b
  | _, _ => false

end TokenKind

structure Token where
  kind : TokenKind
  span : Span
deriving Inhabited

end Lu
