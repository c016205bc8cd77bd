import Lu.Token.Basic
import Lu.Value.Listing

namespace Lu

/-- The name of a mark in a listing. -/
def Mark.listingName : Mark → String
  | .plus => "Plus"
  | .minus => "Minus"
  | .star => "Star"
  | .slash => "Slash"
  | .percent => "Percent"
  | .caret => "Caret"
  | .bang => "Bang"
  | .assign => "Eq"
  | .equal => "EqEq"
  | .notEqual => "NotEq"
  | .less => "Lt"
  | .lessEqual => "LtEq"
  | .greater => "Gt"
  | .greaterEqual => "GtEq"
  | .andAnd => "AmpAmp"
  | .orOr => "PipePipe"
  | .leftParen => "LParen"
  | .rightParen => "RParen"
  | .leftBrace => "LBrace"
  | .rightBrace => "RBrace"
  | .comma => "Comma"
  | .semicolon => "Semicolon"
  | .colon => "Colon"

/-- Literals are listed as their values, keywords with a capital letter. -/
def TokenKind.listing : TokenKind → Listing
  | .int n => (Value.int n).listing
  | .float x => (Value.float x).listing
  | .str text => (Value.str text).listing
  | .ident name => .tagged "Ident" (.word (listingQuoted name))
  | .keyword k => .word k.text.capitalize
  | .mark m => .word m.listingName
  | .eof => .word "Eof"

/-- A token on one line, with its place. -/
def Token.listing (token : Token) : String := s!"{token.kind.listing.inline} @ {token.span}"

end Lu
