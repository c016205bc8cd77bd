import Lu.Diagnostic.Basic

namespace Lu

/-- What is wrong with a piece of source text that is no token. -/
inductive LexErrorKind where
  | unterminatedString
  | unterminatedComment
  | invalidEscape (c : Char)
  | numberOutOfRange (text : String)
  | invalidCharacter (c : Char)
deriving DecidableEq, Repr

namespace LexErrorKind

def message : LexErrorKind → String
  | .unterminatedString => "unterminated string literal"
  | .unterminatedComment => "unterminated block comment"
  | .invalidEscape c => "invalid escape sequence `\\" ++ c.toString ++ "`"
  | .numberOutOfRange text => s!"number literal `{text}` is out of range"
  | .invalidCharacter c => "invalid character `" ++ c.toString ++ "`"

def code : LexErrorKind → ErrorCode
  | .unterminatedString => .E0001
  | .invalidCharacter _ => .E0002
  | .numberOutOfRange _ => .E0003
  | .unterminatedComment => .E0004
  | .invalidEscape _ => .E0005

end LexErrorKind

structure LexError where
  kind : LexErrorKind
  span : Span
deriving DecidableEq, Repr

def LexError.diagnostic (e : LexError) : Diagnostic :=
  let d := Diagnostic.errorAt e.kind.code e.kind.message e.span
  match e.kind with
  | .unterminatedString => d.withSuggestion "add a closing `\"` before the end of the line"
  | .invalidEscape _ => d.withNote "valid escapes are \\n \\t \\r \\\\ \\\" and \\0"
  | .numberOutOfRange _ => d.withNote "integers must fit in a signed 64-bit value"
  | .unterminatedComment => d.withSuggestion "close the comment with `*/`"
  | .invalidCharacter _ => d

end Lu
