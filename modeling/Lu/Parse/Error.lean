import Lu.Diagnostic.Basic
import Lu.Token.Basic

namespace Lu

/-- Why the tokens are no program. -/
inductive ParseErrorKind where
  | expectedToken (expected found : TokenKind)
  /-- A `let` without an initial value. -/
  | uninitialized (name : String) (found : TokenKind)
  | unclosedBlock
  | forHeader
  | expectedExpression (found : TokenKind)
  | expectedIdentifier (found : TokenKind)
  | expectedType (found : TokenKind)

namespace ParseErrorKind

def message : ParseErrorKind → String
  | .expectedToken expected found => s!"expected {expected.name}, found {found.name}"
  | .uninitialized _ found => s!"expected `=`, found {found.name}"
  | .unclosedBlock => "expected `\x7d`, found end of file"
  | .forHeader => "expected a `let` declaration or an assignment in `for` header"
  | .expectedExpression found => s!"expected expression, found {found.name}"
  | .expectedIdentifier found => s!"expected identifier, found {found.name}"
  | .expectedType found => s!"expected type, found {found.name}"

def code : ParseErrorKind → ErrorCode
  | .expectedToken .. | .uninitialized .. | .unclosedBlock | .forHeader => .E1001
  | .expectedExpression _ => .E1002
  | .expectedIdentifier _ => .E1004
  | .expectedType _ => .E1005

/-- How to mend it, where that is plain. -/
def help? : ParseErrorKind → Option String
  | .uninitialized name _ => some s!"variables must be initialized: `let {name} = ...;`"
  | .unclosedBlock => some "this block is never closed"
  | _ => none

end ParseErrorKind

structure ParseError where
  kind : ParseErrorKind
  span : Span

def ParseError.diagnostic (e : ParseError) : Diagnostic :=
  let d := Diagnostic.errorAt e.kind.code e.kind.message e.span
  match e.kind.help? with
  | some help => d.withSuggestion help
  | none => d

end Lu
