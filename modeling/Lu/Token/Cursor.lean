import Lu.Token.Basic

namespace Lu

/-- A place in a list of tokens: those already read, the last one first, and those to come. -/
structure Cursor where
  passed : List Token := []
  ahead : List Token
deriving Inhabited

namespace Cursor

def ofTokens (tokens : List Token) : Cursor := { ahead := tokens }

def position (cursor : Cursor) : Nat := cursor.passed.length

/-- All the tokens, wherever the cursor stands. -/
def tokens (cursor : Cursor) : List Token := cursor.passed.reverse ++ cursor.ahead

/-- The token at the cursor. Behind the last token that is the last one again, and the end of
file if there are no tokens. -/
def current (cursor : Cursor) : Token :=
  match cursor.ahead, cursor.passed with
  | token :: _, _ => token
  | [], token :: _ => token
  | [], [] => ⟨.eof, Span.nowhere⟩

def currentKind (cursor : Cursor) : TokenKind := cursor.current.kind

def currentSpan (cursor : Cursor) : Span := cursor.current.span

/-- Where the last token read stands. -/
def previousSpan (cursor : Cursor) : Span :=
  match cursor.passed with
  | token :: _ => token.span
  | [] => Span.nowhere

def isAtEnd (cursor : Cursor) : Bool := cursor.currentKind.sameKind .eof

def check (cursor : Cursor) (kind : TokenKind) : Bool := cursor.currentKind.sameKind kind

/-- Moves past the current token; at the end the cursor stays. -/
def advance (cursor : Cursor) : Cursor :=
  match cursor.ahead with
  | token :: rest => ⟨token :: cursor.passed, rest⟩
  | [] => cursor

@[simp] theorem tokens_advance (cursor : Cursor) : cursor.advance.tokens = cursor.tokens := by
  unfold advance tokens
  split <;> simp_all

end Cursor

end Lu
