import Lu.Parse.Error
import Lu.Token.Cursor

namespace Lu

/-- Where a parser stands, and the number that the next function gets. -/
structure ParseState where
  cursor : Cursor
  nextFunction : Nat := 0

/-- How a parser ends. Fuel runs out only on tokens without an end of file. -/
inductive Parsed (α : Type) where
  | done (value : α) (state : ParseState)
  | failed (e : ParseError)
  | outOfFuel

def Parser (α : Type) := ParseState → Parsed α

namespace Parser

@[always_inline, inline]
protected def pure {α : Type} (value : α) : Parser α := fun state => .done value state

@[always_inline, inline]
protected def bind {α β : Type} (first : Parser α) (next : α → Parser β) : Parser β := fun state =>
  match first state with
  | .done value state => next value state
  | .failed e => .failed e
  | .outOfFuel => .outOfFuel

@[always_inline]
instance : Monad Parser where
  pure := Parser.pure
  bind := Parser.bind

@[simp] theorem pure_apply {α : Type} (value : α) (state : ParseState) :
    (Pure.pure value : Parser α) state = .done value state := rfl

theorem bind_apply {α β : Type} (first : Parser α) (next : α → Parser β) (state : ParseState) :
    (first >>= next) state = match first state with
      | .done value state => next value state
      | .failed e => .failed e
      | .outOfFuel => .outOfFuel := rfl

def outOfFuel {α : Type} : Parser α := fun _ => .outOfFuel

@[inline] def fail {α : Type} (kind : ParseErrorKind) (span : Span) : Parser α :=
  fun _ => .failed ⟨kind, span⟩

/-- The cursor, which stays where it is. -/
@[inline] def cursor : Parser Cursor := fun state => .done state.cursor state

/-- Reads the current token, whatever it is. -/
@[inline] def advance : Parser Token := fun state =>
  .done state.cursor.current { state with cursor := state.cursor.advance }

/-- Reads a token of the given kind if there is one. -/
@[inline] def eat (kind : TokenKind) : Parser Bool := fun state =>
  if state.cursor.check kind then .done true { state with cursor := state.cursor.advance }
  else .done false state

/-- Reads a token of the given kind, or fails there. -/
def expect (kind : TokenKind) : Parser Token := fun state =>
  let current := state.cursor.current
  if state.cursor.check kind then .done current { state with cursor := state.cursor.advance }
  else .failed ⟨.expectedToken kind current.kind, current.span⟩

/-- Reads a name, or fails there. -/
def expectIdent : Parser (String × Span) := fun state =>
  let current := state.cursor.current
  match current.kind with
  | .ident name => .done (name, current.span) { state with cursor := state.cursor.advance }
  | found => .failed ⟨.expectedIdentifier found, current.span⟩

/-- The next number for a function. The numbers have no limit: a text with more functions than there
are 32-bit words is longer than a span can measure. -/
def freshFunction : Parser Nat := fun state =>
  .done state.nextFunction { state with nextFunction := state.nextFunction + 1 }

end Parser

end Lu
