import Lu.Diagnostic.Code
import Lu.Source.Span

namespace Lu

inductive Severity where
  | error
  | warning
  | note
  | help
deriving DecidableEq, Repr

def Severity.text : Severity → String
  | .error => "error"
  | .warning => "warning"
  | .note => "note"
  | .help => "help"

/-- A place in the source and what to say about it. The primary label is where the error is;
the others say how it came about. -/
structure Label where
  isPrimary : Bool
  span : Span
  message : String
deriving DecidableEq, Repr

/-- All that is said to the reader about one error. -/
structure Diagnostic where
  code : ErrorCode
  severity : Severity
  message : String
  labels : List Label := []
  notes : List String := []
  suggestions : List String := []
deriving DecidableEq, Repr

namespace Diagnostic

/-- An error at one place, which the label describes by the code. -/
def errorAt (code : ErrorCode) (message : String) (span : Span) : Diagnostic :=
  { code, severity := .error, message, labels := [⟨true, span, code.description⟩] }

def withNote (diagnostic : Diagnostic) (note : String) : Diagnostic :=
  { diagnostic with notes := diagnostic.notes ++ [note] }

def withSuggestion (diagnostic : Diagnostic) (suggestion : String) : Diagnostic :=
  { diagnostic with suggestions := diagnostic.suggestions ++ [suggestion] }

def isError (diagnostic : Diagnostic) : Bool := diagnostic.severity == .error

/-- The place of the first primary label. -/
def primarySpan? (diagnostic : Diagnostic) : Option Span :=
  (diagnostic.labels.find? (·.isPrimary)).map (·.span)

/-- The diagnostic on one line. -/
def headline (diagnostic : Diagnostic) : String :=
  s!"{diagnostic.severity.text}[{diagnostic.code.text}]: {diagnostic.message}"

end Diagnostic

end Lu
