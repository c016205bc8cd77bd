import Lu.Diagnostic.Basic
import Lu.Source.Lines

namespace Lu

/-- When diagnostics are coloured. -/
inductive ColorMode where
  | auto
  | always
  | never
deriving DecidableEq, Repr, Inhabited

namespace ColorMode

def ofText? : String → Option ColorMode
  | "auto" => some .auto
  | "always" => some .always
  | "never" => some .never
  | _ => none

/-- Only the automatic mode looks at where the text goes. -/
def colors (mode : ColorMode) (toTerminal : Bool) : Bool :=
  match mode with
  | .auto => toTerminal
  | .always => true
  | .never => false

end ColorMode

/-- The text that spans point into, with the name it is shown under. -/
structure SourceFile where
  path : String
  chars : List Char
  lines : LineTable

def SourceFile.ofString (path text : String) : SourceFile :=
  ⟨path, text.toList, LineTable.ofChars text.toList⟩

/-- How diagnostics are written on a terminal: one paragraph each, with positions as
`path:line:column` if the source is known and as byte offsets if not. -/
structure Terminal where
  colors : Bool
  source? : Option SourceFile := none

namespace Terminal

/-- Escape sequences that start a style. -/
inductive Style where
  | error
  | warning
  | note
  | help
  | bold
  | secondary
  | errorTag
  | warningTag
  | adviceTag

def Style.sequence : Style → String
  | .error => "\x1b[1;31m"
  | .warning => "\x1b[1;33m"
  | .note => "\x1b[1;36m"
  | .help => "\x1b[1;32m"
  | .bold => "\x1b[1m"
  | .secondary => "\x1b[1;34m"
  | .errorTag => "\x1b[31m"
  | .warningTag => "\x1b[33m"
  | .adviceTag => "\x1b[38;5;147m"

def reset : String := "\x1b[0m"

def styled (terminal : Terminal) (style : Style) (text : String) : String :=
  if terminal.colors then style.sequence ++ text ++ reset else text

def severityStyle : Severity → Style
  | .error => .error
  | .warning => .warning
  | .note => .note
  | .help => .help

def location (terminal : Terminal) (span : Span) : String :=
  match terminal.source? with
  | some file =>
    let (line, column) := file.lines.lineColumn file.chars span.start
    s!"{file.path}:{line}:{column}"
  | none => span.text

def label (terminal : Terminal) (l : Label) : String :=
  let marker := if l.isPrimary then "-->" else "   "
  let style := if l.isPrimary then Style.error else Style.secondary
  s!"  {marker} {terminal.location l.span}: " ++ terminal.styled style l.message ++ "\n"

def note (terminal : Terminal) (text : String) : String :=
  "  = " ++ terminal.styled .bold "note" ++ s!": {text}\n"

def suggestion (terminal : Terminal) (text : String) : String :=
  "  = " ++ terminal.styled .help "help" ++ s!": {text}\n"

/-- The lines below the first: labels, notes and suggestions. -/
def details (terminal : Terminal) (d : Diagnostic) : String :=
  String.join (d.labels.map terminal.label)
    ++ String.join (d.notes.map terminal.note)
    ++ String.join (d.suggestions.map terminal.suggestion)

/-- Headline and details, then an empty line. -/
def render (terminal : Terminal) (d : Diagnostic) : String :=
  terminal.styled (severityStyle d.severity) d.severity.text
    ++ terminal.styled .bold s!"[{d.code.text}]" ++ s!": {d.message}\n"
    ++ terminal.details d ++ "\n"

/-- The closing line: warnings are counted only if there are no errors. -/
def summary (terminal : Terminal) (errors warnings : Nat) : String :=
  if 0 < errors then
    let counted := if errors = 1 then "previous error" else s!"{errors} previous errors"
    terminal.styled .error "error" ++ s!": aborting due to {counted}\n"
  else if 0 < warnings then
    let plural := if warnings = 1 then "" else "s"
    terminal.styled .warning "warning" ++ s!": {warnings} warning{plural} emitted\n"
  else ""

end Terminal

end Lu
