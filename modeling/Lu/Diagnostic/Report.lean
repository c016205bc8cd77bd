import Lu.Diagnostic.Terminal

namespace Lu

/-!
A report is what the command line shows for an error. Unlike the paragraph of a terminal it begins
with the code.
-/

/-- The first line of a text. A carriage return before the newline belongs to the line break. -/
def firstLine (text : String) : String :=
  let line := text.toList.takeWhile (· ≠ '\n')
  String.ofList (if line.getLast? = some '\r' then line.dropLast else line)

namespace Diagnostic

/-- Code and severity, in the words of a report. -/
def reportTag (diagnostic : Diagnostic) : String :=
  let kind := match diagnostic.severity with
    | .error => "Error"
    | .warning => "Warning"
    | .note | .help => "Advice"
  s!"[{diagnostic.code.text}] {kind}:"

/-- The head of a report: its tag and the message. -/
def reportHead (diagnostic : Diagnostic) : String :=
  diagnostic.reportTag ++ " " ++ diagnostic.message

/-- The first line of the report; a message of several lines continues below it. -/
def reportFirstLine (diagnostic : Diagnostic) : String := firstLine diagnostic.reportHead

end Diagnostic

namespace Terminal

def tagStyle : Severity → Style
  | .error => .errorTag
  | .warning => .warningTag
  | .note | .help => .adviceTag

/-- A whole report. -/
def report (terminal : Terminal) (d : Diagnostic) : String :=
  terminal.styled (tagStyle d.severity) d.reportTag ++ s!" {d.message}\n" ++ terminal.details d

end Terminal

/-- The closing line under a list of reports. -/
def reportSummary (errors warnings : Nat) : String :=
  let plural (count : Nat) := if count = 1 then "" else "s"
  if 0 < errors then s!"error: aborting due to {errors} error{plural errors}\n"
  else if 0 < warnings then s!"warning: {warnings} warning{plural warnings} emitted\n"
  else ""

end Lu
