import Lu.Command.Invocation
import Lu.Diagnostic.Report
import Lu.Token.Listing
import Lu.Tree.Listing

namespace Lu

/-- Why a file gives no source text. -/
inductive FileError where
  /-- The words of the operating system, and its number for them. -/
  | system (text : String) (number : Nat)
  | notText
deriving DecidableEq, Repr

def FileError.message : FileError → String
  | .system text number => s!"{text} (os error {number})"
  | .notText => "stream did not contain valid UTF-8"

/-- The source text that the bytes of a file are. -/
def FileError.decode (bytes : ByteArray) : Except FileError String :=
  match String.fromUTF8? bytes with
  | some text => .ok text
  | none => .error .notText

/-- What a command leaves behind: the exit code and what it writes to either stream. -/
structure Reply where
  exitCode : Nat := 0
  output : String := ""
  errors : String := ""
  /-- Whether the program stopped because it wanted another line of input. -/
  wantsInput : Bool := false
deriving DecidableEq, Repr, Inhabited

namespace Reply

def version : String := "0.1.0"

def usage : String := s!"Lu interpreter

Usage: lu <command> <file.lu> [options]

Commands:
  run <file.lu>        Check and run a program
  check <file.lu>      Check a program without running it
  parse <file.lu>      Parse and print the AST
  lex <file.lu>        Tokenize and print tokens
  help                 Show this help message
  version              Show version information

Options:
  --max-depth=<n>      Maximum call depth (default: {defaultCallLimit})
  --color=<mode>       Diagnostic colors: auto, always, never

Environment:
  RUST_LOG=<filter>    Enable tracing output (e.g. RUST_LOG=lu_sema=debug)
  LU_LOG_TREE=1        Render tracing as an indented span tree
"

def failure (errors : String) : Reply := { exitCode := 1, errors }

/-- The exit code when the interpreter itself is at fault. -/
def faultCode : Nat := 101

/-- What a file is to be shown with. -/
structure Setting where
  path : String
  source : String
  options : Options
  /-- Whether the errors go to a terminal. -/
  toTerminal : Bool

def Setting.terminal (setting : Setting) : Terminal :=
  { colors := setting.options.color.colors setting.toTerminal
    source? := some (SourceFile.ofString setting.path setting.source) }

/-- The reply for what has no answer, after some lines of output. -/
def ofStop (setting : Setting) (output : String) : Stop → Reply
  | .error e =>
    { exitCode := 1
      output
      errors := setting.terminal.report e.diagnostic
      wantsInput := e.code == .E6009 }
  | .fault f => { exitCode := faultCode, output, errors := f.message ++ "\n" }
  | .outOfFuel => { exitCode := faultCode, output, errors := "out of fuel\n" }

/-- The lines that a program has printed. -/
def printedText (env : Environment) : String :=
  env.output.foldl (fun text line => text ++ line ++ "\n") ""

/-- Runs the program; its value is not shown. -/
def run (fuel : Nat) (setting : Setting) (input : List String) : Reply :=
  match execute fuel setting.options.callLimit setting.source { input } with
  | (.ok _, env) => { output := printedText env }
  | (.error stop, env) => ofStop setting (printedText env) stop

def check (setting : Setting) : Reply :=
  match Source.checked setting.source with
  | .ok _ => { output := s!"OK: {setting.path}\n" }
  | .error stop => ofStop setting "" stop

def parse (setting : Setting) : Reply :=
  match Source.program setting.source with
  | .ok program =>
    let count := program.statements.length
    { output := s!"Parse result for '{setting.path}' ({count} statements):\n"
        ++ program.listing.lines ++ "\n" }
  | .error stop => ofStop setting "" stop

def lex (setting : Setting) : Reply :=
  match Source.tokens setting.source with
  | .ok tokens =>
    let lines := tokens.map fun token => "  " ++ token.listing ++ "\n"
    { output := s!"Tokens for '{setting.path}' ({tokens.length} tokens):\n" ++ String.join lines }
  | .error stop => ofStop setting "" stop

def perform (fuel : Nat) (setting : Setting) (input : List String) : FileAction → Reply
  | .run => run fuel setting input
  | .check => check setting
  | .parse => parse setting
  | .lex => lex setting

end Reply

/-- Answers a command line. The file is that of the path, if there is one. -/
def Invocation.reply (fuel : Nat) (toTerminal : Bool) (file : Except FileError String)
    (input : List String) : Invocation → Reply
  | .usage => { output := Reply.usage }
  | .version => { output := s!"Lu {Reply.version}\n" }
  | .badOption e => Reply.failure s!"error: {e.message}\n"
  | .noPath action =>
    Reply.failure s!"error: missing file path\nUsage: lu {action.name} <file.lu>\n"
  | .unknown command =>
    { exitCode := 1, output := Reply.usage, errors := s!"Unknown command: {command}\n\n" }
  | .perform action path options =>
    match file with
    | .ok source => Reply.perform fuel ⟨path, source, options, toTerminal⟩ input action
    | .error e => Reply.failure s!"error: cannot read '{path}': {e.message}\n"

end Lu
