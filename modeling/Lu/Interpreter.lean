import Lu.Check.Analysis
import Lu.Parse.Grammar
import Lu.Run.Eval
import Lu.Token.Lexer

namespace Lu

/-- The first error on the way from a source text to its value. -/
inductive ProgramError where
  | lex (e : LexError)
  | parse (e : ParseError)
  | check (e : CheckError)
  | run (e : RuntimeError)

namespace ProgramError

def diagnostic : ProgramError → Diagnostic
  | .lex e => e.diagnostic
  | .parse e => e.diagnostic
  | .check e => e.diagnostic
  | .run e => e.diagnostic

def code (e : ProgramError) : ErrorCode := e.diagnostic.code

def message (e : ProgramError) : String := e.diagnostic.message

end ProgramError

/-- Why there is no answer: the program is wrong, the interpreter is, or the fuel ran out. -/
inductive Stop where
  | error (e : ProgramError)
  | fault (f : Fault)
  | outOfFuel

namespace Source

def tokens (source : String) : Except Stop (List Token) :=
  (lex source).mapError fun e => .error (.lex e)

def program (source : String) : Except Stop Program := do
  match parse? (← tokens source) with
  | some (.ok program) => return program
  | some (.error e) => .error (.error (.parse e))
  | none => .error .outOfFuel

/-- The program after the given steps of the analysis. -/
def analysed (steps : List AnalysisStep) (source : String) : Except Stop Program := do
  match (← program source).analyse steps with
  | .ok program => return program
  | .error (.error e) => .error (.error (.check e))
  | .error (.fault f) => .error (.fault f)

/-- The program ready to run. -/
def checked (source : String) : Except Stop Program := analysed AnalysisStep.all source

end Source

/-- The machine of an interpreter that has not run anything yet. -/
def Machine.fresh (callLimit : Nat) (env : Environment) : Machine :=
  { calls := CallStack.ofLimit callLimit, env }

/-- How many calls may be active at once, unless another limit is asked for. -/
def defaultCallLimit : Nat := 10000

/-- Runs a program on a machine; gives the machine after it, which is the same if fuel runs out. -/
def Machine.run (fuel : Nat) (program : Program) (machine : Machine) : Except Stop Value × Machine :=
  match machine.evaluate fuel program with
  | .done value after => (.ok value, after)
  | .failed e after => (.error (.error (.run e)), after)
  | .faulted f after => (.error (.fault f), after)
  | .outOfFuel => (.error .outOfFuel, machine)

/-- Runs a source text on a machine, after the given steps of the analysis. -/
def Machine.runSource (fuel : Nat) (steps : List AnalysisStep) (source : String) (machine : Machine) :
    Except Stop Value × Machine :=
  match Source.analysed steps source with
  | .ok program => machine.run fuel program
  | .error stop => (.error stop, machine)

/-- Checks a source text and runs it on a machine of its own; gives what became of the
environment. -/
def execute (fuel callLimit : Nat) (source : String) (env : Environment) :
    Except Stop Value × Environment :=
  let (result, after) := (Machine.fresh callLimit env).runSource fuel AnalysisStep.all source
  (result, after.env)

end Lu
