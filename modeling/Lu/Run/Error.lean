import Lu.Decimal.Reading
import Lu.Diagnostic.Basic
import Lu.Tree.Operator
import Lu.Value.Listing

namespace Lu

/-- How a statement ends. -/
inductive Flow where
  /-- At its end, with its value. -/
  | next (value : Value)
  | breakLoop
  | continueLoop
  | returned (value : Value)
deriving Inhabited

def Flow.listing : Flow → Listing
  | .next value => .tagged "Continue" value.listing
  | .breakLoop => .word "Break"
  | .continueLoop => .word "ContinueLoop"
  | .returned value => .tagged "Return" value.listing

/-- A value of the wrong type, met while running. -/
inductive TypeClash where
  | condition (found : Ty)
  | binary (op : BinaryOp) (left right : Ty)
  | unary (op : UnaryOp) (operand : Ty)
  /-- Counted from 1. -/
  | missingArgument (index : Nat)
  | argument (expected : String) (found : Ty)
deriving DecidableEq, Repr

def TypeClash.message : TypeClash → String
  | .condition found => s!"condition must be `int`, found `{found.name}`"
  | .binary op left right =>
    s!"binary operation `{op.symbol}` is not supported for `{left.name}` and `{right.name}`"
  | .unary op operand => s!"unary operation `{op.symbol}` is not supported for `{operand.name}`"
  | .missingArgument index => s!"missing argument {index}"
  | .argument expected found => s!"expected `{expected}` argument, found `{found.name}`"

/-- Why a built-in function refuses its arguments. -/
inductive NativeFailure where
  | negativePrecision (precision : Int64)
  | notInt (x : Float)
  | intText (text : String) (cause : IntTextError)
  | floatText (text : String) (cause : FloatTextError)
  | range (start count : Int64) (length : Nat)

def NativeFailure.message : NativeFailure → String
  | .negativePrecision precision => s!"negative precision {precision.toInt}"
  | .notInt x => FloatLayout.plain.write x ++ " does not fit in an int"
  | .intText text cause => s!"cannot parse `{text}` as int: {cause.message}"
  | .floatText text cause => s!"cannot parse `{text}` as float: {cause.message}"
  | .range start count length =>
    s!"range {start.toInt}..{start.toInt}+{count.toInt} is out of bounds "
      ++ s!"for a string of length {length}"

/-- What cannot happen in a program that has been checked. -/
inductive BrokenInvariant where
  | staleOperands
  | leftOperands (count : Nat)
  | underflow
  | argumentUnderflow
  | assignmentTarget
  | arity (function : String) (supplied expected : Nat)
  | escapedFunction (flow : Flow) (function : String)
  | escapedProgram (flow : Flow)

def BrokenInvariant.message : BrokenInvariant → String
  | .staleOperands => "operand stack is not empty before evaluation"
  | .leftOperands count => s!"operand stack holds {count} values after evaluation"
  | .underflow => "operand stack underflow"
  | .argumentUnderflow => "operand stack underflow in call arguments"
  | .assignmentTarget => "assignment target is not a variable"
  | .arity function supplied expected =>
    s!"`{function}` called with {supplied} arguments, expected {expected}"
  | .escapedFunction flow function => s!"`{flow.listing.inline}` escaped from function `{function}`"
  | .escapedProgram flow => s!"`{flow.listing.inline}` escaped to the top level"

/-- Why a run ends before the program does. -/
inductive RuntimeErrorKind where
  | undefinedVariable (name : String)
  | undefinedFunction (name : String)
  | duplicateDefinition (name : String)
  | divisionByZero
  | moduloByZero
  | integerOverflow (operation : String)
  | typeMismatch (clash : TypeClash)
  | missingReturn (function : String)
  | inputExhausted
  | nativeFailed (function : String) (failure : NativeFailure)
  | stackOverflow (limit : Nat)
  | internal (broken : BrokenInvariant)

namespace RuntimeErrorKind

def message : RuntimeErrorKind → String
  | .undefinedVariable name => s!"undefined variable `{name}`"
  | .undefinedFunction name => s!"undefined function `{name}`"
  | .duplicateDefinition name => s!"`{name}` is already defined in this scope"
  | .divisionByZero => "division by zero"
  | .moduloByZero => "modulo by zero"
  | .integerOverflow operation => s!"integer overflow in {operation}"
  | .typeMismatch clash => s!"type mismatch: {clash.message}"
  | .missingReturn function => s!"function `{function}` must return"
  | .inputExhausted => "no more input"
  | .nativeFailed function failure => s!"`{function}` failed: {failure.message}"
  | .stackOverflow limit => s!"maximum call depth of {limit} exceeded"
  | .internal broken => s!"internal evaluator error: {broken.message}"

def code : RuntimeErrorKind → ErrorCode
  | .undefinedVariable _ => .E6001
  | .undefinedFunction _ => .E6002
  | .duplicateDefinition _ => .E6003
  | .divisionByZero => .E6004
  | .moduloByZero => .E6005
  | .integerOverflow _ => .E6006
  | .typeMismatch _ => .E6007
  | .missingReturn _ => .E6008
  | .inputExhausted => .E6009
  | .nativeFailed .. => .E6010
  | .stackOverflow _ => .E6011
  | .internal _ => .E9001

end RuntimeErrorKind

/-- A call of a function that has not returned yet. -/
structure CallFrame where
  function : String
  span : Span
deriving DecidableEq, Repr, Inhabited

/-- An error with its place and the calls around it, the innermost first. -/
structure RuntimeError where
  kind : RuntimeErrorKind
  span : Span
  backtrace : List CallFrame := []

namespace RuntimeError

/-- Adds the active calls to an error that has none. -/
def withBacktrace (calls : List CallFrame) (e : RuntimeError) : RuntimeError :=
  if e.backtrace.isEmpty then { e with backtrace := calls } else e

/-- A diagnostic shows the innermost eight calls. -/
def shownCalls : Nat := 8

def diagnostic (e : RuntimeError) : Diagnostic :=
  let base := Diagnostic.errorAt e.kind.code e.kind.message e.span
  let calls := (e.backtrace.take shownCalls).map fun frame =>
    (⟨false, frame.span, s!"in this call to `{frame.function}`"⟩ : Label)
  let d := { base with labels := base.labels ++ calls }
  let hidden := e.backtrace.length - shownCalls
  let d := if 0 < hidden then d.withNote s!"{hidden} more calls not shown" else d
  match e.kind with
  | .stackOverflow _ => d.withNote "the limit can be raised with `--max-depth`"
  | .internal _ => d.withNote "this is a bug in the interpreter"
  | _ => d

end RuntimeError

end Lu
