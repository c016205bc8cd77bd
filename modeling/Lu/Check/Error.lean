import Lu.Diagnostic.Basic
import Lu.Tree.Operator
import Lu.Tree.Symbol

namespace Lu

/-- Where a value of a certain type is expected. -/
inductive TypePlace where
  | returned
  | initialization
  | assignment
  | ifCondition
  | whileCondition
  | forStart
  | forCondition
  /-- The argument counted from 1, the parameter it is for, and the function. -/
  | argument (index : Nat) (param function : String)
deriving DecidableEq, Repr

def TypePlace.text : TypePlace → String
  | .returned => "return"
  | .initialization => "variable initialization"
  | .assignment => "assignment"
  | .ifCondition => "`if` condition"
  | .whileCondition => "`while` condition"
  | .forStart => "`for` start value"
  | .forCondition => "`for` condition"
  | .argument index param function => s!"argument #{index} (`{param}`) of `{function}`"

/-- Why a program breaks the static rules. -/
inductive CheckErrorKind where
  | duplicateName (name : String)
  | unknownName (name : String)
  | unknownType (name : String)
  /-- A function stands where a variable is expected. -/
  | notVariable (name : String)
  /-- A variable stands where a function is expected. -/
  | notFunction (name : String)
  | outsideLoop (keyword : String)
  | outsideFunction
  | assignmentTarget
  | wrongArity (function : String) (expected supplied : Nat)
  | binaryOperands (op : BinaryOp) (left right : Ty)
  | unaryOperand (op : UnaryOp) (operand : Ty)
  | mismatch (place : TypePlace) (expected found : Ty)
  | nativeArgument (index : Nat) (param : NativeParam) (function : String) (found : Ty)
  | valuelessInit (name : String)
  | nilInit (name : String)
  | unwantedResult (function : String) (found : Ty)
  | noFinalReturn (function : String) (result : Ty)
deriving DecidableEq, Repr

/-- The classes of static errors. -/
inductive CheckErrorClass where
  | duplicateSymbol
  | unknownSymbol
  | invalidSymbol
  | typeError
  | invalidExpression
  | invalidAssignment
  | invalidFunctionCall
deriving DecidableEq, Repr

def CheckErrorClass.code : CheckErrorClass → ErrorCode
  | .duplicateSymbol => .E2001
  | .unknownSymbol => .E2002
  | .invalidSymbol => .E2003
  | .typeError => .E2004
  | .invalidExpression => .E2005
  | .invalidAssignment => .E2006
  | .invalidFunctionCall => .E2007

namespace CheckErrorKind

def message : CheckErrorKind → String
  | .duplicateName name => s!"`{name}` is already declared in this scope"
  | .unknownName name => s!"cannot find variable or function `{name}` in this scope"
  | .unknownType name => s!"cannot find type `{name}`"
  | .notVariable name => s!"`{name}` is a function, expected a variable"
  | .notFunction name => s!"`{name}` is a variable, expected a function"
  | .outsideLoop keyword => s!"`{keyword}` is only allowed inside a loop"
  | .outsideFunction => "`return` is only allowed inside a function"
  | .assignmentTarget => "left side of an assignment must be a variable"
  | .wrongArity function expected supplied =>
    let plural := if expected = 1 then "" else "s"
    let were := if supplied = 1 then "was" else "were"
    s!"function `{function}` takes {expected} argument{plural}, but {supplied} {were} supplied"
  | .binaryOperands op left right =>
    s!"binary operation `{op.symbol}` is not allowed for types `{left.name}` and `{right.name}`"
  | .unaryOperand op operand =>
    s!"unary operation `{op.symbol}` is not allowed for type `{operand.name}`"
  | .mismatch place expected found =>
    s!"mismatched types in {place.text}: expected `{expected.name}`, found `{found.name}`"
  | .nativeArgument index param function found =>
    s!"mismatched types in argument #{index} (`{param.name}`) of `{function}`: "
      ++ s!"expected `{param.typeText}`, found `{found.name}`"
  | .valuelessInit name => s!"cannot initialize `{name}` from an expression without a value"
  | .nilInit name => s!"type of `{name}` cannot be inferred from `nil`"
  | .unwantedResult function found =>
    s!"function `{function}` has no return type, but returns a value of type `{found.name}`"
  | .noFinalReturn function .void => s!"function `{function}` must end with `return;`"
  | .noFinalReturn function result =>
    s!"function `{function}` must end with a `return` of type `{result.name}`"

def category : CheckErrorKind → CheckErrorClass
  | .duplicateName _ => .duplicateSymbol
  | .unknownName _ | .unknownType _ => .unknownSymbol
  | .notVariable _ | .notFunction _ => .invalidSymbol
  | .outsideLoop _ | .outsideFunction => .invalidExpression
  | .assignmentTarget => .invalidAssignment
  | .wrongArity .. => .invalidFunctionCall
  | .binaryOperands .. | .unaryOperand .. | .mismatch .. | .nativeArgument .. | .valuelessInit _
  | .nilInit _ | .unwantedResult .. | .noFinalReturn .. => .typeError

/-- The expected and the found type of a mismatch. -/
def mismatch? : CheckErrorKind → Option (Ty × Ty)
  | .mismatch _ expected found => some (expected, found)
  | _ => none

end CheckErrorKind

structure CheckError where
  kind : CheckErrorKind
  span : Span
deriving DecidableEq, Repr

def CheckError.code (e : CheckError) : ErrorCode := e.kind.category.code

def CheckError.diagnostic (e : CheckError) : Diagnostic :=
  let d := Diagnostic.errorAt e.code e.kind.message e.span
  match e.kind.mismatch? with
  | some (expected, found) => d.withNote s!"expected `{expected.name}`, found `{found.name}`"
  | none => d

/-- How a check fails: by an error of the program, or by a fault of the checker. -/
inductive CheckFailure where
  | error (e : CheckError)
  | fault (f : Fault)
deriving DecidableEq, Repr

abbrev Check (α : Type) := Except CheckFailure α

namespace Check

def fail {α : Type} (kind : CheckErrorKind) (span : Span) : Check α := .error (.error ⟨kind, span⟩)

/-- The value of an attempt that only a fault can stop. -/
def lift {α : Type} : Except Fault α → Check α
  | .ok value => .ok value
  | .error f => .error (.fault f)

@[simp] theorem fail_ne_ok {α : Type} {kind : CheckErrorKind} {span : Span} {value : α} :
    fail kind span ≠ .ok value := nofun

@[simp] theorem lift_eq_ok {α : Type} {result : Except Fault α} {value : α} :
    lift result = .ok value ↔ result = .ok value := by
  cases result <;> simp [lift]

end Check

end Lu
