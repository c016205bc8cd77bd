import Lu.Run.Environment
import Lu.Run.Operators
import Lu.Text.Blank
import Lu.Tree.Symbol

namespace Lu

/-- The built-in functions. -/
inductive Native where
  | itos | ftos | ftoi | itof | sconcat | strlen | substr | stoi | stof
  | input | printf | prints | print
  | abs | sqrt | pow | min | max
deriving DecidableEq, Repr

/-- Why a built-in function gives no value. -/
inductive NativeStop where
  | error (kind : RuntimeErrorKind)
  | fault (f : Fault)

/-- A value and what became of the environment. -/
abbrev NativeResult := Except NativeStop (Value × Environment)

namespace Native

def all : List Native :=
  [.itos, .ftos, .ftoi, .itof, .sconcat, .strlen, .substr, .stoi, .stof,
   .input, .printf, .prints, .print, .abs, .sqrt, .pow, .min, .max]

def signature : Native → NativeSignature
  | .itos => ⟨"itos", [⟨"i", [.int]⟩], .str⟩
  | .ftos => ⟨"ftos", [⟨"f", [.float]⟩, ⟨"p", [.int]⟩], .str⟩
  | .ftoi => ⟨"ftoi", [⟨"f", [.float]⟩], .int⟩
  | .itof => ⟨"itof", [⟨"i", [.int]⟩], .float⟩
  | .sconcat => ⟨"sconcat", [⟨"s1", [.str]⟩, ⟨"s2", [.str]⟩], .str⟩
  | .strlen => ⟨"strlen", [⟨"s", [.str]⟩], .int⟩
  | .substr => ⟨"substr", [⟨"s", [.str]⟩, ⟨"from", [.int]⟩, ⟨"len", [.int]⟩], .str⟩
  | .stoi => ⟨"stoi", [⟨"s", [.str]⟩], .int⟩
  | .stof => ⟨"stof", [⟨"s", [.str]⟩], .float⟩
  | .input => ⟨"input", [], .str⟩
  | .printf => ⟨"printf", [⟨"f", [.float]⟩, ⟨"p", [.int]⟩], .void⟩
  | .prints => ⟨"prints", [⟨"s", [.str]⟩], .void⟩
  | .print => ⟨"print", [⟨"n", [.int, .float]⟩], .void⟩
  | .abs => ⟨"abs", [⟨"x", [.int]⟩], .int⟩
  | .sqrt => ⟨"sqrt", [⟨"x", [.float]⟩], .float⟩
  | .pow => ⟨"pow", [⟨"x", [.int]⟩, ⟨"y", [.int]⟩], .int⟩
  | .min => ⟨"min", [⟨"x", [.int]⟩, ⟨"y", [.int]⟩], .int⟩
  | .max => ⟨"max", [⟨"x", [.int]⟩, ⟨"y", [.int]⟩], .int⟩

def name (native : Native) : String := native.signature.name

def ofName? (name : String) : Option Native := all.find? (·.name == name)

/-- What the checker is told of the built-in functions. -/
def signatures : List NativeSignature := all.map signature

/-- The argument at an index, counted from 0. -/
def arg (args : List Value) (index : Nat) : Except RuntimeErrorKind Value :=
  match args[index]? with
  | some value => .ok value
  | none => .error (.typeMismatch (.missingArgument (index + 1)))

def intArg (args : List Value) (index : Nat) : Except RuntimeErrorKind Int64 := do
  match ← arg args index with
  | .int n => return n
  | value => .error (.typeMismatch (.argument "int" value.type))

def floatArg (args : List Value) (index : Nat) : Except RuntimeErrorKind Float := do
  match ← arg args index with
  | .float x => return x
  | value => .error (.typeMismatch (.argument "float" value.type))

def strArg (args : List Value) (index : Nat) : Except RuntimeErrorKind String := do
  match ← arg args index with
  | .str text => return text
  | value => .error (.typeMismatch (.argument "str" value.type))

/-- More places than this cannot be asked for. -/
def mostPlaces : Nat := 65535

/-- The first argument with as many places as the second says. -/
def placesText (native : Native) (args : List Value) : Except NativeStop String := do
  let x ← (floatArg args 0).mapError .error
  let precision ← (intArg args 1).mapError .error
  if precision.toInt < 0 then
    .error (.error (.nativeFailed native.name (.negativePrecision precision)))
  else if mostPlaces < precision.toInt.toNat then .error (.fault .formatOutOfRange)
  else return writePlaces precision.toInt.toNat x

/-- The integer next to a float on the side of zero. -/
def toInt (x : Float) : Except RuntimeErrorKind Int64 :=
  let value := truncated x
  if -9223372036854775808.0 ≤ value ∧ value < 9223372036854775808.0 then .ok value.toInt64
  else .error (.nativeFailed "ftoi" (.notInt value))

/-- The characters of a text from one index on, if it has that many. -/
def substring (text : String) (start count : Int64) : Except RuntimeErrorKind String :=
  let chars := text.toList
  if 0 ≤ start.toInt ∧ 0 ≤ count.toInt ∧ start.toInt + count.toInt ≤ (chars.length : Int) then
    .ok (String.ofList ((chars.drop start.toInt.toNat).take count.toInt.toNat))
  else .error (.nativeFailed "substr" (.range start count chars.length))

/-- Reads an integer, white space around it left out. -/
def parseInt (text : String) : Except RuntimeErrorKind Int64 :=
  match readInt (trimBlanks text.toList) with
  | .ok n => .ok n
  | .error cause => .error (.nativeFailed "stoi" (.intText text cause))

/-- Reads a float, white space around it left out. -/
def parseFloat (text : String) : Except RuntimeErrorKind Float :=
  match readFloat (trimBlanks text.toList) with
  | .ok x => .ok x
  | .error cause => .error (.nativeFailed "stof" (.floatText text cause))

/-- The line that `print` prints. -/
def printedNumber (value : Value) : Except RuntimeErrorKind String :=
  match value with
  | .int _ | .float _ => .ok value.display
  | other => .error (.typeMismatch (.argument "int|float" other.type))

/-- What a built-in function does. It gives a value or stops, and leaves an environment behind in either
case. -/
abbrev Action := EStateM NativeStop Environment Value

/-- An attempt at a value that does not look at the environment. -/
def answer (attempt : Except RuntimeErrorKind Value) : Action :=
  ofExcept (attempt.mapError .error)

/-- Prints a line, once there is one. -/
def printLine (attempt : Except NativeStop String) : Action := do
  let line ← ofExcept attempt
  modify (·.print line)
  return .void

/-- Runs a built-in function. Arguments beyond its parameters are not looked at. -/
def run (native : Native) (args : List Value) : Action :=
  match native with
  | .itos => answer do return .str (toString (← intArg args 0).toInt)
  | .ftos => do return .str (← ofExcept (placesText .ftos args))
  | .ftoi => answer do return .int (← toInt (← floatArg args 0))
  | .itof => answer do return .float (← intArg args 0).toFloat
  | .sconcat => answer do return .str ((← strArg args 0) ++ (← strArg args 1))
  | .strlen => answer do return .int (← checkedInt "strlen" (← strArg args 0).length)
  | .substr => answer do
    let text ← strArg args 0
    let start ← intArg args 1
    let count ← intArg args 2
    return .str (← substring text start count)
  | .stoi => answer do return .int (← parseInt (← strArg args 0))
  | .stof => answer do return .float (← parseFloat (← strArg args 0))
  | .input => do
    match (← get).read with
    | some (line, env) =>
      set env
      return .str line
    | none => throw (.error .inputExhausted)
  | .printf => printLine (placesText .printf args)
  | .prints => printLine ((strArg args 0).mapError .error)
  | .print => printLine ((arg args 0 >>= printedNumber).mapError .error)
  | .abs => answer do return .int (← checkedInt "abs" (← intArg args 0).toInt.natAbs)
  | .sqrt => answer do return .float (← floatArg args 0).sqrt
  | .pow => answer do
    let base ← intArg args 0
    let exponent ← intArg args 1
    return .int (← intPow base exponent)
  | .min => answer do
    let a ← intArg args 0
    let b ← intArg args 1
    return .int (if b < a then b else a)
  | .max => answer do
    let a ← intArg args 0
    let b ← intArg args 1
    return .int (if a < b then b else a)

/-- A value with the environment after it, if the function gives one. -/
def Action.result (action : Action) (env : Environment) : NativeResult :=
  match action env with
  | .ok value after => .ok (value, after)
  | .error stop _ => .error stop

def call (native : Native) (args : List Value) (env : Environment) : NativeResult :=
  (native.run args).result env

end Native

end Lu
