import Lu.Decimal.Reading
import Lu.Diagnostic.Terminal
import Lu.Interpreter

namespace Lu

/-- What can be asked for on the command line besides the command and the file. -/
structure Options where
  callLimit : Nat := defaultCallLimit
  color : ColorMode := .auto
deriving DecidableEq, Repr, Inhabited

/-- Why an argument is no option. -/
inductive OptionError where
  | callLimit (text : String)
  | color (text : String)
  | unknown (argument : String)
deriving DecidableEq, Repr

def OptionError.message : OptionError → String
  | .callLimit text => s!"invalid --max-depth value '{text}'"
  | .color text => s!"invalid --color value '{text}' (expected auto, always or never)"
  | .unknown argument => s!"unknown option '{argument}'"

namespace Options

/-- The greatest limit that can be asked for, a 64-bit word. -/
def greatestLimit : Nat := 18446744073709551615

/-- Reads a limit: digits, with a plus sign in front or without. -/
def readLimit? (text : String) : Option Nat :=
  let digits := match text.toList with
    | '+' :: digits => digits
    | digits => digits
  if digits ≠ [] ∧ digits.all Char.isDigit then
    some (positionalValue 10 digits) |>.filter (· ≤ greatestLimit)
  else none

/-- What follows a text at the beginning of another. -/
def after? (start text : String) : Option String :=
  if start.toList.isPrefixOf text.toList then some (String.ofList (text.toList.drop start.length))
  else none

/-- Obeys one argument; a later one overrides an earlier one. -/
def apply (options : Options) (argument : String) : Except OptionError Options :=
  match after? "--max-depth=" argument, after? "--color=" argument with
  | some text, _ =>
    match readLimit? text with
    | some callLimit => .ok { options with callLimit }
    | none => .error (.callLimit text)
  | none, some text =>
    match ColorMode.ofText? text with
    | some color => .ok { options with color }
    | none => .error (.color text)
  | none, none => .error (.unknown argument)

end Options

end Lu
