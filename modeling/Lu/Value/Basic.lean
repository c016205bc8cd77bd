import Lu.Decimal.Layout
import Lu.Value.Type

namespace Lu

/-- What a program computes with. -/
inductive Value where
  | int (n : Int64)
  | float (x : Float)
  | str (text : String)
  | void
  | nil
deriving Inhabited

/-- Floats closer than a thousandth count as equal. -/
def nearlyEqual (x y : Float) : Bool := (x - y).abs < 0.001

namespace Value

def type : Value → Ty
  | .int _ => .int
  | .float _ => .float
  | .str _ => .str
  | .void => .void
  | .nil => .nil

/-- Truth values are the integers 1 and 0. -/
def ofBool (b : Bool) : Value := .int (if b then 1 else 0)

def asInt? : Value → Option Int64
  | .int n => some n
  | _ => none

def asFloat? : Value → Option Float
  | .float x => some x
  | _ => none

def asStr? : Value → Option String
  | .str text => some text
  | _ => none

/-- The number a value is, as a float. -/
def asNumber? : Value → Option Float
  | .int n => some n.toFloat
  | .float x => some x
  | _ => none

/-- Equality of the language. With a float on either side numbers are compared up to the
tolerance, so it is not transitive. -/
def equals : Value → Value → Bool
  | .int a, .int b => a == b
  | .str a, .str b => a == b
  | .void, .void => true
  | .nil, .nil => true
  | .float a, .float b => nearlyEqual a b
  | .int a, .float b => nearlyEqual a.toFloat b
  | .float a, .int b => nearlyEqual a b.toFloat
  | _, _ => false

/-- The text of a value as it is printed. -/
def display : Value → String
  | .int n => toString n.toInt
  | .float x => FloatLayout.plain.write x
  | .str text => text
  | .void => "void"
  | .nil => "nil"

end Value

end Lu
