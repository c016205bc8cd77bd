import Lu.Run.Error

namespace Lu

/-- An integer result, or the name of the operation that overflowed. -/
def checkedInt (operation : String) (result : Int) : Except RuntimeErrorKind Int64 :=
  match int64? result with
  | some n => .ok n
  | none => .error (.integerOverflow operation)

/-- A product, unless it does not fit. -/
def product? (a b : Int64) : Option Int64 := int64? (a.toInt * b.toInt)

/-- The number, times the base if the exponent is odd. -/
def timesOdd? (number base : Int64) (exponent : Nat) : Option Int64 :=
  if exponent % 2 = 1 then product? number base else some number

/-- A number times a power of the base, which is squared for each binary digit of the exponent.
None of the products on the way may be too large. -/
def timesPower? (number base : Int64) (exponent : Nat) : Option Int64 :=
  if exponent = 0 then some number
  else if exponent = 1 then product? number base
  else
    match timesOdd? number base exponent, product? base base with
    | some number, some square => timesPower? number square (exponent / 2)
    | _, _ => none

/-- Exponents are 32-bit words, so this is the last one. -/
def lastExponent : Int := 4294967295

/-- A power of integers. With a negative exponent it is the real power cut off toward zero, which
is zero unless the base is 1 or -1. -/
def intPow (base exponent : Int64) : Except RuntimeErrorKind Int64 :=
  let b := base.toInt
  let e := exponent.toInt
  if b = 0 then
    if e < 0 then .error .divisionByZero else .ok (if e = 0 then 1 else 0)
  else if b = 1 then .ok 1
  else if b = -1 then .ok (if e % 2 = 0 then 1 else -1)
  else if e < 0 then .ok 0
  else
    match (if e ≤ lastExponent then timesPower? 1 base e.toNat else none) with
    | some power => .ok power
    | none => .error (.integerOverflow "exponentiation")

/-- An operator on two integers. Division and remainder cut off toward zero. -/
def intBinary (op : BinaryOp) (a b : Int64) : Except RuntimeErrorKind Value :=
  match op with
  | .add => (checkedInt "addition" (a.toInt + b.toInt)).map .int
  | .sub => (checkedInt "subtraction" (a.toInt - b.toInt)).map .int
  | .mul => (checkedInt "multiplication" (a.toInt * b.toInt)).map .int
  | .div =>
    if b = 0 then .error .divisionByZero
    else (checkedInt "division" (a.toInt.tdiv b.toInt)).map .int
  | .mod =>
    if b = 0 then .error .moduloByZero
    else if a.toInt = leastInt ∧ b.toInt = -1 then .error (.integerOverflow "remainder")
    else (checkedInt "remainder" (a.toInt.tmod b.toInt)).map .int
  | .pow => (intPow a b).map .int
  | .equal => .ok (.ofBool (a == b))
  | .notEqual => .ok (.ofBool (a != b))
  | .less => .ok (.ofBool (a < b))
  | .lessEqual => .ok (.ofBool (a ≤ b))
  | .greater => .ok (.ofBool (b < a))
  | .greaterEqual => .ok (.ofBool (b ≤ a))
  | .and => .ok (.ofBool (a != 0 && b != 0))
  | .or => .ok (.ofBool (a != 0 || b != 0))

/-- An operator on two numbers of which one at least is a float. -/
def floatBinary? (op : BinaryOp) (x y : Float) : Option Value :=
  match op with
  | .add => some (.float (x + y))
  | .sub => some (.float (x - y))
  | .mul => some (.float (x * y))
  | .div => some (.float (x / y))
  | .mod => some (.float (floatRemainder x y))
  | .pow => some (.float (x.pow y))
  | .equal => some (.ofBool (nearlyEqual x y))
  | .notEqual => some (.ofBool !(nearlyEqual x y))
  | .less => some (.ofBool (x < y))
  | .lessEqual => some (.ofBool (x < y || nearlyEqual x y))
  | .greater => some (.ofBool (y < x))
  | .greaterEqual => some (.ofBool (y < x || nearlyEqual x y))
  | .and | .or => none

/-- An operator on two strings, which are compared character by character. -/
def strBinary? (op : BinaryOp) (a b : String) : Option Value :=
  match op with
  | .equal => some (.ofBool (a == b))
  | .notEqual => some (.ofBool (a != b))
  | .less => some (.ofBool (a < b))
  | .lessEqual => some (.ofBool !(b < a))
  | .greater => some (.ofBool (b < a))
  | .greaterEqual => some (.ofBool !(a < b))
  | _ => none

/-- Applies an operator to values. Values that cannot be compared by size can still be told
apart. -/
def BinaryOp.eval (op : BinaryOp) (left right : Value) : Except RuntimeErrorKind Value :=
  let orClash : Option Value → Except RuntimeErrorKind Value
    | some value => .ok value
    | none => .error (.typeMismatch (.binary op left.type right.type))
  match left, right with
  | .int a, .int b => intBinary op a b
  | .int a, .float y => orClash (floatBinary? op a.toFloat y)
  | .float x, .int b => orClash (floatBinary? op x b.toFloat)
  | .float x, .float y => orClash (floatBinary? op x y)
  | .str a, .str b => orClash (strBinary? op a b)
  | left, right =>
    match op with
    | .equal => .ok (.ofBool (left.equals right))
    | .notEqual => .ok (.ofBool !(left.equals right))
    | _ => orClash none

def UnaryOp.eval (op : UnaryOp) (operand : Value) : Except RuntimeErrorKind Value :=
  match op, operand with
  | .neg, .int n => (checkedInt "negation" (-n.toInt)).map .int
  | .neg, .float x => .ok (.float (-x))
  | .plus, .int n => .ok (.int n)
  | .plus, .float x => .ok (.float x)
  | .not, .int n => .ok (.ofBool (n == 0))
  | op, operand => .error (.typeMismatch (.unary op operand.type))

end Lu
