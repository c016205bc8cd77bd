import Lu.Decimal.Magnitude

namespace Lu

/-- The value of a digit in a base of at most sixteen. -/
def digitValue? (base : Nat) (c : Char) : Option Nat :=
  let value :=
    if '0' ≤ c ∧ c ≤ '9' then some (c.toNat - '0'.toNat)
    else if 'a' ≤ c ∧ c ≤ 'f' then some (c.toNat - 'a'.toNat + 10)
    else if 'A' ≤ c ∧ c ≤ 'F' then some (c.toNat - 'A'.toNat + 10)
    else none
  value.filter (· < base)

/-- The number that digits stand for; other characters count for nothing. -/
def positionalValue (base : Nat) (digits : List Char) : Nat :=
  digits.foldl (fun value c => match digitValue? base c with
    | some digit => value * base + digit
    | none => value) 0

def leastInt : Int := -9223372036854775808

def greatestInt : Int := 9223372036854775807

/-- The 64-bit integer of a number that is one. -/
def int64? (value : Int) : Option Int64 :=
  if leastInt ≤ value ∧ value ≤ greatestInt then some (Int64.ofInt value) else none

/-- Why a text is not an integer. -/
inductive IntTextError where
  | empty
  | invalidDigit
  | tooLarge
  | tooSmall
deriving DecidableEq, Repr

def IntTextError.message : IntTextError → String
  | .empty => "cannot parse integer from empty string"
  | .invalidDigit => "invalid digit found in string"
  | .tooLarge => "number too large to fit in target type"
  | .tooSmall => "number too small to fit in target type"

/-- Reads digits of a base from the left until one is none or the number so far does not fit. -/
def readDigits (base : Nat) (negative : Bool) : List Char → Nat → Except IntTextError Nat
  | [], value => .ok value
  | c :: rest, value =>
    match digitValue? base c with
    | none => .error .invalidDigit
    | some digit =>
      let next := value * base + digit
      if negative then
        if leastInt ≤ -(next : Int) then readDigits base negative rest next else .error .tooSmall
      else
        if (next : Int) ≤ greatestInt then readDigits base negative rest next else .error .tooLarge

/-- Reads an integer: a sign or none, then digits of the base. -/
def readBased (base : Nat) (text : List Char) : Except IntTextError Int64 :=
  match text with
  | [] => .error .empty
  | '+' :: [] | '-' :: [] => .error .invalidDigit
  | '-' :: digits => (readDigits base true digits 0).map fun value => Int64.ofInt (-(value : Int))
  | '+' :: digits => (readDigits base false digits 0).map fun value => Int64.ofInt value
  | digits => (readDigits base false digits 0).map fun value => Int64.ofInt value

/-- Reads a decimal integer. -/
def readInt (text : List Char) : Except IntTextError Int64 := readBased 10 text

/-- The double nearest to `significand * 10 ^ exponent`. Powers far beyond the range of a double
are not raised: nothing below `10^-400` differs from zero, nothing from `10^400` on is finite. -/
def nearestDouble (significand : Nat) (exponent : Int) : Float :=
  let leading := exponent + ((toString significand).length : Int)
  if significand = 0 ∨ leading < -400 then 0.0
  else if 400 < leading then 1.0 / 0.0
  else if exponent < 0 then Float.ofScientific significand true exponent.natAbs
  else Float.ofScientific significand false exponent.natAbs

/-- The parts of a decimal number without its sign. -/
structure FloatText where
  whole : List Char
  fraction : List Char
  exponent : Int

def FloatText.value (parts : FloatText) : Float :=
  nearestDouble (positionalValue 10 (parts.whole ++ parts.fraction))
    (parts.exponent - (parts.fraction.length : Int))

/-- The number after an `e`: a sign or none, then at least one digit, then nothing. -/
def readExponent? (text : List Char) : Option Int :=
  let number (digits : List Char) : Option Nat :=
    if digits ≠ [] ∧ digits.all Char.isDigit then some (positionalValue 10 digits) else none
  match text with
  | '-' :: digits => (number digits).map fun n => -(n : Int)
  | '+' :: digits => (number digits).map fun n => (n : Int)
  | digits => (number digits).map fun n => (n : Int)

/-- Splits a number into its parts. There is a digit before or after the point. -/
def readParts? (text : List Char) : Option FloatText :=
  let whole := text.takeWhile Char.isDigit
  let afterWhole := text.dropWhile Char.isDigit
  let (fraction, rest) :=
    match afterWhole with
    | '.' :: more => (more.takeWhile Char.isDigit, more.dropWhile Char.isDigit)
    | _ => ([], afterWhole)
  if whole.isEmpty && fraction.isEmpty then none
  else
    match rest with
    | [] => some ⟨whole, fraction, 0⟩
    | c :: more =>
      if c = 'e' ∨ c = 'E' then (readExponent? more).map fun exponent => ⟨whole, fraction, exponent⟩
      else none

/-- Why a text is not a float. -/
inductive FloatTextError where
  | empty
  | invalid
deriving DecidableEq, Repr

def FloatTextError.message : FloatTextError → String
  | .empty => "cannot parse float from empty string"
  | .invalid => "invalid float literal"

/-- A float without its sign, the words for what is not finite in any case of letters. -/
def readUnsigned? (text : List Char) : Option Float :=
  match String.ofList (text.map Char.toLower) with
  | "inf" | "infinity" => some (1.0 / 0.0)
  | "nan" => some (0.0 / 0.0)
  | _ => (readParts? text).map (·.value)

def readFloat (text : List Char) : Except FloatTextError Float :=
  let orInvalid : Option Float → Except FloatTextError Float
    | some x => .ok x
    | none => .error .invalid
  match text with
  | [] => .error .empty
  | '-' :: rest => orInvalid ((readUnsigned? rest).map (- ·))
  | '+' :: rest => orInvalid (readUnsigned? rest)
  | rest => orInvalid (readUnsigned? rest)

end Lu
