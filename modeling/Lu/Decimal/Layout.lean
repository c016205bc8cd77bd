import Lu.Decimal.Shortest

namespace Lu

/-- How a float is written once its digits are known. -/
structure FloatLayout where
  /-- What follows a number without a fraction. -/
  wholeSuffix : String
  /-- Whether a number is written without an exponent, given the power of ten of its first
  digit. -/
  isPositional : Int → Bool

private def zeros (count : Nat) : String := String.ofList (List.replicate count '0')

/-- The digits with the point where it belongs. -/
def Decimal.positional (d : Decimal) (wholeSuffix : String) : String :=
  let digits := toString d.digits
  let length := digits.length
  if 0 ≤ d.exponent then digits ++ zeros d.exponent.toNat ++ wholeSuffix
  else
    let places := (-d.exponent).toNat
    if places < length then
      let whole := digits.toList.take (length - places)
      let fraction := digits.toList.drop (length - places)
      String.ofList whole ++ "." ++ String.ofList fraction
    else "0." ++ zeros (places - length) ++ digits

/-- The power of ten of the first digit. -/
def Decimal.leadingPower (d : Decimal) : Int :=
  d.exponent + ((toString d.digits).length : Int) - 1

/-- One digit before the point, and the power of ten after an `e`. -/
def Decimal.scientific (d : Decimal) : String :=
  let power := toString d.leadingPower
  match (toString d.digits).toList with
  | first :: second :: rest => String.ofList (first :: '.' :: second :: rest) ++ "e" ++ power
  | digits => String.ofList digits ++ "e" ++ power

namespace FloatLayout

/-- A float in the fewest digits that read back. A zero keeps its sign, and what is no number has
none. -/
def write (layout : FloatLayout) (x : Float) : String :=
  let sign := if signBit x then "-" else ""
  match magnitude x with
  | .notANumber => "NaN"
  | .infinite => sign ++ "inf"
  | .finite significand exponent =>
    let d := shortestDecimal significand exponent
    sign ++
      (if significand = 0 || layout.isPositional d.leadingPower
       then d.positional layout.wholeSuffix else d.scientific)

/-- Printed values never have an exponent, and whole ones no point. -/
def plain : FloatLayout := ⟨"", fun _ => true⟩

/-- Listings of tokens and trees tell a float from an integer by its point, and use an exponent
below `10^-4` and from `10^16` on. -/
def listing : FloatLayout := ⟨".0", fun power => -4 ≤ power && power < 16⟩

end FloatLayout

/-- The quotient rounded to a whole number, a half to the even neighbour. -/
def roundedQuotient (numerator denominator : Nat) : Nat :=
  let quotient := numerator / denominator
  let twice := 2 * (numerator % denominator)
  if twice < denominator then quotient
  else if denominator < twice then quotient + 1
  else quotient + quotient % 2

/-- A float with a fixed number of places: its exact value is rounded, a half to the even
neighbour. -/
def writePlaces (places : Nat) (x : Float) : String :=
  let sign := if signBit x then "-" else ""
  match magnitude x with
  | .notANumber => "NaN"
  | .infinite => sign ++ "inf"
  | .finite significand exponent =>
    let units := roundedQuotient (significand * Nat.pow 2 exponent.toNat * Nat.pow 10 places)
      (Nat.pow 2 (-exponent).toNat)
    let digits := toString units
    let padded := zeros (places + 1 - digits.length) ++ digits
    if places = 0 then sign ++ padded
    else
      let whole := padded.toList.take (padded.length - places)
      let fraction := padded.toList.drop (padded.length - places)
      sign ++ String.ofList whole ++ "." ++ String.ofList fraction

end Lu
