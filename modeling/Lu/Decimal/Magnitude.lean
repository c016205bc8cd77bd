namespace Lu

/-- What a double stands for, its sign left out. -/
inductive Magnitude where
  | notANumber
  | infinite
  /-- The number `significand * 2 ^ exponent`. -/
  | finite (significand : Nat) (exponent : Int)
deriving DecidableEq, Repr

/-- The sign bit, which zeros and values that are no number have as well. -/
def signBit (x : Float) : Bool := x.toBits >>> 63 == 1

/-- The one in front of the fraction, which the bits of a double leave out. -/
def leadingBit : Nat := 0x10000000000000

/-- The bits hold a sign, eleven bits of exponent and fifty-two of fraction; the least exponent
marks the numbers without a leading one, the greatest those that are not finite. -/
def magnitude (x : Float) : Magnitude :=
  let exponent := ((x.toBits >>> 52) &&& 0x7ff).toNat
  let fraction := (x.toBits &&& 0xfffffffffffff).toNat
  if exponent = 0x7ff then (if fraction = 0 then .infinite else .notANumber)
  else if exponent = 0 then .finite fraction (-1074)
  else .finite (leadingBit + fraction) ((exponent : Int) - 1075)

/-- The double of a magnitude that is one: the significand has at most 53 bits. -/
def doubleOf (negative : Bool) (significand : Nat) (exponent : Int) : Float :=
  let x := (Float.ofNat significand).scaleB exponent
  if negative then -x else x

/-- The remainder of a division that is cut off toward zero. It is exact and has the sign of the
dividend. -/
def floatRemainder (dividend divisor : Float) : Float :=
  match magnitude dividend, magnitude divisor with
  | .finite m p, .finite n q =>
    if n = 0 then 0.0 / 0.0
    else
      let unit := min p q
      doubleOf (signBit dividend) ((m <<< (p - unit).toNat) % (n <<< (q - unit).toNat)) unit
  | .finite .., .infinite => dividend
  | _, _ => 0.0 / 0.0

/-- The whole number next to a double on the side of zero. -/
def truncated (x : Float) : Float := if x < 0.0 then x.ceil else x.floor

end Lu
