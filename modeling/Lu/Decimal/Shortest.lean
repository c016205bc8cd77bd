import Lu.Decimal.Magnitude

namespace Lu

/-- The number `digits * 10 ^ exponent`. -/
structure Decimal where
  digits : Nat
  exponent : Int
deriving DecidableEq, Repr

/-- The reals that round to one double, as numerators over a common denominator. -/
structure RoundingInterval where
  lower : Nat
  value : Nat
  upper : Nat
  denominator : Nat
  /-- Both ends round to the double too. -/
  closed : Bool

namespace RoundingInterval

/-- The interval around `significand * 2 ^ exponent`, in quarters of the last place: it reaches
half way to either neighbour, and the neighbour below a power of two is half as far away. The
ends go to the neighbour with the even significand. -/
def around (significand : Nat) (exponent : Int) : RoundingInterval :=
  let quarter := exponent - 2
  let scale := Nat.pow 2 quarter.toNat
  let below := if significand = leadingBit ∧ -1074 < exponent then 1 else 2
  { lower := (4 * significand - below) * scale
    value := 4 * significand * scale
    upper := (4 * significand + 2) * scale
    denominator := Nat.pow 2 (-quarter).toNat
    closed := significand % 2 == 0 }

/-- Whether `digits * 10 ^ exponent` lies in the interval. -/
def contains (interval : RoundingInterval) (d : Decimal) : Bool :=
  let point := d.digits * Nat.pow 10 d.exponent.toNat * interval.denominator
  let scale := Nat.pow 10 (-d.exponent).toNat
  if interval.closed then interval.lower * scale ≤ point && point ≤ interval.upper * scale
  else interval.lower * scale < point && point < interval.upper * scale

/-- Whether the value is below `10 ^ power`. -/
def valueBelow (interval : RoundingInterval) (power : Int) : Bool :=
  interval.value * Nat.pow 10 (-power).toNat < Nat.pow 10 power.toNat * interval.denominator

/-- The least power of ten above the value, looked for from an estimate by its binary logarithm
that is never too high. -/
def topPower (interval : RoundingInterval) : Int :=
  let binary : Int := (interval.value.log2 : Int) - interval.denominator.log2
  let estimate := binary * 30103 / 100000 - 1
  let candidates := (List.range 4).map (fun (step : Nat) => estimate + (step : Int))
  (candidates.find? interval.valueBelow).getD (estimate + 4)

/-- The one of the value's two neighbours among the multiples of `10 ^ exponent` that lies in the
interval; of two the nearer, and the upper one if they are equally near. -/
def neighbour? (interval : RoundingInterval) (exponent : Int) : Option Decimal :=
  let scaled := interval.value * Nat.pow 10 (-exponent).toNat
  let grid := Nat.pow 10 exponent.toNat * interval.denominator
  let floor : Decimal := ⟨scaled / grid, exponent⟩
  let next : Decimal := ⟨scaled / grid + 1, exponent⟩
  match interval.contains floor, interval.contains next with
  | true, true => some (if 2 * scaled < (2 * (scaled / grid) + 1) * grid then floor else next)
  | true, false => some floor
  | false, true => some next
  | false, false => none

end RoundingInterval

/-- Moves the zeros at the end of the digits into the exponent. -/
def Decimal.trimZeros (d : Decimal) : Decimal := go 20 d
where
  go : Nat → Decimal → Decimal
    | 0, d => d
    | fuel + 1, d =>
      if d.digits ≠ 0 ∧ d.digits % 10 = 0 then go fuel ⟨d.digits / 10, d.exponent + 1⟩ else d

/-- The number itself in decimal, however long. -/
def exactDecimal (significand : Nat) (exponent : Int) : Decimal :=
  if 0 ≤ exponent then ⟨significand * Nat.pow 2 exponent.toNat, 0⟩
  else ⟨significand * Nat.pow 5 (-exponent).toNat, exponent⟩

/-- The decimal with the fewest digits that reads back as the double `significand * 2 ^ exponent`,
and of those the nearest to it. Seventeen digits are always enough. -/
def shortestDecimal (significand : Nat) (exponent : Int) : Decimal :=
  if significand = 0 then ⟨0, 0⟩
  else
    let interval := RoundingInterval.around significand exponent
    let top := interval.topPower
    let tries := (List.range 17).findSome? fun (n : Nat) => interval.neighbour? (top - ((n : Int) + 1))
    (tries.getD (exactDecimal significand exponent)).trimZeros

end Lu
