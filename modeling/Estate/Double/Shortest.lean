import Estate.Double

/-!
The text of a double: the fewest digits that read back as it, of those the nearest, laid out
positionally with neither an exponent nor a trailing point.
-/
namespace Estate.Double

structure Decimal where
  digits : Nat
  exponent : Int
  deriving DecidableEq, Repr

/-- Four times a positive value and the bounds of the reals that round to it, over a common
denominator. -/
structure Neighbourhood where
  low : Nat
  value : Nat
  high : Nat
  denominator : Nat
  closed : Bool

/-- Bounds are halfway to the neighbouring doubles; the gap below a power of two is half as wide. -/
def neighbourhood (x : Double) : Neighbourhood :=
  let m := x.significand
  let below := if x.fraction = 0 ∧ 1 < x.biasedExponent then 1 else 2
  let up := x.scale.toNat
  { low := (4 * m - below) <<< up
    value := (4 * m) <<< up
    high := (4 * m + 2) <<< up
    denominator := 4 <<< (-x.scale).toNat
    closed := m % 2 = 0 }

/-- The multiple of `10 ^ exponent` nearest to the value among those in its neighbourhood; a tie
goes up. -/
def Neighbourhood.onGrid? (around : Neighbourhood) (exponent : Int) : Option Nat :=
  let finer := Nat.pow 10 (-exponent).toNat
  let step := around.denominator * Nat.pow 10 exponent.toNat
  let value := around.value * finer
  let floor := value / step
  let admits (bound point : Nat) : Bool := bound < point || (around.closed && bound == point)
  let belowFits := 0 < floor && admits (around.low * finer) (floor * step)
  let aboveFits := admits ((floor + 1) * step) (around.high * finer)
  if belowFits && aboveFits then
    if value - floor * step < (floor + 1) * step - value then some floor else some (floor + 1)
  else if belowFits then some floor
  else if aboveFits then some (floor + 1)
  else none

/-- Tries ever finer grids from `exponent` down. -/
def Neighbourhood.search (around : Neighbourhood) (exponent : Int) : Nat → Decimal
  | 0 => ⟨0, exponent⟩
  | fuel + 1 =>
    match around.onGrid? exponent with
    | some digits => ⟨digits, exponent⟩
    | none => around.search (exponent - 1) fuel

/-- No double needs a grid more than twenty-four places finer than the power of ten above it. -/
def shortest (x : Double) : Decimal :=
  let magnitude := (x.significand.log2 : Int) + x.scale
  x.neighbourhood.search (magnitude * 30103 / 100000 + 2) 24

def Decimal.positional (d : Decimal) : String :=
  let digits := Nat.toDigits 10 d.digits
  let places := (-d.exponent).toNat
  if 0 ≤ d.exponent then String.ofList (digits ++ List.replicate d.exponent.toNat '0')
  else if places < digits.length then
    String.ofList (digits.take (digits.length - places) ++ '.' ::
      digits.drop (digits.length - places))
  else String.ofList ('0' :: '.' :: List.replicate (places - digits.length) '0' ++ digits)

def text (x : Double) : String :=
  if x.isNaN then "NaN"
  else
    let size :=
      if !x.isFinite then "inf"
      else if x.isZero then "0"
      else x.shortest.positional
    if x.negative then "-" ++ size else size

end Estate.Double
