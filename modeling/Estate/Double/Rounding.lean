import Estate.Double

namespace Estate.Double

/-- A quotient rounded to the nearest whole number, halves to even. -/
def roundQuotient (num den : Nat) : Nat :=
  let quotient := num / den
  let twice := 2 * (num % den)
  if twice < den then quotient
  else if den < twice then quotient + 1
  else quotient + quotient % 2

/-- The exponent that puts the quotient's significand between `2 ^ 52` and `2 ^ 53`, kept above the
least one. -/
def quotientScale (num den : Nat) : Int :=
  let guess : Int := (num.log2 : Int) - den.log2 - 53
  let fits := num <<< (-guess).toNat < (den <<< guess.toNat) * (2 * leadingBit)
  max (-1074) (if fits then guess else guess + 1)

/-- The positive double nearest to `num / den`; values past the largest one give infinity. -/
def ofQuotient (num den : Nat) : Double :=
  if num = 0 then ⟨0⟩
  else
    let scale := quotientScale num den
    let significand := roundQuotient (num <<< (-scale).toNat) (den <<< scale.toNat)
    let bits := (scale + 1074).toNat * leadingBit + significand
    ⟨(min bits (2047 * leadingBit)).toUInt64⟩

def ofNat (n : Nat) : Double := ofQuotient n 1

def negate (x : Double) : Double := ⟨x.bits ^^^ ((1 : UInt64) <<< 63)⟩

def ofInt (n : Int) : Double := if n < 0 then (ofNat n.natAbs).negate else ofNat n.natAbs

/-- The product of two positive finite doubles, rounded once. -/
def times (x y : Double) : Double :=
  let scale := x.scale + y.scale
  ofQuotient ((x.significand * y.significand) <<< scale.toNat) (1 <<< (-scale).toNat)

/-- The quotient of two positive finite doubles, rounded once. -/
def dividedBy (x y : Double) : Double :=
  let scale := x.scale - y.scale
  ofQuotient (x.significand <<< scale.toNat) (y.significand <<< (-scale).toNat)

def powerOfTen (exponent : Nat) : Double := ofNat (Nat.pow 10 exponent)

/--
`significand · 10 ^ exponent` in two rounded steps: the significand to a double, then one
multiplication or division by the double nearest to the power of ten. Very small powers are divided
out 308 places at a time. Nothing is returned past the largest double.
-/
def ofScaled? (significand : Nat) (exponent : Int) : Option Double :=
  scaled (ofNat significand) exponent (exponent.natAbs / 308 + 1)
where
  scaled (value : Double) (exponent : Int) : Nat → Option Double
    | 0 => some value
    | fuel + 1 =>
      if exponent.natAbs ≤ 308 then
        if 0 ≤ exponent then
          let product := value.times (powerOfTen exponent.natAbs)
          if product.isFinite then some product else none
        else some (value.dividedBy (powerOfTen exponent.natAbs))
      else if value.isZero then some value
      else if 0 ≤ exponent then none
      else scaled (value.dividedBy (powerOfTen 308)) (exponent + 308) fuel

end Estate.Double
