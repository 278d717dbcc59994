/-! Binary floating-point numbers of 64 bits, kept as their bit patterns so that every payload
survives. -/
namespace Estate

structure Double where
  bits : UInt64
  deriving DecidableEq, Repr

namespace Double

def negative (x : Double) : Bool := x.bits >>> 63 == 1

def biasedExponent (x : Double) : Nat := (x.bits >>> 52).toNat % 2048

/-- The weight of the leading bit of a normal significand, which is not stored. -/
def leadingBit : Nat := 1 <<< 52

def fraction (x : Double) : Nat := x.bits.toNat % leadingBit

def isFinite (x : Double) : Bool := x.biasedExponent != 2047

def isNaN (x : Double) : Bool := !x.isFinite && x.fraction != 0

def isZero (x : Double) : Bool := x.biasedExponent == 0 && x.fraction == 0

/-- The whole number `m` such that a finite value is `m · 2 ^ x.scale` up to sign. -/
def significand (x : Double) : Nat :=
  if x.biasedExponent = 0 then x.fraction else x.fraction + leadingBit

def scale (x : Double) : Int :=
  if x.biasedExponent = 0 then -1074 else (x.biasedExponent : Int) - 1075

/-- Numeric equality: no NaN equals anything, and the two zeros are equal. -/
def sameNumber (x y : Double) : Bool :=
  !x.isNaN && !y.isNaN && (x.bits == y.bits || (x.isZero && y.isZero))

def toHex (x : Double) : String :=
  let digits := Nat.toDigits 16 x.bits.toNat
  String.ofList (List.replicate (16 - digits.length) '0' ++ digits)

def hexDigit? (c : Char) : Option Nat :=
  if '0' ≤ c ∧ c ≤ '9' then some (c.toNat - '0'.toNat)
  else if 'a' ≤ c ∧ c ≤ 'f' then some (c.toNat - 'a'.toNat + 10)
  else if 'A' ≤ c ∧ c ≤ 'F' then some (c.toNat - 'A'.toNat + 10)
  else none

/-- The number that hexadecimal digits write, most significant first. -/
def hexNumber? (digits : List Char) : Option Nat :=
  digits.foldlM (fun value c => (hexDigit? c).map (value * 16 + ·)) 0

def ofHex? (text : String) : Option Double :=
  if text.toList.length = 16 then
    (hexNumber? text.toList).map fun value => ⟨value.toUInt64⟩
  else none

end Double

end Estate
