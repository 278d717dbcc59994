import Estate.Json

/-!
Reading numbers. A number written as a whole one that fits 64 bits is kept as such. Of any other the
digits that fit a 64-bit significand are kept, the rest only counted, and the result is scaled by a
power of ten with the roundings of `Double.ofScaled?`.
-/
namespace Estate.Json

/-- Digits taken into a 64-bit significand, and the number of those that came too late. -/
structure Significand where
  value : Nat
  dropped : Nat

namespace Significand

def takes (significand : Significand) (digit : Nat) : Bool :=
  significand.value * 10 + digit < UInt64.size

/-- Once a digit of the whole part does not fit, none after it is taken. -/
def takeWhole (significand : Significand) : List Nat → Significand
  | [] => significand
  | digit :: rest =>
    if significand.takes digit
      then takeWhole { significand with value := significand.value * 10 + digit } rest
    else { significand with dropped := rest.length + 1 }

/-- Digits after the point, up to the first that does not fit; also counts those taken. -/
def takeFraction (significand : Significand) (taken : Nat) : List Nat → Significand × Nat
  | [] => (significand, taken)
  | digit :: rest =>
    if significand.takes digit then
      takeFraction { significand with value := significand.value * 10 + digit } (taken + 1) rest
    else (significand, taken)

end Significand

structure Numeral where
  negative : Bool
  whole : List Nat
  fraction : Option (List Nat)
  exponent : Option Int

namespace Numeral

def float? (negative : Bool) (significand : Nat) (exponent : Int) : Option Json :=
  (Double.ofScaled? significand exponent).map fun x => float (if negative then x.negate else x)

/-- Nothing, if the number is past the largest double. -/
def toJson? (numeral : Numeral) : Option Json :=
  let significand := Significand.takeWhole ⟨0, 0⟩ numeral.whole
  match numeral.fraction, numeral.exponent with
  | none, none =>
    if significand.dropped ≠ 0 then float? numeral.negative significand.value significand.dropped
    else if !numeral.negative then some (int significand.value)
    else if significand.value ≠ 0 ∧ significand.value ≤ Int64.minValue.toInt.natAbs
      then some (int (-significand.value))
    else float? true significand.value 0
  | fraction, exponent =>
    let (significand, taken) := significand.takeFraction 0 (fraction.getD [])
    float? numeral.negative significand.value (significand.dropped - taken + exponent.getD 0)

end Numeral

def digit? (c : Char) : Option Nat := if '0' ≤ c ∧ c ≤ '9' then some (c.toNat - '0'.toNat) else none

def readDigits : List Char → List Nat × List Char
  | [] => ([], [])
  | c :: rest =>
    match digit? c with
    | none => ([], c :: rest)
    | some digit =>
      let (digits, rest) := readDigits rest
      (digit :: digits, rest)

def digitsValue (digits : List Nat) : Nat := digits.foldl (fun value digit => value * 10 + digit) 0

/-- A point must be followed by a digit. -/
def readFraction : List Char → Option (Option (List Nat) × List Char)
  | '.' :: rest =>
    match readDigits rest with
    | ([], _) => none
    | (digits, rest) => some (some digits, rest)
  | rest => some (none, rest)

def readSign : List Char → Bool × List Char
  | '-' :: rest => (true, rest)
  | '+' :: rest => (false, rest)
  | rest => (false, rest)

def readExponent : List Char → Option (Option Int × List Char)
  | c :: rest =>
    if c = 'e' ∨ c = 'E' then
      let (negative, rest) := readSign rest
      match readDigits rest with
      | ([], _) => none
      | (digits, rest) =>
        some (some (if negative then -digitsValue digits else digitsValue digits), rest)
    else some (none, c :: rest)
  | [] => some (none, [])

/-- No digit may follow a leading zero. -/
def readNumber (cs : List Char) : Option (Json × List Char) := do
  let (negative, rest) :=
    match cs with
    | '-' :: rest => (true, rest)
    | rest => (false, rest)
  let (whole, rest) := readDigits rest
  match whole with
  | [] => none
  | 0 :: _ :: _ => none
  | _ => pure ()
  let (fraction, rest) ← readFraction rest
  let (exponent, rest) ← readExponent rest
  let number ← Numeral.toJson? { negative, whole, fraction, exponent }
  return (number, rest)

end Estate.Json
