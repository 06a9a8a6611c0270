/-!
# Binary floating point

A number of 64 bits, taken apart into sign, mantissa and exponent, and the two
ways in which such a number arises here: from one of 32 bits, without loss, and
from a decimal, to the nearest.
-/

namespace CilAtlas

/-- A binary floating point number, held as its 64 bits. -/
structure Double where
  bits : UInt64
deriving DecidableEq

namespace Double

/-- What a bit pattern stands for. -/
inductive Kind where
  | nan
  | infinite
  /-- The number `mantissa * 2 ^ exponent`. -/
  | finite (mantissa : Nat) (exponent : Int)
deriving DecidableEq

/-- Whether the sign bit is set. -/
def isNegative (x : Double) : Bool :=
  x.bits.toNat ≥ Nat.pow 2 63

/-- The eleven exponent bits. -/
def exponentField (x : Double) : Nat :=
  x.bits.toNat / Nat.pow 2 52 % Nat.pow 2 11

/-- The 52 fraction bits. -/
def fractionField (x : Double) : Nat :=
  x.bits.toNat % Nat.pow 2 52

/-- The absolute value that the bits stand for. -/
def kind (x : Double) : Kind :=
  if x.exponentField = Nat.pow 2 11 - 1 then
    if x.fractionField = 0 then .infinite else .nan
  else if x.exponentField = 0 then .finite x.fractionField (-1074)
  else .finite (x.fractionField + Nat.pow 2 52) ((x.exponentField : Int) - 1075)

/-- The number with the given fields. -/
def ofFields (negative : Bool) (exponent fraction : Nat) : Double :=
  ⟨((if negative then Nat.pow 2 63 else 0) + exponent * Nat.pow 2 52 + fraction).toUInt64⟩

/-- Whether the number is a zero of either sign. -/
def isZero (x : Double) : Bool :=
  x.kind = .finite 0 (-1074)

/-- The whole part of a finite number. -/
def truncated? (x : Double) : Option Int :=
  match x.kind with
  | .finite mantissa exponent =>
    let whole : Int := mantissa * Nat.pow 2 exponent.toNat / Nat.pow 2 (-exponent).toNat
    some (if x.isNegative then -whole else whole)
  | _ => none

/-- The number with the same value as one of 32 bits. -/
def ofSingleBits (single : Nat) : Double :=
  let negative : Bool := single / Nat.pow 2 31 % 2 = 1
  let exponent := single / Nat.pow 2 23 % Nat.pow 2 8
  let fraction := single % Nat.pow 2 23
  if exponent = Nat.pow 2 8 - 1 then ofFields negative (Nat.pow 2 11 - 1) (fraction * Nat.pow 2 29)
  else if exponent ≠ 0 then ofFields negative (exponent + 896) (fraction * Nat.pow 2 29)
  else if fraction = 0 then ofFields negative 0 0
  else
    let top := fraction.log2
    ofFields negative (top + 874) ((fraction - Nat.pow 2 top) * Nat.pow 2 (52 - top))

/-- The quotient rounded to the nearest natural number, a half to the even one. -/
def roundDiv (num den : Nat) : Nat :=
  let quotient := num / den
  let twice := 2 * (num % den)
  if twice > den ∨ (twice = den ∧ quotient % 2 = 1) then quotient + 1 else quotient

/-- The nearest number to `num / den`. -/
def ofRatio (negative : Bool) (num den : Nat) : Double :=
  if num = 0 then ofFields negative 0 0
  else
    let guess : Int := (num.log2 : Int) - den.log2 - 53
    let scaled (exponent : Int) : Nat :=
      roundDiv (num * Nat.pow 2 (-exponent).toNat) (den * Nat.pow 2 exponent.toNat)
    let first := max guess (-1074)
    let exponent := if scaled first < Nat.pow 2 53 then first else first + 1
    let exponent := if scaled exponent < Nat.pow 2 53 then exponent else exponent + 1
    let mantissa := scaled exponent
    if exponent > 971 then ofFields negative (Nat.pow 2 11 - 1) 0
    else if mantissa < Nat.pow 2 52 then ofFields negative 0 mantissa
    else ofFields negative (exponent + 1075).toNat (mantissa - Nat.pow 2 52)

/-- The nearest number to `significand * 10 ^ exponent`. -/
def ofDecimal (negative : Bool) (significand : Nat) (exponent : Int) : Double :=
  if significand = 0 then ofFields negative 0 0
  else if exponent > 400 then ofFields negative (Nat.pow 2 11 - 1) 0
  else if exponent + significand.log2 < -1200 then ofFields negative 0 0
  else ofRatio negative (significand * Nat.pow 10 exponent.toNat) (Nat.pow 10 (-exponent).toNat)

end Double
end CilAtlas
