import PolicyWarden.Number.Basic

/-!
# Rounding to binary64

`Number.ofRatio` takes a fraction of natural numbers to the nearest binary64 value, a tie to the
value with the even last digit.  Integers below `2 ^ 53` are themselves.  `Number.ofDecimal` does
the same for a decimal coefficient with a power of ten.
-/

namespace PolicyWarden

namespace Number

/-! ### Fractions -/

/-- The quotient rounded to the nearest natural number, a half to the even one. -/
def divideToEven (num den : Nat) : Nat :=
  let quotient := num / den
  let twice := 2 * (num % den)
  if twice < den then quotient
  else if den < twice then quotient + 1
  else if quotient % 2 = 0 then quotient
  else quotient + 1

/-- Cancel common factors of two in `numerator / 2 ^ shift`. -/
def cancelTwos (numerator : Nat) : Nat → Nat × Nat
  | 0 => (numerator, 0)
  | shift + 1 =>
      if numerator % 2 = 0 then cancelTwos (numerator / 2) shift else (numerator, shift + 1)

/-- The number `numerator / 2 ^ shift` with its sign. -/
def ofDyadic (negative : Bool) (numerator shift : Nat) : Number :=
  let reduced := cancelTwos numerator shift
  if reduced.2 = 0 then ofMagnitude negative reduced.1
  else dyadic negative reduced.1 reduced.2

/-- The exponent of the last binary digit that is kept: 53 digits from the first one, and none
below `2 ^ -1074`. -/
def lastDigitExponent (num den : Nat) : Int :=
  let estimate : Int := (num.log2 : Int) - (den.log2 : Int)
  let below : Bool :=
    if 0 ≤ estimate then num < den * binary estimate.toNat
    else num * binary (-estimate).toNat < den
  max ((if below then estimate - 1 else estimate) - 52) (-1074)

/-- The nearest number to a positive fraction that needs rounding. -/
def roundRatio (negative : Bool) (num den : Nat) : Number :=
  let exponent := lastDigitExponent num den
  if 0 ≤ exponent then
    let value := divideToEven num (den * binary exponent.toNat) * binary exponent.toNat
    if binary 1024 ≤ value then infinite negative else ofMagnitude negative value
  else
    let shift := (-exponent).toNat
    let numerator := divideToEven (num * binary shift) den
    if numerator = 0 then zero negative else ofDyadic negative numerator shift

/-- The nearest number to the fraction `num / den` with a sign. -/
def ofRatio (negative : Bool) (num den : Nat) : Number :=
  if num % den = 0 && num / den < exactBound then ofMagnitude negative (num / den)
  else roundRatio negative num den

/-! ### Decimals -/

/-- Beyond this power of ten every decimal is an infinity, and below its inverse a zero. -/
def decimalReach : Nat :=
  400

/-- The nearest number to `coefficient * 10 ^ exponent` with a sign. -/
def ofDecimal (negative : Bool) (coefficient : Nat) (exponent : Int) : Number :=
  if coefficient = 0 then zero negative
  else
    let position : Int := (Text.ofNat coefficient).length + exponent
    if decimalReach < position then infinite negative
    else if position < -decimalReach then zero negative
    else if 0 ≤ exponent then ofRatio negative (coefficient * decimal exponent.toNat) 1
    else ofRatio negative coefficient (decimal (-exponent).toNat)

end Number

end PolicyWarden
