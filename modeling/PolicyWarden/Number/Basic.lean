import PolicyWarden.Text.Basic

/-!
# Numbers

A number is a value of the binary64 format: an integer, the negative zero, a fraction whose
denominator is a power of two, an infinity, or no number at all.  Integers and fractions are kept
apart, and a fraction is kept in lowest terms, so equal values have equal representations.
-/

namespace PolicyWarden

/-- A binary64 value. -/
inductive Number where
  /-- An integer; zero is the positive zero. -/
  | whole (value : Int)
  /-- The zero with a minus sign. -/
  | negativeZero
  /-- The fraction `numerator / 2 ^ shift` with its sign; the numerator is odd and `1 ≤ shift`. -/
  | dyadic (negative : Bool) (numerator shift : Nat)
  /-- An infinity with its sign. -/
  | infinite (negative : Bool)
  /-- The result of a computation without a value. -/
  | notANumber
  deriving DecidableEq, Repr, Inhabited

namespace Number

/-! ### Powers -/

/-- The power of two with an exponent. -/
def binary (exponent : Nat) : Nat :=
  Nat.pow 2 exponent

/-- The power of ten with an exponent. -/
def decimal (exponent : Nat) : Nat :=
  Nat.pow 10 exponent

/-! ### Integers -/

/-- The zero of a sign. -/
def zero (negative : Bool) : Number :=
  if negative then negativeZero else whole 0

/-- The integer of a magnitude and a sign. -/
def ofMagnitude (negative : Bool) (n : Nat) : Number :=
  if n = 0 then zero negative else whole (if negative then -n else n)

/-- The value as an integer, if it is one; both zeros are 0. -/
def toInt? : Number → Option Int
  | whole n => some n
  | negativeZero => some 0
  | _ => none

/-- The value is a zero of either sign, or no number. -/
def isVoid : Number → Bool
  | whole n => n == 0
  | negativeZero => true
  | notANumber => true
  | _ => false

/-- The value is neither an infinity nor the result of a computation without a value. -/
def isFinite : Number → Bool
  | infinite _ => false
  | notANumber => false
  | _ => true

/-- Every integer below this bound in magnitude is a value of the format. -/
def exactBound : Nat :=
  binary 53

/-- The least integer that is not below the value; nothing bounds an infinity or a missing
number. -/
def ceiling? : Number → Option Int
  | whole n => some n
  | negativeZero => some 0
  | dyadic false numerator shift => some (numerator / binary shift + 1 : Nat)
  | dyadic true numerator shift => some (-(numerator / binary shift : Nat))
  | infinite _ => none
  | notANumber => none

/-- The value is above a natural number.  A fraction is no integer, so it is above whatever it is
not below. -/
def exceeds (x : Number) (n : Nat) : Bool :=
  match x with
  | whole value => n < value
  | dyadic false numerator shift => n * binary shift ≤ numerator
  | infinite negative => !negative
  | negativeZero | dyadic true _ _ | notANumber => false

/-- The integer part of a value as a size, which is never below zero; nothing bounds the positive
infinity. -/
def size? : Number → Option Nat
  | whole n => some n.toNat
  | dyadic false numerator shift => some (numerator / binary shift)
  | infinite false => none
  | negativeZero | dyadic true _ _ | infinite true | notANumber => some 0

/-- The last eight bits of the integer part; an infinity or a missing number counts as zero. -/
def byte : Number → UInt8
  | whole n => (n % 256).toNat.toUInt8
  | negativeZero => 0
  | dyadic false numerator shift => (numerator / binary shift).toUInt8
  | dyadic true numerator shift => 0 - (numerator / binary shift).toUInt8
  | infinite _ => 0
  | notANumber => 0

end Number

end PolicyWarden
