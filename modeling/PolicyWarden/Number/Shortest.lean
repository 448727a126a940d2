import PolicyWarden.Number.Rounding

/-!
# The shortest decimal of a number

`Number.render` writes the fewest decimal digits that read back as the same number, and of the
candidates with that many digits the nearest one, a tie to the even one.  Integers below `2 ^ 53`
are written with all their digits.

The digits are found on decimal grids: for 1, 2, …, 17 digits the two grid points around the value
are read back with `Number.ofDecimal`.
-/

namespace PolicyWarden

namespace Number

/-! ### Digits -/

/-- Where the decimal point stands: the value is below `10 ^ position` and not below a tenth of
it. -/
def pointPosition (num den : Nat) : Int :=
  (Text.ofNat (num * decimal decimalReach / den)).length - (decimalReach : Int)

/-- The fraction `num / den` in units of `10 ^ exponent`. -/
def inUnits (num den : Nat) (exponent : Int) : Nat × Nat :=
  if 0 ≤ exponent then (num, den * decimal exponent.toNat)
  else (num * decimal (-exponent).toNat, den)

/-- The coefficient in units of `10 ^ exponent` that reads back as the value `num / den`, if there is
one: of the two neighbours of the value the nearer is tried first. -/
def coefficient? (value : Number) (num den : Nat) (exponent : Int) : Option Nat :=
  let scaled := inUnits num den exponent
  let lower := scaled.1 / scaled.2
  let nearest := divideToEven scaled.1 scaled.2
  let farther := if nearest = lower then lower + 1 else lower
  if ofDecimal false nearest exponent = value then some nearest
  else if ofDecimal false farther exponent = value then some farther
  else none

/-- The most digits that a number needs. -/
def mostDigits : Nat :=
  17

/-- A coefficient and the power of ten that it counts. -/
structure Decimal where
  coefficient : Nat
  exponent : Int

/-- The shortest decimal of a positive value, from `count` digits on, with `more` further counts to
try. -/
def shortestFrom (value : Number) (num den : Nat) (position : Int) : (more count : Nat) → Decimal
  | 0, count =>
      let scaled := inUnits num den (position - count)
      ⟨divideToEven scaled.1 scaled.2, position - count⟩
  | more + 1, count =>
      match coefficient? value num den (position - count) with
      | some coefficient => ⟨coefficient, position - count⟩
      | none => shortestFrom value num den position more (count + 1)

/-- The shortest decimal of a positive value that equals `num / den`. -/
def shortest (value : Number) (num den : Nat) : Decimal :=
  shortestFrom value num den (pointPosition num den) mostDigits 1

/-! ### Layout -/

/-- A run of zeros. -/
def zeros (count : Nat) : Text :=
  List.replicate count (CodeUnit.ofChar '0')

/-- The digits with a decimal point after the first `count` of them. -/
def pointed (digits : Text) (count : Nat) : Text :=
  match digits.drop count with
  | [] => digits
  | fraction => digits.take count ++ CodeUnit.ofChar '.' :: fraction

/-- A power of ten with its sign. -/
def exponentText (exponent : Int) : Text :=
  CodeUnit.ofChar 'e' :: (if exponent < 0 then CodeUnit.ofChar '-' else CodeUnit.ofChar '+') ::
    Text.ofNat exponent.natAbs

/-- A text without the zeros at its end. -/
def dropLastZeros (digits : Text) : Text :=
  (digits.reverse.dropWhile (· = CodeUnit.ofChar '0')).reverse

/-- Digits without sign laid out around the decimal point: positionally from `1e-6` up to `1e21`,
with a power of ten elsewhere. -/
def layout (digits : Text) (position : Int) : Text :=
  if 0 < position && position ≤ 21 then
    pointed (digits ++ zeros (position.toNat - digits.length)) position.toNat
  else if -6 < position && position ≤ 0 then
    Text.ofString "0." ++ zeros (-position).toNat ++ digits
  else pointed digits 1 ++ exponentText (position - 1)

/-- The text of a decimal. -/
def Decimal.render (d : Decimal) : Text :=
  let digits := Text.ofNat d.coefficient
  layout (dropLastZeros digits) (digits.length + d.exponent)

/-- A text with a minus sign where one is due. -/
def signed (negative : Bool) (t : Text) : Text :=
  if negative then CodeUnit.ofChar '-' :: t else t

/-- The text of a number; both zeros are written alike. -/
def render : Number → Text
  | whole n =>
      if n.natAbs < exactBound then Text.ofInt n
      else signed (n < 0) (shortest (whole n.natAbs) n.natAbs 1).render
  | negativeZero => Text.ofString "0"
  | dyadic negative numerator shift =>
      signed negative (shortest (dyadic false numerator shift) numerator (binary shift)).render
  | infinite negative => signed negative (Text.ofString "Infinity")
  | notANumber => Text.ofString "NaN"

end Number

end PolicyWarden
