import PolicyWarden.Number.Rounding
import PolicyWarden.Text.Blank

/-!
# Numerals

`Number.ofText` reads a setting as a number.  Blanks around the numeral do not count, and nothing
but blanks is zero.  A numeral is a decimal with an optional sign, fraction and exponent, an
infinity, or digits of base 16, 8 or 2 behind `0x`, `0o` or `0b`.  All other texts are no number.
-/

namespace PolicyWarden

namespace Number

/-! ### Digits of another base -/

/-- The letter behind the leading zero gives the base. -/
def baseOf? (u : CodeUnit) : Option Nat :=
  if u = CodeUnit.ofChar 'x' || u = CodeUnit.ofChar 'X' then some 16
  else if u = CodeUnit.ofChar 'o' || u = CodeUnit.ofChar 'O' then some 8
  else if u = CodeUnit.ofChar 'b' || u = CodeUnit.ofChar 'B' then some 2
  else none

/-- The values of a non-empty run of digits of a base. -/
def digitsOfBase? (base : Nat) (t : Text) : Option (List Nat) :=
  match t.mapM CodeUnit.hexValue? with
  | some (first :: rest) =>
      if (first :: rest).all (· < base) then some (first :: rest) else none
  | _ => none

/-- A numeral with a base letter. -/
def ofBased? : Text → Option Number
  | zero :: letter :: digits => do
      if zero ≠ CodeUnit.ofChar '0' then none
      else
        let base ← baseOf? letter
        let values ← digitsOfBase? base digits
        some (ofRatio false (Text.digitsValue base values) 1)
  | _ => none

/-! ### Decimals -/

/-- Split off a sign; without one the numeral is positive. -/
def splitSign : Text → Bool × Text
  | [] => (false, [])
  | u :: rest =>
      if u = CodeUnit.ofChar '-' then (true, rest)
      else if u = CodeUnit.ofChar '+' then (false, rest)
      else (false, u :: rest)

/-- The exponent behind the digits: none at all, or a letter, a sign and digits. -/
def exponent? : Text → Option Int
  | [] => some 0
  | letter :: rest =>
      if letter = CodeUnit.ofChar 'e' || letter = CodeUnit.ofChar 'E' then
        let part := splitSign rest
        if Text.isDigits part.2 then
          some (if part.1 then -(Text.natValue part.2 : Int) else Text.natValue part.2)
        else none
      else none

/-- The digits behind the decimal point, if there is one, and the rest. -/
def splitFraction : Text → Text × Text
  | [] => ([], [])
  | u :: rest =>
      if u = CodeUnit.ofChar '.' then (rest.takeWhile CodeUnit.isDigit, rest.dropWhile CodeUnit.isDigit)
      else ([], u :: rest)

/-- A decimal without its sign; at least one digit stands before or behind the point. -/
def ofUnsigned? (negative : Bool) (t : Text) : Option Number :=
  let digits := t.takeWhile CodeUnit.isDigit
  let fraction := splitFraction (t.dropWhile CodeUnit.isDigit)
  if digits.isEmpty && fraction.1.isEmpty then none
  else
    (exponent? fraction.2).map fun exponent =>
      ofDecimal negative (Text.natValue (digits ++ fraction.1)) (exponent - fraction.1.length)

/-- A decimal or an infinity with an optional sign. -/
def ofSigned? (t : Text) : Option Number :=
  let parts := splitSign t
  if parts.2 = Text.ofString "Infinity" then some (infinite parts.1)
  else ofUnsigned? parts.1 parts.2

/-- The number that a text denotes. -/
def ofText (t : Text) : Number :=
  let numeral := Text.trim t
  if numeral.isEmpty then whole 0
  else (ofBased? numeral <|> ofSigned? numeral).getD notANumber

end Number

end PolicyWarden
