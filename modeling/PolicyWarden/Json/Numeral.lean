import PolicyWarden.Number.Rounding

/-!
# JSON numerals

A numeral is read one unit at a time.  It is an optional minus sign, an integer part without
leading zeros, an optional fraction and an optional exponent; a numeral ends at the first unit that
cannot extend it, and must be complete there.
-/

namespace PolicyWarden

namespace Json

/-- The last part of a numeral that has been read. -/
inductive NumeralPart where
  | minus
  | zero
  | digits
  | point
  | fraction
  | letter
  | exponentSign
  | exponent
  deriving DecidableEq, Repr

/-- A numeral as far as it has been read: all digits in one coefficient, the number of them behind
the point, and the exponent. -/
structure Numeral where
  part : NumeralPart
  negative : Bool := false
  coefficient : Nat := 0
  scale : Nat := 0
  exponentNegative : Bool := false
  exponent : Nat := 0

namespace Numeral

/-- The numeral that a unit begins. -/
def start? (u : CodeUnit) : Option Numeral :=
  if u = CodeUnit.ofChar '-' then some { part := .minus, negative := true }
  else if u = CodeUnit.ofChar '0' then some { part := .zero }
  else if CodeUnit.isDigit u then
    some { part := .digits, coefficient := CodeUnit.digitValue u }
  else none

/-- One more digit of the coefficient. -/
def pushDigit (n : Numeral) (u : CodeUnit) : Nat :=
  n.coefficient * 10 + CodeUnit.digitValue u

/-- The first unit after an integer part that may follow it. -/
def afterInteger? (n : Numeral) (u : CodeUnit) : Option Numeral :=
  if u = CodeUnit.ofChar '.' then some { n with part := .point }
  else if u = CodeUnit.ofChar 'e' || u = CodeUnit.ofChar 'E' then some { n with part := .letter }
  else none

/-- The numeral with one more unit, if that unit can extend it. -/
def extend? (n : Numeral) (u : CodeUnit) : Option Numeral :=
  match n.part with
  | .minus =>
      if u = CodeUnit.ofChar '0' then some { n with part := .zero }
      else if CodeUnit.isDigit u then
        some { n with part := .digits, coefficient := CodeUnit.digitValue u }
      else none
  | .zero => afterInteger? n u
  | .digits =>
      if CodeUnit.isDigit u then some { n with coefficient := pushDigit n u }
      else afterInteger? n u
  | .point | .fraction =>
      if CodeUnit.isDigit u then
        some { n with part := .fraction, coefficient := pushDigit n u, scale := n.scale + 1 }
      else if n.part = .fraction && (u = CodeUnit.ofChar 'e' || u = CodeUnit.ofChar 'E') then
        some { n with part := .letter }
      else none
  | .letter =>
      if u = CodeUnit.ofChar '-' then
        some { n with part := .exponentSign, exponentNegative := true }
      else if u = CodeUnit.ofChar '+' then some { n with part := .exponentSign }
      else if CodeUnit.isDigit u then
        some { n with part := .exponent, exponent := CodeUnit.digitValue u }
      else none
  | .exponentSign | .exponent =>
      if CodeUnit.isDigit u then
        some { n with part := .exponent, exponent := n.exponent * 10 + CodeUnit.digitValue u }
      else none

/-- The number of a complete numeral. -/
def number? (n : Numeral) : Option Number :=
  let exponent : Int := if n.exponentNegative then -n.exponent else n.exponent
  match n.part with
  | .zero | .digits | .fraction | .exponent =>
      some (Number.ofDecimal n.negative n.coefficient (exponent - n.scale))
  | .minus | .point | .letter | .exponentSign => none

end Numeral

end Json

end PolicyWarden
