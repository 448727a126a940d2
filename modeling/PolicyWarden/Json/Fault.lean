import PolicyWarden.Json.Reader

/-!
# Faults of documents

A text that is not JSON has a fault: the first unit that cannot stand where it stands, or an end
that comes too early.  `Json.fault?` finds it by the steps of the reader, so a text has a fault
exactly when it cannot be read (`Json.fault?_eq_none_iff`).  What is said about it depends on what
the reader was in the middle of, and mostly on nothing else.  `Json.complaint` is all that is said:
it names the line and the column where something else was awaited, and otherwise shows the text
around the unit.
-/

namespace PolicyWarden

namespace Json

/-! ### Finding the fault -/

/-- What is wrong with a text that is not JSON. -/
inductive Fault where
  /-- A unit cannot stand at its position. -/
  | unexpected (position : Nat) (unit : CodeUnit)
  /-- Something else was awaited at a position. -/
  | awaited (wording : Text) (position : Nat)
  /-- The text ends too early. -/
  | unfinished
  deriving DecidableEq, Repr

/-- What is said about anything that may not follow a complete value. -/
def afterValueWording : List Frame → Text
  | [] => "Unexpected non-whitespace character after JSON"
  | .list _ :: _ => "Expected ',' or ']' after array element in JSON"
  | .record _ :: _ | .member _ _ :: _ => "Expected ',' or '\x7d' after property value in JSON"

/-- What is said about anything that may not follow in a numeral. -/
def Numeral.wording (n : Numeral) (next : Option CodeUnit) (stack : List Frame) : Text :=
  match n.part with
  | .minus => "No number after minus sign in JSON"
  | .point => "Unterminated fractional number in JSON"
  | .letter | .exponentSign => "Exponent part is missing a number in JSON"
  | .zero =>
      if next.any CodeUnit.isDigit then "Unexpected number in JSON" else afterValueWording stack
  | .digits | .fraction | .exponent => afterValueWording stack

/-- What is said about a unit that breaks off a word, if it could begin another value. -/
def brokenWording? (u : CodeUnit) : Option Text :=
  if CodeUnit.isDigit u || u = CodeUnit.ofChar '-' then some "Unexpected number in JSON"
  else if u = CodeUnit.ofChar '"' then some "Unexpected string in JSON"
  else none

/-- What is said about the next unit, or about the end, where the reader cannot go on with it; there
may be nothing particular to say. -/
def Reading.wording? (r : Reading) (next : Option CodeUnit) : Option Text :=
  match r.mode with
  | .value | .firstItem => none
  | .firstKey => some "Expected property name or '\x7d' in JSON"
  | .key => some "Expected double-quoted property name in JSON"
  | .colon => some "Expected ':' after property name in JSON"
  | .settled _ | .word [] _ => some (afterValueWording r.stack)
  | .word _ _ => next.bind brokenWording?
  | .string _ =>
      some (if next.isSome then "Bad control character in string literal in JSON"
        else "Unterminated string in JSON")
  | .escape _ => next.map fun _ => "Bad escaped character in JSON"
  | .unitDigits _ _ _ => some "Bad Unicode escape in JSON"
  | .numeral n => some (n.wording next r.stack)

/-- The fault of the next unit, or of the end, at a position where the reader cannot go on. -/
def Reading.faultOf (r : Reading) (position : Nat) (next : Option CodeUnit) : Fault :=
  match r.wording? next, next with
  | some wording, _ => .awaited wording position
  | none, some unit => .unexpected position unit
  | none, none => .unfinished

/-- The fault in the rest of a text, which begins at a position. -/
def Reading.fault? (r : Reading) (position : Nat) : Text → Option Fault
  | [] => if r.finish?.isSome then none else some (r.faultOf position none)
  | u :: rest =>
      match r.step? u with
      | some next => next.fault? (position + 1) rest
      | none => some (r.faultOf position (some u))

/-- The fault of a text, if it has one. -/
def fault? (t : Text) : Option Fault :=
  Reading.fault? ⟨.value, []⟩ 0 t

/-- The rest of a text has no fault exactly when it can be read. -/
theorem Reading.fault?_eq_none_iff (r : Reading) (position : Nat) (t : Text) :
    r.fault? position t = none ↔ (r.run? t).isSome := by
  induction t generalizing r position with
  | nil => simp [Reading.fault?, Reading.run?, Option.isSome_iff_ne_none]
  | cons u rest ih =>
    cases h : r.step? u with
    | none => simp [Reading.fault?, Reading.run?, h]
    | some next => simp [Reading.fault?, Reading.run?, h, ih]

/-- A text has no fault exactly when it can be read. -/
theorem fault?_eq_none_iff (t : Text) : fault? t = none ↔ (read? t).isSome := by
  simp [fault?, read?, scan?, Reading.fault?_eq_none_iff]

/-! ### Saying where it is -/

/-- A place between the units of a text: its line and column, counted from one, and whether the unit
before it is a carriage return. -/
structure Place where
  line : Nat := 1
  column : Nat := 1
  afterReturn : Bool := false

/-- The place after one more unit.  A carriage return and the line feed behind it end one line. -/
def Place.after (p : Place) (u : CodeUnit) : Place :=
  if u = 0x0A && p.afterReturn then { p with afterReturn := false }
  else if u = 0x0A || u = 0x0D then { line := p.line + 1, afterReturn := u = 0x0D }
  else { line := p.line, column := p.column + 1 }

/-- A position in a text as it is shown. -/
def placeText (t : Text) (position : Nat) : Text :=
  let place : Place := (t.take position).foldl Place.after {}
  (" at position " : Text) ++ Text.ofNat position ++
    " (line " ++ Text.ofNat place.line ++ " column " ++ Text.ofNat place.column ++ ")"

/-- How many units are shown on either side of a fault. -/
def contextWidth : Nat :=
  10

/-- A text in quotes. -/
def quoted (t : Text) : Text :=
  ("\"" : Text) ++ t ++ "\""

/-- The part of a text around a position; dots stand for what is left out on either side. -/
def excerpt (t : Text) (position : Nat) : Text :=
  if t.length ≤ 2 * contextWidth then quoted t
  else if position < contextWidth then quoted (t.take (position + contextWidth)) ++ "..."
  else if position + contextWidth < t.length then
    ("..." : Text) ++ quoted ((t.drop (position - contextWidth)).take (2 * contextWidth)) ++ "..."
  else ("..." : Text) ++ quoted (t.drop (position - contextWidth))

/-- The texts that values without a document are shown as; one that is given as a document is named
as a whole. -/
def mistakenTexts : List Text :=
  ["NaN", "Infinity", "undefined", "[object Object]"]

/-- What is said about a fault of a text. -/
def Fault.message (t : Text) : Fault → Text
  | unexpected position unit =>
      if t ∈ mistakenTexts then quoted t ++ " is not valid JSON"
      else
        ("Unexpected token '" : Text) ++ unit :: ("', " : Text) ++ excerpt t position ++
          " is not valid JSON"
  | awaited wording position => wording ++ placeText t position
  | unfinished => "Unexpected end of JSON input"

/-- What is said about a text that is not JSON; there is nothing to say about any other one. -/
def complaint (t : Text) : Text :=
  ((fault? t).map (Fault.message t)).getD []

/-- A unit is shown with the text around it, and anything else with its line and column. -/
example :
    complaint "[1,2,3,4,5,6,7,8,9,10,x]" =
        Text.ofString "Unexpected token 'x', ...\",7,8,9,10,x]\" is not valid JSON" ∧
      complaint "[1\n 2]" = Text.ofString
        "Expected ',' or ']' after array element in JSON at position 4 (line 2 column 2)" := by
  decide +kernel

end Json

end PolicyWarden
