/-!
# Text as code units

Every text of the library is a list of 16-bit code units, so a surrogate without its partner is a
text like any other, and lengths and cuts count code units.  `Text.ofString` writes an ordinary
string this way, and `Text.toString` reads it back with a replacement character for each surrogate
that stands alone.
-/

namespace PolicyWarden

/-- One 16-bit code unit of a text. -/
abbrev CodeUnit := UInt16

/-- A text is its list of code units. -/
abbrev Text := List CodeUnit

namespace CodeUnit

/-- The code unit of a character below U+10000. -/
def ofChar (c : Char) : CodeUnit :=
  c.val.toUInt16

/-- The unit opens a surrogate pair. -/
def isHigh (u : CodeUnit) : Bool :=
  0xD800 ≤ u && u < 0xDC00

/-- The unit closes a surrogate pair. -/
def isLow (u : CodeUnit) : Bool :=
  0xDC00 ≤ u && u < 0xE000

/-- The unit is one of the ten ASCII digits. -/
def isDigit (u : CodeUnit) : Bool :=
  0x30 ≤ u && u ≤ 0x39

/-- The value of a digit of a base up to sixteen, in either case. -/
def hexValue? (u : CodeUnit) : Option Nat :=
  if isDigit u then some (u.toNat - 0x30)
  else if 0x61 ≤ u && u ≤ 0x66 then some (u.toNat - 0x61 + 10)
  else if 0x41 ≤ u && u ≤ 0x46 then some (u.toNat - 0x41 + 10)
  else none

/-- The value of an ASCII digit, counted from the digit zero. -/
def digitValue (u : CodeUnit) : Nat :=
  u.toNat - 0x30

end CodeUnit

namespace Text

/-! ### Ordinary strings -/

/-- The one or two code units of a character. -/
def ofChar (c : Char) : Text :=
  if c.val < 0x10000 then [CodeUnit.ofChar c]
  else
    [(0xD800 + (c.val - 0x10000) / 0x400).toUInt16,
      (0xDC00 + (c.val - 0x10000) % 0x400).toUInt16]

/-- The code units of a string. -/
def ofString (s : String) : Text :=
  s.toList.flatMap ofChar

instance : Coe String Text :=
  ⟨ofString⟩

/-- The replacement character, which stands for what cannot be decoded. -/
def replacement : Char :=
  Char.ofNat 0xFFFD

/-- The character of a code unit outside a pair; a lone surrogate has none of its own. -/
def charOfUnit (u : CodeUnit) : Char :=
  if CodeUnit.isHigh u || CodeUnit.isLow u then replacement else Char.ofNat u.toNat

/-- The character of a surrogate pair. -/
def charOfPair (high low : CodeUnit) : Char :=
  Char.ofNat (0x10000 + (high.toNat - 0xD800) * 0x400 + (low.toNat - 0xDC00))

/-- The characters of a text, with a replacement character for each lone surrogate. -/
def toChars : Text → List Char
  | [] => []
  | [u] => [charOfUnit u]
  | u :: v :: rest =>
      if CodeUnit.isHigh u && CodeUnit.isLow v then charOfPair u v :: toChars rest
      else charOfUnit u :: toChars (v :: rest)

/-- The string of a text, with a replacement character for each lone surrogate. -/
def toString (t : Text) : String :=
  String.ofList (toChars t)

/-! ### Numbers in texts -/

/-- The decimal digits of a natural number. -/
def ofNat (n : Nat) : Text :=
  (Nat.toDigits 10 n).map CodeUnit.ofChar

/-- The decimal digits of an integer, after a minus sign for a negative one. -/
def ofInt (n : Int) : Text :=
  match n with
  | .ofNat k => ofNat k
  | .negSucc k => CodeUnit.ofChar '-' :: ofNat (k + 1)

/-- The number that a run of digits denotes, most significant digit first. -/
def digitsValue (base : Nat) (digits : List Nat) : Nat :=
  digits.foldl (fun value digit => value * base + digit) 0

/-- The decimal number that a run of ASCII digits denotes. -/
def natValue (t : Text) : Nat :=
  digitsValue 10 (t.map CodeUnit.digitValue)

/-- The text is a non-empty run of ASCII digits. -/
def isDigits (t : Text) : Bool :=
  !t.isEmpty && t.all CodeUnit.isDigit

/-! ### Taking texts apart -/

/-- What follows `start` in a text that begins with it. -/
def dropStart? : (start : Text) → (t : Text) → Option Text
  | [], t => some t
  | _ :: _, [] => none
  | u :: start, v :: t => if u = v then dropStart? start t else none

/-- A text begins with `start` exactly when it is `start` and what follows. -/
theorem dropStart?_eq_some_iff {start t rest : Text} :
    dropStart? start t = some rest ↔ t = start ++ rest := by
  induction start generalizing t with
  | nil => simp [dropStart?]
  | cons u start ih =>
    cases t with
    | nil => simp [dropStart?]
    | cons v t =>
      by_cases h : u = v
      · simp [dropStart?, h, ih]
      · simp [dropStart?, h, Ne.symm h]

/-- What stands before and after the first occurrence of a unit. -/
def splitFirst? (sep : CodeUnit) : Text → Option (Text × Text)
  | [] => none
  | u :: rest =>
      if u = sep then some ([], rest)
      else (splitFirst? sep rest).map fun parts => (u :: parts.1, parts.2)

/-- What stands after the last occurrence of a unit. -/
def afterLast? (sep : CodeUnit) : Text → Option Text
  | [] => none
  | u :: rest =>
      match afterLast? sep rest with
      | some tail => some tail
      | none => if u = sep then some rest else none

/-- The parts of a text between the occurrences of a unit; there is always at least one. -/
def segments (sep : CodeUnit) : Text → List Text
  | [] => [[]]
  | u :: rest =>
      match segments sep rest with
      | [] => [[u]]
      | part :: parts => if u = sep then [] :: part :: parts else (u :: part) :: parts

/-- The texts written one after another with `glue` between neighbours. -/
def join (glue : Text) : List Text → Text
  | [] => []
  | [t] => t
  | t :: u :: rest => t ++ glue ++ join glue (u :: rest)

end Text

end PolicyWarden
