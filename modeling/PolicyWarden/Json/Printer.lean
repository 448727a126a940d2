import PolicyWarden.Json.Basic
import PolicyWarden.Number.Shortest

/-!
# Writing JSON

`Json.render` writes a value without blanks, and `Json.pretty` with one member or item a line.
Inside a string only the quote, the backslash, the control characters and the surrogates without
partner are escaped; everything else stands for itself.  JSON has no text for an infinity or a
missing number, so `null` stands in their place.

Each writer takes the text that follows the value, so that a value is written in one pass.
-/

namespace PolicyWarden

namespace Json

/-! ### Strings -/

/-- The lower-case hexadecimal digit of a value below sixteen. -/
def hexDigit (value : Nat) : CodeUnit :=
  CodeUnit.ofChar (Nat.digitChar value)

/-- A unit escaped by its number. -/
def unitEscape (u : CodeUnit) : Text :=
  let n := u.toNat
  CodeUnit.ofChar '\\' :: CodeUnit.ofChar 'u' ::
    [hexDigit (n / 0x1000), hexDigit (n / 0x100 % 16), hexDigit (n / 16 % 16), hexDigit (n % 16)]

/-- The letter that stands for a unit behind a backslash. -/
def escapeLetter? (u : CodeUnit) : Option CodeUnit :=
  if u = CodeUnit.ofChar '"' || u = CodeUnit.ofChar '\\' then some u
  else if u = 0x08 then some (CodeUnit.ofChar 'b')
  else if u = 0x0C then some (CodeUnit.ofChar 'f')
  else if u = 0x0A then some (CodeUnit.ofChar 'n')
  else if u = 0x0D then some (CodeUnit.ofChar 'r')
  else if u = 0x09 then some (CodeUnit.ofChar 't')
  else none

/-- A unit outside a surrogate pair as it is written inside a string. -/
def writeUnit (u : CodeUnit) : Text :=
  match escapeLetter? u with
  | some letter => [CodeUnit.ofChar '\\', letter]
  | none => if u < 0x20 || CodeUnit.isHigh u || CodeUnit.isLow u then unitEscape u else [u]

/-- The units of a string before its closing quote and the text behind it. -/
def writeUnits : Text → Text → Text
  | [], rest => CodeUnit.ofChar '"' :: rest
  | [u], rest => writeUnit u ++ CodeUnit.ofChar '"' :: rest
  | u :: v :: t, rest =>
      if CodeUnit.isHigh u && CodeUnit.isLow v then u :: v :: writeUnits t rest
      else writeUnit u ++ writeUnits (v :: t) rest

/-- A quoted string before a text. -/
def writeString (t rest : Text) : Text :=
  CodeUnit.ofChar '"' :: writeUnits t rest

/-! ### Values -/

mutual

/-- A value before a text. -/
def write : Json → Text → Text
  | null, rest => Text.ofString "null" ++ rest
  | bool true, rest => Text.ofString "true" ++ rest
  | bool false, rest => Text.ofString "false" ++ rest
  | number n, rest => (if n.isFinite then n.render else Text.ofString "null") ++ rest
  | text t, rest => writeString t rest
  | array items, rest => CodeUnit.ofChar '[' :: writeItems items rest
  | object members, rest => CodeUnit.ofChar '{' :: writeMembers members rest

/-- The items of an array, its closing bracket and a text. -/
def writeItems : List Json → Text → Text
  | [], rest => CodeUnit.ofChar ']' :: rest
  | v :: items, rest => write v (writeNextItems items rest)

/-- The items of an array behind another one. -/
def writeNextItems : List Json → Text → Text
  | [], rest => CodeUnit.ofChar ']' :: rest
  | v :: items, rest => CodeUnit.ofChar ',' :: write v (writeNextItems items rest)

/-- The members of an object, its closing brace and a text. -/
def writeMembers : List (Text × Json) → Text → Text
  | [], rest => CodeUnit.ofChar '}' :: rest
  | (k, v) :: members, rest =>
      writeString k (CodeUnit.ofChar ':' :: write v (writeNextMembers members rest))

/-- The members of an object behind another one. -/
def writeNextMembers : List (Text × Json) → Text → Text
  | [], rest => CodeUnit.ofChar '}' :: rest
  | (k, v) :: members, rest =>
      CodeUnit.ofChar ',' ::
        writeString k (CodeUnit.ofChar ':' :: write v (writeNextMembers members rest))
end

/-- The text of a value, without blanks. -/
def render (v : Json) : Text :=
  write v []

/-! ### One line for each member -/

/-- A new line with two blanks for each level. -/
def newLine (level : Nat) : Text :=
  0x0A :: List.replicate (2 * level) 0x20

mutual

/-- A value inside `level` open arrays and objects. -/
def prettyAt (level : Nat) : Json → Text
  | array [] => Text.ofString "[]"
  | array (v :: items) =>
      CodeUnit.ofChar '[' :: newLine (level + 1) ++ prettyAt (level + 1) v ++
        prettyItems (level + 1) items ++ newLine level ++ [CodeUnit.ofChar ']']
  | object [] => Text.ofString "\x7b\x7d"
  | object ((k, v) :: members) =>
      CodeUnit.ofChar '{' :: newLine (level + 1) ++ writeString k (Text.ofString ": ") ++
        prettyAt (level + 1) v ++
        prettyMembers (level + 1) members ++ newLine level ++ [CodeUnit.ofChar '}']
  | v => render v

/-- Items behind another one. -/
def prettyItems (level : Nat) : List Json → Text
  | [] => []
  | v :: items =>
      CodeUnit.ofChar ',' :: newLine level ++ prettyAt level v ++ prettyItems level items

/-- Members behind another one. -/
def prettyMembers (level : Nat) : List (Text × Json) → Text
  | [] => []
  | (k, v) :: members =>
      CodeUnit.ofChar ',' :: newLine level ++ writeString k (Text.ofString ": ") ++
        prettyAt level v ++ prettyMembers level members
end

/-- The text of a value with one member or item a line. -/
def pretty (v : Json) : Text :=
  prettyAt 0 v

/-! ### Plain text -/

/-- What is shown for an object in plain text. -/
def objectMark : Text :=
  Text.ofString "[object Object]"

/-- The member by which an object claims to know its own plain text. -/
def plainTextKey : Text :=
  Text.ofString "toString"

mutual

/-- A value without quotes and brackets: items stand between commas, and no object shows its
members.  An object that claims to know its own plain text is at odds with that and has none, and
neither has an array that holds such an object. -/
def plain? : Json → Option Text
  | null => some (Text.ofString "null")
  | bool true => some (Text.ofString "true")
  | bool false => some (Text.ofString "false")
  | number n => some n.render
  | text t => some t
  | array items => plainItems? items
  | object members => if (lookup plainTextKey members).isSome then none else some objectMark

/-- Items between commas. -/
def plainItems? : List Json → Option Text
  | [] => some []
  | [v] => plainItem? v
  | v :: w :: items =>
      match plainItem? v, plainItems? (w :: items) with
      | some first, some others => some (first ++ CodeUnit.ofChar ',' :: others)
      | _, _ => none

/-- An item; a missing value shows nothing. -/
def plainItem? : Json → Option Text
  | null => some []
  | v => plain? v
end

end Json

end PolicyWarden
