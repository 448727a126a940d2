import PolicyWarden.Text.Utf8

/-!
# Base64

`Base64.encode` uses the standard alphabet with padding, and `Base64.encodeIn` any style of
writing.  `Base64.decode` accepts every text: it knows the standard and the URL-safe alphabet at
once, skips all other characters, stops at the first `=`, and turns a last group of two or three
digits into one or two bytes; a last group of one digit holds no byte.  A code unit counts by its
low eight bits alone, whatever character it is.
-/

namespace PolicyWarden

namespace Base64

/-! ### Digits -/

/-- A way of writing: the digits for 62 and 63, and whether the last group is padded. -/
structure Style where
  digit62 : CodeUnit
  digit63 : CodeUnit
  padded : Bool

/-- The standard alphabet with padding. -/
def standard : Style :=
  ⟨CodeUnit.ofChar '+', CodeUnit.ofChar '/', true⟩

/-- The URL-safe alphabet without padding. -/
def urlSafe : Style :=
  ⟨CodeUnit.ofChar '-', CodeUnit.ofChar '_', false⟩

/-- The digit of a value below 64. -/
def digit (style : Style) (value : Nat) : CodeUnit :=
  if value < 26 then (0x41 + value).toUInt16
  else if value < 52 then (0x61 + (value - 26)).toUInt16
  else if value < 62 then (0x30 + (value - 52)).toUInt16
  else if value = 62 then style.digit62
  else style.digit63

/-- The value of a digit of either alphabet. -/
def digitValue? (u : CodeUnit) : Option Nat :=
  if 0x41 ≤ u && u ≤ 0x5A then some (u.toNat - 0x41)
  else if 0x61 ≤ u && u ≤ 0x7A then some (u.toNat - 0x61 + 26)
  else if CodeUnit.isDigit u then some (u.toNat - 0x30 + 52)
  else if u = CodeUnit.ofChar '+' || u = CodeUnit.ofChar '-' then some 62
  else if u = CodeUnit.ofChar '/' || u = CodeUnit.ofChar '_' then some 63
  else none

/-- The padding sign. -/
def padding : CodeUnit :=
  CodeUnit.ofChar '='

/-! ### Writing -/

/-- Some padding signs, in a padded style. -/
def paddingOf (style : Style) (count : Nat) : Text :=
  if style.padded then List.replicate count padding else []

/-- Three bytes become four digits; one or two last bytes become two or three digits. -/
def encodeIn (style : Style) : Bytes → Text
  | [] => []
  | [a] => digit style (a.toNat / 4) :: digit style (a.toNat % 4 * 16) :: paddingOf style 2
  | [a, b] =>
      digit style (a.toNat / 4) :: digit style (a.toNat % 4 * 16 + b.toNat / 16) ::
        digit style (b.toNat % 16 * 4) :: paddingOf style 1
  | a :: b :: c :: rest =>
      digit style (a.toNat / 4) :: digit style (a.toNat % 4 * 16 + b.toNat / 16) ::
        digit style (b.toNat % 16 * 4 + c.toNat / 64) :: digit style (c.toNat % 64) ::
        encodeIn style rest

/-- The standard text of a byte string. -/
def encode (bytes : Bytes) : Text :=
  encodeIn standard bytes

/-! ### Reading -/

/-- The low eight bits of a code unit. -/
def lowBits (u : CodeUnit) : CodeUnit :=
  u % 256

/-- The digit values of a text up to its first padding sign. -/
def values (t : Text) : List Nat :=
  ((t.map lowBits).takeWhile (· ≠ padding)).filterMap digitValue?

/-- The bytes of a run of digit values. -/
def bytesOfValues : List Nat → Bytes
  | [] => []
  | [_] => []
  | [p, q] => [(p * 4 + q / 16).toUInt8]
  | [p, q, r] => [(p * 4 + q / 16).toUInt8, (q % 16 * 16 + r / 4).toUInt8]
  | p :: q :: r :: s :: rest =>
      (p * 4 + q / 16).toUInt8 :: (q % 16 * 16 + r / 4).toUInt8 :: (r % 4 * 64 + s).toUInt8 ::
        bytesOfValues rest

/-- The bytes that a text holds. -/
def decode (t : Text) : Bytes :=
  bytesOfValues (values t)

end Base64

end PolicyWarden
