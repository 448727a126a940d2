import PolicyWarden.Text.Basic

/-!
# UTF-8

`Utf8.encode` writes a text as bytes.  `Utf8.decode` reads any bytes at all: each maximal run of
bytes that begins a character without finishing it, and each byte that begins none, becomes one
replacement character.  A byte order mark is a character like any other.

The decoder walks the bytes once.  Between two bytes it remembers at most one unfinished character,
together with the range that the next byte must lie in; the narrow ranges after `E0`, `ED`, `F0`
and `F4` are what excludes overlong forms, surrogates and values beyond U+10FFFF.
-/

namespace PolicyWarden

/-- A byte string. -/
abbrev Bytes := List UInt8

namespace Utf8

/-! ### Writing -/

/-- The bytes of one character. -/
def encodeChar (c : Char) : Bytes :=
  let n := c.toNat
  if n < 0x80 then [n.toUInt8]
  else if n < 0x800 then [(0xC0 + n / 0x40).toUInt8, (0x80 + n % 0x40).toUInt8]
  else if n < 0x10000 then
    [(0xE0 + n / 0x1000).toUInt8, (0x80 + n / 0x40 % 0x40).toUInt8, (0x80 + n % 0x40).toUInt8]
  else
    [(0xF0 + n / 0x40000).toUInt8, (0x80 + n / 0x1000 % 0x40).toUInt8,
      (0x80 + n / 0x40 % 0x40).toUInt8, (0x80 + n % 0x40).toUInt8]

/-- The bytes of a text. -/
def encode (t : Text) : Bytes :=
  t.toChars.flatMap encodeChar

/-! ### Reading -/

/-- A character that has begun: how many bytes it still needs, the bits read so far, and the range
of its next byte. -/
structure Unfinished where
  needed : Nat
  bits : Nat
  least : UInt8
  greatest : UInt8

/-- What one byte adds to the text, and the character that it leaves unfinished. -/
abbrev Progress := Text × Option Unfinished

/-- The text of one replacement character. -/
def replaced : Text :=
  Text.ofChar Text.replacement

/-- Read a byte at the start of a character. -/
def first (b : UInt8) : Progress :=
  if b < 0x80 then ([b.toUInt16], none)
  else if b < 0xC2 then (replaced, none)
  else if b < 0xE0 then ([], some ⟨1, b.toNat - 0xC0, 0x80, 0xBF⟩)
  else if b < 0xF0 then
    ([], some ⟨2, b.toNat - 0xE0, if b = 0xE0 then 0xA0 else 0x80, if b = 0xED then 0x9F else 0xBF⟩)
  else if b < 0xF5 then
    ([], some ⟨3, b.toNat - 0xF0, if b = 0xF0 then 0x90 else 0x80, if b = 0xF4 then 0x8F else 0xBF⟩)
  else (replaced, none)

/-- Read a byte after an unfinished character.  A byte out of range ends that character with a
replacement and is read again as the start of the next one. -/
def continued (c : Unfinished) (b : UInt8) : Progress :=
  if c.least ≤ b && b ≤ c.greatest then
    let bits := c.bits * 0x40 + (b.toNat - 0x80)
    match c.needed with
    | 0 | 1 => (Text.ofChar (Char.ofNat bits), none)
    | needed + 1 => ([], some ⟨needed, bits, 0x80, 0xBF⟩)
  else (replaced ++ (first b).1, (first b).2)

/-- Read one byte. -/
def step : Option Unfinished → UInt8 → Progress
  | none, b => first b
  | some c, b => continued c b

/-- Read the bytes that follow an unfinished character. -/
def decodeFrom : Option Unfinished → Bytes → Text
  | none, [] => []
  | some _, [] => replaced
  | state, b :: rest => (step state b).1 ++ decodeFrom (step state b).2 rest

/-- The text of a byte string. -/
def decode (bytes : Bytes) : Text :=
  decodeFrom none bytes

end Utf8

end PolicyWarden
