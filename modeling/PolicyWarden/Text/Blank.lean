import PolicyWarden.Text.Basic

/-!
# Blanks

White space in the wide sense: the ASCII blanks, the no-break space, the space separators of the
standard, both line separators and the byte order mark.
-/

namespace PolicyWarden

namespace CodeUnit

/-- The unit is white space. -/
def isBlank (u : CodeUnit) : Bool :=
  (0x09 ≤ u && u ≤ 0x0D) || u == 0x20 || u == 0xA0 || u == 0x1680 ||
    (0x2000 ≤ u && u ≤ 0x200A) || u == 0x2028 || u == 0x2029 || u == 0x202F ||
    u == 0x205F || u == 0x3000 || u == 0xFEFF

end CodeUnit

namespace Text

/-- The text without the blanks at its two ends. -/
def trim (t : Text) : Text :=
  ((t.dropWhile CodeUnit.isBlank).reverse.dropWhile CodeUnit.isBlank).reverse

end Text

end PolicyWarden
