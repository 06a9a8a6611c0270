import CilAtlas.Text.Basic

/-!
# Blanks

The code points that count as white space at the ends of a line: the Unicode
property `White_Space` together with the four information separators
U+001C to U+001F.
-/

namespace CilAtlas

/-- White space, the information separators included. -/
def CodePoint.isBlank (c : CodePoint) : Bool :=
  let n := c.toNat
  (0x09 ≤ n && n ≤ 0x0D) || (0x1C ≤ n && n ≤ 0x20) || n == 0x85 || n == 0xA0
    || n == 0x1680 || (0x2000 ≤ n && n ≤ 0x200A) || n == 0x2028 || n == 0x2029
    || n == 0x202F || n == 0x205F || n == 0x3000

/-- The text without the blanks at its two ends. -/
def Text.trim (t : Text) : Text :=
  ((t.dropWhile CodePoint.isBlank).reverse.dropWhile CodePoint.isBlank).reverse

end CilAtlas
