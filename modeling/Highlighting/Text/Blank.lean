/-!
# Blank characters

Blanks separate tokens in a source text, fill blank lines and surround numbers written as text.
A character is blank when it has the Unicode property White_Space, which is a fixed set of
twenty-five characters.

## Main definitions

* `Text.isBlank`: the property
* `Text.trimStart`, `Text.trim`: a text without the blanks at its start, or at both ends
-/

namespace Highlighting

namespace Text

/-- Whether a character has the Unicode property White_Space. The control characters U+001C to
U+001F, the zero-width space and the byte order mark do not have it. -/
def isBlank (c : Char) : Bool :=
  let n := c.toNat
  (0x09 ≤ n && n ≤ 0x0D) || n == 0x20 || n == 0x85 || n == 0xA0 || n == 0x1680
    || (0x2000 ≤ n && n ≤ 0x200A) || n == 0x2028 || n == 0x2029 || n == 0x202F
    || n == 0x205F || n == 0x3000

/-- The text from its first character that is not blank. -/
def trimStart (cs : List Char) : List Char :=
  cs.dropWhile isBlank

/-- The text without the blanks at either end. -/
def trim (cs : List Char) : List Char :=
  (trimStart (trimStart cs).reverse).reverse

end Text

end Highlighting
