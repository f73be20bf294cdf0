set_option autoImplicit false

/-!
# Text: blank characters

The characters that separate tokens and that surround a number text: the ASCII blanks, the four
information separators, the next-line control and the space separators and line breaks of the
Unicode tables.
-/

namespace ScopeScript.Text

/-- Whether a character only separates what stands around it. -/
def isBlank (c : Char) : Bool :=
  let code := c.toNat
  (9 ≤ code && code ≤ 13) || (28 ≤ code && code ≤ 32) || code == 0x85 || code == 0xA0 ||
    code == 0x1680 || (0x2000 ≤ code && code ≤ 0x200A) || code == 0x2028 || code == 0x2029 ||
    code == 0x202F || code == 0x205F || code == 0x3000

/-- The text without the blanks at its two ends. -/
def trimBlanks (text : List Char) : List Char :=
  ((text.dropWhile isBlank).reverse.dropWhile isBlank).reverse

end ScopeScript.Text
