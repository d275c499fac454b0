/-!
# Blank characters and trimming

The blank characters are the ones Unicode gives the property `White_Space`.  Trimming drops them
from both ends of a text and touches nothing between the first and the last character that is not
blank.
-/

set_option autoImplicit false

namespace CoinLedger.Text

/-- The `White_Space` property of Unicode: the ASCII controls from tab to carriage return, the
space, and the separators beyond ASCII. -/
def isBlank (character : Char) : Bool :=
  let code := character.toNat
  (0x09 ≤ code && code ≤ 0x0d) || code == 0x20 || code == 0x85 || code == 0xa0 ||
    code == 0x1680 || (0x2000 ≤ code && code ≤ 0x200a) || code == 0x2028 || code == 0x2029 ||
    code == 0x202f || code == 0x205f || code == 0x3000

/-- The text without the blanks it begins with. -/
def trimLeft (text : List Char) : List Char :=
  text.dropWhile isBlank

/-- The text without the blanks it ends with. -/
def trimRight (text : List Char) : List Char :=
  (text.reverse.dropWhile isBlank).reverse

/-- The text without the blanks at either end. -/
def trim (text : List Char) : List Char :=
  trimRight (trimLeft text)

end CoinLedger.Text
