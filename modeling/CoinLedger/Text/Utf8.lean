/-!
# The bytes of a text

Positions in error messages, size limits and the order of object keys are counted in the bytes of
the UTF-8 form.
-/

set_option autoImplicit false

namespace CoinLedger.Text

/-- The UTF-8 bytes of a text. -/
def utf8 (text : List Char) : List UInt8 :=
  text.flatMap String.utf8EncodeChar

/-- How many UTF-8 bytes a text has. -/
def byteCount : List Char → Nat
  | [] => 0
  | character :: rest => character.utf8Size + byteCount rest

/-- The leading characters that make up exactly the given number of bytes; `none` when that many
bytes end inside a character or are not there. -/
def takeBytes? : Nat → List Char → Option (List Char)
  | 0, _ => some []
  | _ + 1, [] => none
  | limit + 1, character :: rest =>
    if character.utf8Size ≤ limit + 1 then
      (takeBytes? (limit + 1 - character.utf8Size) rest).map (character :: ·)
    else
      none
termination_by _ text => text.length

end CoinLedger.Text
