import CoinLedger.Text.Printable

/-!
# Quoted diagnostics

Messages quote the text they complain about.  The quote mark and the backslash are escaped by a
backslash, NUL, tab, line feed and carriage return by their letter, and a character without a glyph
by its code in braces.
-/

set_option autoImplicit false

namespace CoinLedger.Text

/-- A code in lower-case hexadecimal, without leading zeros, inside `\u` and braces. -/
def codeEscape (code : Nat) : List Char :=
  ['\\', 'u', '\x7b'] ++ Nat.toDigits 16 code ++ ['\x7d']

/-- One character of a quotation whose mark is `mark`. -/
def escapeWithin (mark character : Char) : List Char :=
  if character == mark || character == '\\' then ['\\', character]
  else if character == '\x00' then ['\\', '0']
  else if character == '\t' then ['\\', 't']
  else if character == '\n' then ['\\', 'n']
  else if character == '\r' then ['\\', 'r']
  else if isPrintable character then [character]
  else codeEscape character.toNat

/-- A text between double quotes. -/
def quoted (text : String) : String :=
  String.ofList (['"'] ++ text.toList.flatMap (escapeWithin '"') ++ ['"'])

/-- A character between single quotes. -/
def quotedChar (character : Char) : String :=
  String.ofList (['\x27'] ++ escapeWithin '\x27' character ++ ['\x27'])

end CoinLedger.Text
