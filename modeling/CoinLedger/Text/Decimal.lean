/-!
# Decimal numerals

Digits are the ten of ASCII.  A numeral is read as the number its digits spell, with any number of
leading zeros; a signed numeral may begin with one sign.  `zeroPadded` is the fixed-width spelling.
-/

set_option autoImplicit false

namespace CoinLedger.Text

/-- Whether every character is an ASCII digit. -/
def allDigits (text : List Char) : Bool :=
  text.all Char.isDigit

/-- The value of one digit. -/
def digitValue (digit : Char) : Nat :=
  digit.toNat - '0'.toNat

/-- The number that a row of digits spells, the most significant first. -/
def digitsValue (digits : List Char) : Nat :=
  digits.foldl (fun value digit => 10 * value + digitValue digit) 0

/-- The number spelled by a non-empty row of digits. -/
def natural? (text : List Char) : Option Nat :=
  if text.isEmpty || !allDigits text then none else some (digitsValue text)

/-- An unsigned numeral, which may begin with a plus sign. -/
def unsigned? : List Char → Option Nat
  | '+' :: digits => natural? digits
  | text => natural? text

/-- A signed numeral, which may begin with a plus or a minus sign. -/
def signed? : List Char → Option Int
  | '-' :: digits => (natural? digits).map fun value => -(value : Int)
  | text => (unsigned? text).map Int.ofNat

/-- The decimal digits of a number. -/
def decimal (value : Nat) : List Char :=
  Nat.toDigits 10 value

/-- The decimal digits of a number, with zeros in front up to the given width. -/
def zeroPadded (width value : Nat) : List Char :=
  let digits := decimal value
  List.replicate (width - digits.length) '0' ++ digits

/-- The text moved to the right end of a field of the given width, which counts characters. -/
def rightAligned (width : Nat) (text : String) : String :=
  String.ofList (List.replicate (width - text.length) ' ') ++ text

end CoinLedger.Text
