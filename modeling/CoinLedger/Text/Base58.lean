/-!
# Base 58 text

Bytes are read as one big-endian number and written in base 58, over the digits and letters without
`0`, `O`, `I` and `l`.  A number does not tell how many zero bytes stand in front of it, so every
leading zero byte is written as a `1` of its own.
-/

set_option autoImplicit false

namespace CoinLedger.Text.Base58

/-- The fifty-eight digits in the order of their values. -/
def alphabet : List Char :=
  "123456789ABCDEFGHJKLMNPQRSTUVWXYZabcdefghijkmnopqrstuvwxyz".toList

/-- The digit of a value below fifty-eight. -/
def digit (value : Nat) : Char :=
  alphabet.getD value '1'

/-- The value of a digit. -/
def digitValue? (character : Char) : Option Nat :=
  alphabet.idxOf? character

/-- The number whose digits in a base are given, the most significant first. -/
def numberOf (base : Nat) (digits : List Nat) : Nat :=
  digits.foldl (fun value next => value * base + next) 0

/-- The digits of a number in a base of at least two, the least significant first; zero has none. -/
def digitsFromLow (base value : Nat) : List Nat :=
  if 1 < base ∧ 0 < value then value % base :: digitsFromLow base (value / base) else []
termination_by value
decreasing_by exact Nat.div_lt_self (by omega) (by omega)

/-- The digits of a number in a base, the most significant first. -/
def digitsOf (base value : Nat) : List Nat :=
  (digitsFromLow base value).reverse

/-- How many zeros a row begins with. -/
def leadingZeros (digits : List Nat) : Nat :=
  (digits.takeWhile (· == 0)).length

/-- A row of digits in another base, with as many leading zeros as before. -/
def convert (source target : Nat) (digits : List Nat) : List Nat :=
  List.replicate (leadingZeros digits) 0 ++ digitsOf target (numberOf source digits)

/-- The text of some bytes. -/
def encode (bytes : List UInt8) : List Char :=
  (convert 256 58 (bytes.map UInt8.toNat)).map digit

/-- The values of a row of digits; `none` when a character is no digit. -/
def digitValues? : List Char → Option (List Nat)
  | [] => some []
  | character :: rest => do
    let value ← digitValue? character
    let values ← digitValues? rest
    return value :: values

/-- The bytes of a text; `none` when a character is no digit. -/
def decode? (text : List Char) : Option (List UInt8) :=
  (digitValues? text).map fun values => (convert 58 256 values).map UInt8.ofNat

end CoinLedger.Text.Base58
