import CoinLedger.Text.Quoted
import CoinLedger.Text.Utf8

/-!
# Hexadecimal text

Bytes are written as two lower-case digits each.  Reading accepts either letter case, works on the
UTF-8 bytes of the text and reports the first fault: an odd number of digits before a wrong length,
a wrong length before a wrong character.
-/

set_option autoImplicit false

namespace CoinLedger.Text

/-- Why a text is not the hexadecimal form of the bytes asked for. -/
inductive HexError where
  | oddLength
  | wrongLength
  | badDigit (byte : UInt8) (position : Nat)
  deriving DecidableEq, Repr

/-- The wording of a hexadecimal fault; a byte is shown as the character of that code. -/
def HexError.message : HexError → String
  | .oddLength => "Odd number of digits"
  | .wrongLength => "Invalid string length"
  | .badDigit byte position =>
    "Invalid character " ++ quotedChar (Char.ofNat byte.toNat) ++ " at position " ++
      toString position

namespace Hex

/-- The lower-case digit of a number below sixteen. -/
def digit (nibble : Nat) : Char :=
  Nat.digitChar nibble

/-- Two digits per byte, the high one first. -/
def encode : List UInt8 → List Char
  | [] => []
  | byte :: rest => digit (byte.toNat / 16) :: digit (byte.toNat % 16) :: encode rest

/-- The value of a digit given by its ASCII code, in either letter case. -/
def digitValue? (code : UInt8) : Option Nat :=
  let value := code.toNat
  if 0x30 ≤ value ∧ value ≤ 0x39 then some (value - 0x30)
  else if 0x61 ≤ value ∧ value ≤ 0x66 then some (value - 0x61 + 10)
  else if 0x41 ≤ value ∧ value ≤ 0x46 then some (value - 0x41 + 10)
  else none

/-- The value of the digit at a position, or the fault there. -/
def digitAt (position : Nat) (code : UInt8) : Except HexError Nat :=
  match digitValue? code with
  | some value => .ok value
  | none => .error (.badDigit code position)

/-- Reads pairs of digits; the first code stands at `position`. -/
def decodePairs (position : Nat) : List UInt8 → Except HexError (List UInt8)
  | [] => .ok []
  | [_] => .error .oddLength
  | high :: low :: rest => do
    let highValue ← digitAt position high
    let lowValue ← digitAt (position + 1) low
    let bytes ← decodePairs (position + 2) rest
    return UInt8.ofNat (16 * highValue + lowValue) :: bytes

/-- Reads bytes of any number. -/
def decode (text : List Char) : Except HexError (List UInt8) :=
  let codes := utf8 text
  if codes.length % 2 ≠ 0 then .error .oddLength else decodePairs 0 codes

/-- Reads exactly `size` bytes. -/
def decodeExactly (size : Nat) (text : List Char) : Except HexError (List UInt8) :=
  let codes := utf8 text
  if codes.length % 2 ≠ 0 then .error .oddLength
  else if codes.length / 2 ≠ size then .error .wrongLength
  else decodePairs 0 codes

/-- Two digits make a byte. -/
theorem length_decodePairs {position : Nat} {codes bytes : List UInt8}
    (read : decodePairs position codes = .ok bytes) : 2 * bytes.length = codes.length := by
  fun_induction decodePairs position codes generalizing bytes with
  | case1 => cases read; rfl
  | case2 => cases read
  | case3 position high low rest ih =>
    cases highRead : digitAt position high with
    | error fault => simp [highRead, bind, Except.bind] at read
    | ok highValue =>
      cases lowRead : digitAt (position + 1) low with
      | error fault => simp [highRead, lowRead, bind, Except.bind] at read
      | ok lowValue =>
        cases restRead : decodePairs (position + 2) rest with
        | error fault => simp [highRead, lowRead, restRead, bind, Except.bind] at read
        | ok tail =>
          simp [highRead, lowRead, restRead, bind, Except.bind, pure, Except.pure] at read
          subst read
          simp only [List.length_cons]
          have := ih restRead
          omega

/-- What is decoded has the size asked for. -/
theorem length_of_decodeExactly {size : Nat} {text : List Char} {bytes : List UInt8}
    (read : decodeExactly size text = .ok bytes) : bytes.length = size := by
  simp only [decodeExactly] at read
  split at read
  · cases read
  · split at read
    · cases read
    · have := length_decodePairs read
      omega

end Hex

end CoinLedger.Text
