/-!
# Script numbers

A script pushes a number as its magnitude in bytes, the lowest first, with the sign in the top bit
of the last byte.  When the magnitude already uses that bit, a byte for the sign alone follows.
-/

set_option autoImplicit false

namespace CoinLedger.Script.Number

/-- The bytes of a magnitude, the lowest first; zero has none. -/
def magnitudeBytes (value : Nat) : List UInt8 :=
  if 0 < value then UInt8.ofNat (value % 256) :: magnitudeBytes (value / 256) else []
termination_by value
decreasing_by omega

/-- Puts the sign into the last byte, or behind it when its top bit is taken. -/
def withSign (negative : Bool) : List UInt8 → List UInt8
  | [] => []
  | [last] =>
    if 0x80 ≤ last then [last, if negative then 0x80 else 0x00]
    else [if negative then last ||| 0x80 else last]
  | byte :: next :: rest => byte :: withSign negative (next :: rest)

/-- The bytes that a script pushes for a number. -/
def encode (value : Int64) : List UInt8 :=
  withSign (value < 0) (magnitudeBytes value.toInt.natAbs)

/-- The number whose bytes are given, the lowest first. -/
def littleEndian : List UInt8 → Nat
  | [] => 0
  | byte :: rest => byte.toNat + 256 * littleEndian rest

/-- The number spelled by one to eight bytes. -/
def decode? (bytes : List UInt8) : Option Int64 :=
  match bytes.getLast? with
  | none => none
  | some last =>
    if 8 < bytes.length then none
    else if 0x80 ≤ last then
      let magnitude := littleEndian bytes - 0x80 <<< (8 * (bytes.length - 1))
      some (Int64.ofInt (-(magnitude : Int)))
    else some (Int64.ofNat (littleEndian bytes))

end CoinLedger.Script.Number
