import CoinLedger.Address.Key
import CoinLedger.Script.Number

/-!
# Output scripts

An output script says who may spend the output.  Three standard forms name a destination: payment to
the hash of a public key, to the hash of a script, and to a public key itself.  A lock may stand in
front: a pushed lock value and the two operations that check and drop it.
-/

set_option autoImplicit false

namespace CoinLedger.Script

/-! ## Operations -/

/-- Pushes the empty number. -/
def opZero : UInt8 := 0x00

/-- Pushes the number one; the next fifteen operations push two to sixteen. -/
def opOne : UInt8 := 0x51

/-- Pushes the number sixteen. -/
def opSixteen : UInt8 := 0x60

/-- Drops what was pushed last. -/
def opDrop : UInt8 := 0x75

/-- Pushes again what was pushed last. -/
def opDup : UInt8 := 0x76

/-- Compares the last two pushes. -/
def opEqual : UInt8 := 0x87

/-- Ends the script unless the last two pushes are equal. -/
def opEqualVerify : UInt8 := 0x88

/-- Replaces what was pushed last by its hash. -/
def opHash160 : UInt8 := 0xa9

/-- Checks a signature against a public key. -/
def opCheckSig : UInt8 := 0xac

/-- Ends the script while the lock pushed last lies ahead. -/
def opCheckLockTimeVerify : UInt8 := 0xb1

/-- The greatest number of bytes of a pushed lock value. -/
def maxLockBytes : Nat := 5

/-! ## Lock values -/

/-- The number that the first operation pushes as a lock value, and the script after it. -/
def readLockValue : List UInt8 → Option (Int64 × List UInt8)
  | [] => none
  | first :: rest =>
    if first = opZero then some (0, rest)
    else if opOne ≤ first ∧ first ≤ opSixteen then
      some (Int64.ofNat (first.toNat - opOne.toNat + 1), rest)
    else if first.toNat ≤ maxLockBytes then
      if rest.length < first.toNat then none
      else
        (Number.decode? (rest.take first.toNat)).map fun value => (value, rest.drop first.toNat)
    else none

/-- The lock that a pushed number stands for; none when it is negative or too large. -/
def lockOfValue (value : Int64) : UInt32 :=
  if 0 ≤ value.toInt ∧ value.toInt ≤ 0xffffffff then UInt32.ofNat value.toInt.toNat else 0

/-- The lock in front of a script and the script after it; lock zero and the whole script when no
lock stands in front. -/
def splitLock (script : List UInt8) : UInt32 × List UInt8 :=
  match readLockValue script with
  | some (value, check :: drop :: rest) =>
    if check = opCheckLockTimeVerify ∧ drop = opDrop then (lockOfValue value, rest) else (0, script)
  | _ => (0, script)

/-- The lock in front of an output script, zero without one. -/
def lockTime (script : List UInt8) : UInt32 :=
  (splitLock script).1

/-- The bytes that push a lock value. -/
def pushLock (lock : UInt32) : List UInt8 :=
  if lock = 0 then [opZero]
  else if lock ≤ 16 then [opOne + lock.toUInt8 - 1]
  else
    let number := Number.encode (Int64.ofNat lock.toNat)
    UInt8.ofNat number.length :: number

/-- The script of a lock, to be put in front of another script. -/
def lockScript (lock : UInt32) : List UInt8 :=
  pushLock lock ++ [opCheckLockTimeVerify, opDrop]

/-! ## Destinations -/

/-- The bytes in front of the hash of a public key. -/
def pubKeyHashHead : List UInt8 := [opDup, opHash160, 20]

/-- The bytes after the hash of a public key. -/
def pubKeyHashTail : List UInt8 := [opEqualVerify, opCheckSig]

/-- The bytes in front of the hash of a script. -/
def scriptHashHead : List UInt8 := [opHash160, 20]

/-- The bytes after the hash of a script. -/
def scriptHashTail : List UInt8 := [opEqual]

/-- The bytes between a head and a tail; `none` when the script has other ends. -/
def between? (head tail script : List UInt8) : Option (List UInt8) :=
  let middle := (script.drop head.length).take (script.length - head.length - tail.length)
  if head ++ middle ++ tail = script then some middle else none

/-- Twenty bytes between a head and a tail. -/
def hashBetween? (head tail script : List UInt8) : Option Hash160 :=
  (between? head tail script).bind fun middle =>
    if sized : middle.length = 20 then some ⟨middle, sized⟩ else none

/-- A public key of the given length that the script checks a signature against. -/
def pubKey? (length : Nat) (script : List UInt8) : Option (List UInt8) :=
  (between? [UInt8.ofNat length] [opCheckSig] script).bind fun key =>
    if key.length = length then some key else none

/-- The destination of a script without a lock in front. -/
def plainDestination (script : List UInt8) : Option AddressKey :=
  match hashBetween? pubKeyHashHead pubKeyHashTail script with
  | some hash => some ⟨hash, .pubKeyHash⟩
  | none =>
    match hashBetween? scriptHashHead scriptHashTail script with
    | some hash => some ⟨hash, .scriptHash⟩
    | none =>
      match pubKey? 33 script <|> pubKey? 65 script with
      | some key => some ⟨Hash160.ofData key, .pubKeyHash⟩
      | none => none

/-- The destination of an output script, whatever lock stands in front. -/
def destination (script : List UInt8) : Option AddressKey :=
  plainDestination (splitLock script).2

/-- The standard script that pays to a key. -/
def payTo (key : AddressKey) : List UInt8 :=
  match key.kind with
  | .pubKeyHash => pubKeyHashHead ++ key.hash.bytes ++ pubKeyHashTail
  | .scriptHash => scriptHashHead ++ key.hash.bytes ++ scriptHashTail

end CoinLedger.Script
