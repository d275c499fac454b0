import CoinLedger.Digest.Ripemd160
import CoinLedger.Digest.Sha256
import CoinLedger.Text.Blank
import CoinLedger.Text.Hex

/-!
# Hashes

Transactions and blocks are named by 32-byte hashes, addresses by 20-byte ones.  A `Hash256` is
ordered by its bytes as they are stored and shown with its bytes reversed, the last one first.
-/

set_option autoImplicit false

namespace CoinLedger

open Text

/-- A 32-byte hash, in the order in which its bytes are stored and compared. -/
structure Hash256 where
  bytes : List UInt8
  length_bytes : bytes.length = 32
  deriving DecidableEq, Repr

/-- The name of a transaction. -/
abbrev Txid := Hash256

namespace Hash256

/-- Hashes are ordered by their bytes, the first one first. -/
instance : Ord Hash256 := ⟨compareOn bytes⟩

/-- The hash as sixty-four lower-case digits, the last byte first. -/
def toHex (hash : Hash256) : String :=
  String.ofList (Hex.encode hash.bytes.reverse)

/-- Reads a hash as it is shown, in either letter case and with blanks around it. -/
def ofHex (text : String) : Except HexError Hash256 :=
  match read : Hex.decodeExactly 32 (trim text.toList) with
  | .ok bytes => .ok ⟨bytes.reverse, by simp [Hex.length_of_decodeExactly read]⟩
  | .error fault => .error fault

/-- The hash all of whose bytes are zero. -/
def zero : Hash256 := ⟨List.replicate 32 0, by simp⟩

instance : Inhabited Hash256 := ⟨zero⟩

end Hash256

/-- A 20-byte hash. -/
structure Hash160 where
  bytes : List UInt8
  length_bytes : bytes.length = 20
  deriving DecidableEq, Repr

namespace Hash160

/-- The hash as forty lower-case digits, the first byte first. -/
def toHex (hash : Hash160) : String :=
  String.ofList (Hex.encode hash.bytes)

/-- Reads a hash as it is shown, in either letter case and with blanks around it. -/
def ofHex (text : String) : Except HexError Hash160 :=
  match read : Hex.decodeExactly 20 (trim text.toList) with
  | .ok bytes => .ok ⟨bytes, Hex.length_of_decodeExactly read⟩
  | .error fault => .error fault

/-- The hash that names a public key or a script: RIPEMD-160 of its SHA-256 digest. -/
def ofData (data : List UInt8) : Hash160 :=
  ⟨Digest.ripemd160 (Digest.sha256 data), Digest.length_ripemd160 _⟩

/-- The hash all of whose bytes are zero. -/
def zero : Hash160 := ⟨List.replicate 20 0, by simp⟩

instance : Inhabited Hash160 := ⟨zero⟩

end Hash160

/-- One output of a transaction, by the transaction's name and its position there. -/
structure OutPoint where
  txid : Txid
  index : UInt32
  deriving DecidableEq, Repr, Inhabited

namespace OutPoint

/-- Outpoints are ordered by transaction, then by position. -/
instance : Ord OutPoint := ⟨compareLex (compareOn txid) (compareOn index)⟩

/-- The name of the transaction, a colon, and the position. -/
def toText (outpoint : OutPoint) : String :=
  outpoint.txid.toHex ++ ":" ++ toString outpoint.index.toNat

end OutPoint

end CoinLedger
