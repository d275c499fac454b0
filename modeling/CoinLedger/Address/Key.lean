import CoinLedger.Hash

/-!
# Address keys

The indexes of a ledger know an address by its key: a hash and whether it is the hash of a public
key or of a script.
-/

set_option autoImplicit false

namespace CoinLedger

/-- What the hash of an address is taken of. -/
inductive AddressKind where
  | pubKeyHash
  | scriptHash
  deriving DecidableEq, Repr, Inhabited

namespace AddressKind

/-- The number of a kind in the indexes. -/
def indexType : AddressKind → UInt8
  | .pubKeyHash => 1
  | .scriptHash => 2

/-- The kind that a number in the indexes stands for. -/
def ofIndexType? (code : UInt8) : Option AddressKind :=
  if code = 1 then some .pubKeyHash else if code = 2 then some .scriptHash else none

/-- The name of a kind in a report. -/
def title : AddressKind → String
  | .pubKeyHash => "PubKeyHash"
  | .scriptHash => "ScriptHash"

end AddressKind

/-- The key of an address in the indexes. -/
structure AddressKey where
  hash : Hash160
  kind : AddressKind
  deriving DecidableEq, Repr, Inhabited

end CoinLedger
