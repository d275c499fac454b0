import CoinLedger.Address.Key
import CoinLedger.QueryError
import CoinLedger.Script

/-!
# Records of a ledger

The entries of the indexes of confirmed and pending changes, and the blocks with their transactions.
Amounts, times and heights have the widths in which a ledger stores them.
-/

set_option autoImplicit false

namespace CoinLedger

/-- An entry of the index of unspent outputs. -/
structure UnspentOutput where
  txid : Txid
  outputIndex : UInt32
  amount : Int64
  height : Int32
  deriving DecidableEq, Repr, Inhabited

namespace UnspentOutput

/-- The output that the entry is about. -/
def outpoint (entry : UnspentOutput) : OutPoint :=
  ⟨entry.txid, entry.outputIndex⟩

/-- The order of the index: by height, then by transaction, then by position in it. -/
def ledgerOrder : UnspentOutput → UnspentOutput → Ordering :=
  compareLex (compareOn height) (compareLex (compareOn txid) (compareOn outputIndex))

end UnspentOutput

/-- A confirmed change of the value of an address. -/
structure IndexDelta where
  txid : Txid
  height : Int32
  /-- Whether the change comes from an input rather than from an output. -/
  spending : Bool
  amount : Int64
  deriving DecidableEq, Repr, Inhabited

/-- A change of the value of an address by a transaction that waits in the mempool. -/
structure PendingDelta where
  txid : Txid
  /-- The position of the output or the input. -/
  index : UInt32
  addressType : UInt8
  amount : Int64
  /-- When the transaction entered the mempool. -/
  timestamp : Int64
  /-- The output that an input spends. -/
  prevout : Option OutPoint
  deriving DecidableEq, Repr, Inhabited

/-- A confirmed receipt of an address with the time of its block. -/
structure Deposit where
  txid : Txid
  height : Int32
  timestamp : Int64
  amount : Int64
  deriving DecidableEq, Repr, Inhabited

namespace Deposit

/-- The order of the index: by time, then by transaction. -/
def ledgerOrder : Deposit → Deposit → Ordering :=
  compareLex (compareOn timestamp) (compareOn txid)

end Deposit

/-- An output of a transaction. -/
structure TxOutput where
  value : Int64
  script : List UInt8
  deriving DecidableEq, Repr, Inhabited

namespace TxOutput

/-- The lock of the output, zero without one. -/
def lockTime (output : TxOutput) : UInt32 :=
  Script.lockTime output.script

/-- The key that the output pays to. -/
def destination (output : TxOutput) : Option AddressKey :=
  Script.destination output.script

end TxOutput

/-- A transaction with its outputs. -/
structure Transaction where
  txid : Txid
  outputs : List TxOutput
  deriving DecidableEq, Repr, Inhabited

/-- A block. -/
structure Block where
  height : Int32
  hash : Hash256
  time : Int64
  transactions : List Transaction
  deriving DecidableEq, Repr, Inhabited

namespace Block

/-- The first transaction of the given name. -/
def findTransaction (block : Block) (txid : Txid) : Option Transaction :=
  block.transactions.find? (·.txid = txid)

end Block

/-! ## Heights -/

/-- The height that stands for the mempool. -/
def mempoolHeight : Int32 := -1

/-- Whether a height is that of a block. -/
def isConfirmedHeight (height : Int32) : Bool :=
  0 ≤ height

/-- How many blocks up to the tip confirm what a block at the given height holds.  The count is one
of 32 signed bits; the block at height zero below the greatest tip has one confirmation too many. -/
def confirmationsAt (tip height : Int32) : Answer Int32 :=
  if !isConfirmedHeight height || tip < height then .ok 0
  else
    let count := tip.toInt - height.toInt + 1
    if count ≤ Int32.maxValue.toInt then .ok (Int32.ofInt count) else .error .stopped

end CoinLedger
