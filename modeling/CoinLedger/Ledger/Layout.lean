import CoinLedger.Json.Shape
import CoinLedger.Ledger.Snapshot

/-!
# The layout of snapshot texts

Which records stand where in the text of a snapshot.  The fields of a pending change stand beside
its address; such an entry is taken as a whole and told apart afterwards.
-/

set_option autoImplicit false

namespace CoinLedger

open Json

/-- Fields that are no containers. -/
def scalarFields (names : List String) : List (String × Shape) :=
  names.map fun name => (name, .scalar)

/-- An outpoint in a text. -/
def OutPoint.shape : Shape :=
  .record (scalarFields ["txid", "index"])

/-- An entry of the index of unspent outputs in a text. -/
def UnspentOutput.shape : Shape :=
  .record (scalarFields ["txid", "outputIndex", "amountSatoshis", "blockHeight"])

/-- A confirmed change in a text. -/
def IndexDelta.shape : Shape :=
  .record (scalarFields ["txid", "blockHeight", "spending", "amountSatoshis"])

/-- A deposit in a text. -/
def Deposit.shape : Shape :=
  .record (scalarFields ["txid", "blockHeight", "timestamp", "amountSatoshis"])

/-- An output of a transaction in a text. -/
def TxOutput.shape : Shape :=
  .record (scalarFields ["value", "scriptPubkey"])

/-- A transaction in a text. -/
def Transaction.shape : Shape :=
  .record [("txid", .scalar), ("outputs", .list TxOutput.shape)]

/-- A block in a text. -/
def Block.shape : Shape :=
  .record (scalarFields ["height", "hash", "time"] ++ [("transactions", .list Transaction.shape)])

/-- The records of an address in a text. -/
def AddressEntry.shape : Shape :=
  .record [("address", .scalar), ("deltas", .list IndexDelta.shape),
    ("unspent", .list UnspentOutput.shape), ("deposits", .list Deposit.shape)]

/-- What the mempool holds, in a text. -/
def MempoolSnapshot.shape : Shape :=
  .record [("deltas", .list .whole), ("spent", .list OutPoint.shape), ("instant", .list .scalar)]

/-- A snapshot in a text. -/
def LedgerSnapshot.shape : Shape :=
  .record [("tipHeight", .scalar), ("medianTimePast", .scalar), ("blocks", .list Block.shape),
    ("addresses", .list AddressEntry.shape), ("mempool", MempoolSnapshot.shape)]

end CoinLedger
