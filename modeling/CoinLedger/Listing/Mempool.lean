import CoinLedger.Listing.History

/-!
# The mempool listing

The pending changes of an address stand in the order of their times, those of one time in the order
in which they were met.  Each is listed under the text of its address.
-/

set_option autoImplicit false

namespace CoinLedger

/-- A pending change of an address. -/
structure MempoolEntry where
  address : String
  txid : Txid
  index : UInt32
  amount : Int64
  timestamp : Int64
  /-- The output spent by a change that takes value away. -/
  prevout : Option OutPoint
  deriving DecidableEq, Repr

namespace MempoolEntry

/-- The entry as an object. -/
def toJson (entry : MempoolEntry) : Json :=
  .object ([("address", .string entry.address), ("txid", entry.txid.toJson),
    ("index", .natural entry.index.toNat), ("satoshis", int64ToJson entry.amount),
    ("timestamp", int64ToJson entry.timestamp)] ++
    match entry.prevout with
    | some prevout =>
      [("prevtxid", prevout.txid.toJson), ("prevout", .natural prevout.index.toNat)]
    | none => [])

end MempoolEntry

namespace Source

/-- Pending changes under the text of their address, which depends on the kind they were stored
with. -/
def mempoolEntries (source : Source) (hash : Hash160) :
    List PendingDelta → Answer (List MempoolEntry)
  | [] => .ok []
  | delta :: rest => do
    let address ← source.network.encodeIndexed delta.addressType hash
    let entries ← source.mempoolEntries hash rest
    return {
      address, txid := delta.txid, index := delta.index, amount := delta.amount
      timestamp := delta.timestamp
      prevout := if delta.amount < 0 then delta.prevout else none } :: entries

/-- The pending changes of an address, oldest first. -/
def listMempool (source : Source) (address : String) : Query (List MempoolEntry) := do
  let key ← Query.ofAnswer (source.network.resolve address)
  Query.ofAnswer
    (source.mempoolEntries key.hash (sortByTimestamp (source.ledger.pendingDeltas key)))

end Source

end CoinLedger
