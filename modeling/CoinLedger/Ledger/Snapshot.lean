import CoinLedger.Ledger.Record

/-!
# Ledger snapshots

A snapshot is a ledger as it is written down: blocks, the records of each address under the text of
the address, and what the mempool holds.
-/

set_option autoImplicit false

namespace CoinLedger

/-- The records of an address. -/
structure AddressEntry where
  address : String
  deltas : List IndexDelta
  unspent : List UnspentOutput
  deposits : List Deposit
  deriving DecidableEq, Repr, Inhabited

/-- A pending change under the text of its address. -/
structure PendingEntry where
  address : String
  delta : PendingDelta
  deriving DecidableEq, Repr, Inhabited

/-- What the mempool holds. -/
structure MempoolSnapshot where
  deltas : List PendingEntry := []
  /-- The outputs that pending transactions spend. -/
  spent : List OutPoint := []
  /-- The transactions that instant send has made final. -/
  instant : List Txid := []
  deriving DecidableEq, Repr, Inhabited

/-- A ledger as it is written down. -/
structure LedgerSnapshot where
  tipHeight : Int32
  /-- The median time past of the tip. -/
  medianTimePast : Option Int64 := none
  blocks : List Block := []
  addresses : List AddressEntry := []
  mempool : MempoolSnapshot := {}
  deriving DecidableEq, Repr, Inhabited

end CoinLedger
