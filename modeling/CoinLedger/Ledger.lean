import CoinLedger.Address.Text
import CoinLedger.Ledger.Snapshot

/-!
# Ledgers

A ledger answers questions about one state of the chain: the confirmed changes, unspent outputs and
deposits of an address, the pending changes, and the blocks.  It is loaded from a snapshot, whose
entries are gathered under the key that their address resolves to and sorted into the order of each
index.
-/

set_option autoImplicit false

namespace CoinLedger

/-- The confirmed records of one key. -/
structure AddressRecords where
  deltas : List IndexDelta := []
  /-- In the order of `UnspentOutput.ledgerOrder`. -/
  unspent : List UnspentOutput := []
  /-- In the order of `Deposit.ledgerOrder`. -/
  deposits : List Deposit := []
  deriving DecidableEq, Repr, Inhabited

/-- One state of a chain with its indexes and its mempool. -/
structure Ledger where
  tipHeight : Int32
  medianTimePast : Option Int64 := none
  blocks : List Block := []
  addresses : List (AddressKey × AddressRecords) := []
  pending : List (AddressKey × PendingDelta) := []
  /-- The outputs that pending transactions spend. -/
  spent : List OutPoint := []
  /-- The transactions that instant send has made final. -/
  instant : List Txid := []
  deriving Repr, Inhabited

/-- The deposits in a range of times: how many, and the times of the first and the last one. -/
structure DepositSpan where
  count : Nat := 0
  firstTimestamp : Int64 := 0
  lastTimestamp : Int64 := 0
  deriving DecidableEq, Repr

namespace Ledger

/-! ## Loading -/

/-- Pairs each item with the key of its address; fails at the first address without one. -/
def resolveEach {α : Type} (network : Network) (address : α → String) :
    List α → Answer (List (AddressKey × α))
  | [] => .ok []
  | item :: rest =>
    match network.resolve (address item) with
    | .error error => .error error
    | .ok key => (resolveEach network address rest).map ((key, item) :: ·)

/-- The records of a key, gathered from all entries of the key in their order and sorted. -/
def gather (entries : List (AddressKey × AddressEntry)) (key : AddressKey) : AddressRecords :=
  let own := (entries.filter (·.1 = key)).map (·.2)
  { deltas := own.flatMap (·.deltas)
    unspent := (own.flatMap (·.unspent)).mergeSort fun a b => (UnspentOutput.ledgerOrder a b).isLE
    deposits := (own.flatMap (·.deposits)).mergeSort fun a b => (Deposit.ledgerOrder a b).isLE }

/-- The ledger that a snapshot describes; fails at the first address that does not resolve, those of
the confirmed records before those of the mempool. -/
def ofSnapshot (network : Network) (snapshot : LedgerSnapshot) : Answer Ledger :=
  match resolveEach network (·.address) snapshot.addresses with
  | .error error => .error error
  | .ok entries =>
    match resolveEach network (·.address) snapshot.mempool.deltas with
    | .error error => .error error
    | .ok pending =>
      .ok {
        tipHeight := snapshot.tipHeight
        medianTimePast := snapshot.medianTimePast
        blocks := snapshot.blocks
        addresses := (entries.map (·.1)).eraseDups.map fun key => (key, gather entries key)
        pending := pending.map fun entry => (entry.1, entry.2.delta)
        spent := snapshot.mempool.spent
        instant := snapshot.mempool.instant }

/-! ## The confirmed indexes -/

/-- The records of a key, empty for a key without any. -/
def records (ledger : Ledger) (key : AddressKey) : AddressRecords :=
  (ledger.addresses.lookup key).getD {}

/-- The confirmed changes of a key in ledger order. -/
def indexDeltas (ledger : Ledger) (key : AddressKey) : List IndexDelta :=
  (ledger.records key).deltas

/-- The unspent outputs of a key in ledger order. -/
def unspent (ledger : Ledger) (key : AddressKey) : List UnspentOutput :=
  (ledger.records key).unspent

/-- How many unspent outputs a key has. -/
def unspentCount (ledger : Ledger) (key : AddressKey) : Nat :=
  (ledger.unspent key).length

/-- The newest unspent output of a key, where a listing from the newest one starts. -/
def newestUnspent (ledger : Ledger) (key : AddressKey) : Option OutPoint :=
  (ledger.unspent key).getLast?.map (·.outpoint)

/-- The unspent outputs at `limit` positions from `offset` on, oldest first. -/
def unspentSlice (ledger : Ledger) (key : AddressKey) (offset limit : Nat) : List UnspentOutput :=
  ((ledger.unspent key).drop offset).take limit

/-- The outputs up to and including the first one at a cursor; all of them when none is there. -/
def upToCursor (cursor : Option OutPoint) (outputs : List UnspentOutput) : List UnspentOutput :=
  match cursor with
  | none => outputs
  | some last =>
    match outputs.findIdx? (·.outpoint = last) with
    | some position => outputs.take (position + 1)
    | none => outputs

/-- The unspent outputs at `limit` positions from `offset` on, counted backwards from a cursor. -/
def unspentSliceBack (ledger : Ledger) (key : AddressKey) (cursor : Option OutPoint)
    (offset limit : Nat) : List UnspentOutput :=
  ((upToCursor cursor (ledger.unspent key)).reverse.drop offset).take limit

/-- The deposits of a key in ledger order. -/
def deposits (ledger : Ledger) (key : AddressKey) : List Deposit :=
  (ledger.records key).deposits

/-- The deposits of a key from one time up to but not including another. -/
def depositsWithin (ledger : Ledger) (key : AddressKey) (first stop : Int64) : List Deposit :=
  (ledger.deposits key).filter fun deposit => first ≤ deposit.timestamp && deposit.timestamp < stop

/-- The span of the deposits of a key from one time up to but not including another. -/
def depositSpan (ledger : Ledger) (key : AddressKey) (first stop : Int64) : DepositSpan :=
  let within := ledger.depositsWithin key first stop
  match within.head?, within.getLast? with
  | some oldest, some newest => ⟨within.length, oldest.timestamp, newest.timestamp⟩
  | _, _ => {}

/-- The deposits at `limit` positions from `offset` on, from the first one at the anchor time on. -/
def depositSlice (ledger : Ledger) (key : AddressKey) (anchor : Int64) (offset limit : Nat) :
    List Deposit :=
  (((ledger.deposits key).dropWhile (·.timestamp < anchor)).drop offset).take limit

/-- The deposits at `limit` positions from `offset` on, counted backwards from the last one at the
anchor time. -/
def depositSliceBack (ledger : Ledger) (key : AddressKey) (anchor : Int64) (offset limit : Nat) :
    List Deposit :=
  (((ledger.deposits key).takeWhile (·.timestamp ≤ anchor)).reverse.drop offset).take limit

/-! ## The mempool -/

/-- The pending changes of a key in the order in which they were written down. -/
def pendingDeltas (ledger : Ledger) (key : AddressKey) : List PendingDelta :=
  (ledger.pending.filter (·.1 = key)).map (·.2)

/-- Whether a pending transaction spends an output. -/
def isSpent (ledger : Ledger) (outpoint : OutPoint) : Bool :=
  ledger.spent.contains outpoint

/-- Whether instant send has made a transaction final. -/
def isInstant (ledger : Ledger) (txid : Txid) : Bool :=
  ledger.instant.contains txid

/-! ## The chain -/

/-- The block of a height; of several blocks with that height the last one. -/
def readBlock (ledger : Ledger) (height : Int32) : Answer Block :=
  match ledger.blocks.reverse.find? (·.height = height) with
  | some block => .ok block
  | none => .error (.blockNotFound height)

/-- How many blocks confirm what a block at the given height holds. -/
def confirmations (ledger : Ledger) (height : Int32) : Answer Int32 :=
  confirmationsAt ledger.tipHeight height

end Ledger

end CoinLedger
