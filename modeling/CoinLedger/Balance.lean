import CoinLedger.Amount
import CoinLedger.Ledger.Codec
import CoinLedger.TimeLock

/-!
# Balances

The balance of an address is the sum of its confirmed changes and of the pending changes that
instant send has made final; the positive ones among these make up what it received.  The other
pending changes are summed apart, for each address and for each transaction.  A batch evaluates
every distinct address once, collects the addresses that do not resolve, and fails when none
resolves.  It is stopped by the first sum that is no amount.
-/

set_option autoImplicit false

namespace CoinLedger

/-- The balance of one address. -/
structure BalanceSnapshot where
  address : String
  balance : Int64 := 0
  /-- The part of `received` that is still locked. -/
  locked : Int64 := 0
  received : Int64 := 0
  /-- The pending changes that are not final. -/
  unconfirmedDelta : Int64 := 0
  deriving DecidableEq, Repr, Inhabited

namespace BalanceSnapshot

/-- What left the address. -/
def sent (snapshot : BalanceSnapshot) : Answer Int64 :=
  Amount.sub snapshot.received snapshot.balance

/-- What can be spent now. -/
def unlocked (snapshot : BalanceSnapshot) : Answer Int64 :=
  Amount.sub snapshot.balance snapshot.locked

/-- Adds a final change, of which `locked` tells whether it is still locked. -/
def addFinal (snapshot : BalanceSnapshot) (amount : Int64) (locked : Bool) :
    Answer BalanceSnapshot := do
  let receipt := if 0 < amount then amount else 0
  return { snapshot with
    locked := ← Amount.add snapshot.locked (if locked then receipt else 0)
    received := ← Amount.add snapshot.received receipt
    balance := ← Amount.add snapshot.balance amount }

/-- Adds a pending change. -/
def addPending (snapshot : BalanceSnapshot) (amount : Int64) (instant : Bool) :
    Answer BalanceSnapshot := do
  if instant then snapshot.addFinal amount false
  else return { snapshot with
    unconfirmedDelta := ← Amount.add snapshot.unconfirmedDelta amount }

/-- The balance as an object. -/
def toJson (snapshot : BalanceSnapshot) : Json :=
  .object [("address", .string snapshot.address), ("balance", int64ToJson snapshot.balance),
    ("locked", int64ToJson snapshot.locked), ("received", int64ToJson snapshot.received),
    ("unconfirmedDelta", int64ToJson snapshot.unconfirmedDelta)]

end BalanceSnapshot

/-! ## Sums by transaction -/

/-- Sums by transaction, in the order of the hashes and without repeated ones. -/
abbrev TxidSums := List (Txid × Int64)

namespace TxidSums

/-- Adds an amount to the sum of a transaction. -/
def add (txid : Txid) (amount : Int64) : TxidSums → Answer TxidSums
  | [] => .ok [(txid, amount)]
  | (other, sum) :: rest =>
    match compare txid other with
    | .lt => .ok ((txid, amount) :: (other, sum) :: rest)
    | .eq => (Amount.add sum amount).map fun sum => (other, sum) :: rest
    | .gt => (add txid amount rest).map ((other, sum) :: ·)

end TxidSums

/-- The balances of a batch of addresses. -/
structure BalanceReport where
  /-- One entry for each address, in the order of first appearance. -/
  snapshots : List BalanceSnapshot := []
  /-- The pending changes that are not final, summed over all addresses. -/
  unconfirmedByTx : TxidSums := []
  /-- The addresses that do not resolve. -/
  failures : List AddressFailure := []
  deriving Inhabited

/-- The entry of an address in a list of errors. -/
def failureToJson (failure : AddressFailure) : Json :=
  .object [("address", .string failure.1), ("code", .string failure.2.code),
    ("message", .string failure.2.message)]

/-- A list of errors as a member of an object, left out when there are none. -/
def failuresMember (failures : List AddressFailure) : List (String × Json) :=
  if failures.isEmpty then [] else [("errors", .array (failures.map failureToJson))]

/-- An error as an object. -/
def QueryError.toJson (error : QueryError) : Json :=
  .object ([("code", .string error.code), ("message", .string error.message)] ++
    failuresMember error.failures)

namespace BalanceReport

/-- The report as an object. -/
def toJson (report : BalanceReport) : Json :=
  .object ([("snapshots", .array (report.snapshots.map BalanceSnapshot.toJson)),
    ("unconfirmedByTx",
      .object (report.unconfirmedByTx.map fun entry => (entry.1.toHex, int64ToJson entry.2)))] ++
    failuresMember report.failures)

end BalanceReport

/-! ## Evaluation -/

namespace Source

/-- Adds confirmed changes one after the other; the lock of a receipt is looked up in its block. -/
def addConfirmed (source : Source) (key : AddressKey) :
    List IndexDelta → BalanceSnapshot → Query BalanceSnapshot
  | [], snapshot => pure snapshot
  | delta :: rest, snapshot => do
    if 0 < delta.amount then
      let locked ← source.checkTimeLockCached delta.height delta.txid key
      source.addConfirmed key rest (← Query.ofAnswer (snapshot.addFinal delta.amount locked))
    else
      source.addConfirmed key rest (← Query.ofAnswer (snapshot.addFinal delta.amount false))

/-- Adds pending changes. -/
def addPending (source : Source) (deltas : List PendingDelta) (snapshot : BalanceSnapshot) :
    Answer BalanceSnapshot :=
  deltas.foldlM
    (fun snapshot delta => snapshot.addPending delta.amount (source.ledger.isInstant delta.txid))
    snapshot

/-- Adds the pending changes that are not final to the sums by transaction. -/
def addUnconfirmed (source : Source) (deltas : List PendingDelta) (sums : TxidSums) :
    Answer TxidSums :=
  (deltas.filter fun delta => !source.ledger.isInstant delta.txid).foldlM
    (fun sums delta => sums.add delta.txid delta.amount) sums

/-- Evaluates one address of a batch. -/
def addAddress (source : Source) (address : String) (key : AddressKey) (report : BalanceReport) :
    Query BalanceReport := do
  let confirmed ← source.addConfirmed key (source.ledger.indexDeltas key) { address }
  let pending := source.ledger.pendingDeltas key
  let snapshot ← Query.ofAnswer (source.addPending pending confirmed)
  return { report with
    snapshots := report.snapshots ++ [snapshot]
    unconfirmedByTx :=
      ← Query.ofAnswer (source.addUnconfirmed pending report.unconfirmedByTx) }

/-- Evaluates the addresses of a batch one after the other. -/
def addAddresses (source : Source) : List String → BalanceReport → Query BalanceReport
  | [], report => pure report
  | address :: rest, report => do
    match source.network.resolve address with
    | .ok key => source.addAddresses rest (← source.addAddress address key report)
    | .error error =>
      if error.isPerAddress then
        Action.report (.addressError error.code)
        source.addAddresses rest { report with failures := report.failures ++ [(address, error)] }
      else throw error

/-- The balances of a batch of addresses, each distinct text evaluated once; `cacheSize` blocks are
kept while the batch runs. -/
def balances (source : Source) (cacheSize : Nat) (addresses : List String) :
    Query BalanceReport := do
  Action.report .balanceQuery
  Query.useCache cacheSize
  let report ← source.addAddresses addresses.eraseDups {}
  if report.snapshots.isEmpty then throw (.addressNotFound report.failures)
  return report

end Source

end CoinLedger
