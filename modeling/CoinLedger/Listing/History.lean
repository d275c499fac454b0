import CoinLedger.Amount
import CoinLedger.Ledger.Codec
import CoinLedger.Listing.Page
import CoinLedger.Session

/-!
# Transaction history

The history of an address is a sequence of distinct transactions.  The changes of one transaction
are summed into one entry, which stands where the transaction was met first.  Pending transactions
that are not confirmed stand at the newest end.  A page shows a window of the entries that have the
direction asked for.  A sum that is no amount stops the query, whatever page is asked for.
-/

set_option autoImplicit false

namespace CoinLedger

/-! ## Directions -/

/-- Which way the value of a transaction went, or either way. -/
inductive Direction where
  | any
  | received
  | sent
  deriving DecidableEq, Repr, Inhabited

namespace Direction

/-- The direction of a net amount. -/
def ofAmount (amount : Int64) : Direction :=
  if 0 < amount then .received else .sent

/-- Whether a filter admits a direction. -/
def admits (filter direction : Direction) : Bool :=
  filter = .any || filter = direction

/-- The name of a direction. -/
def name : Direction → String
  | .any => "Any"
  | .received => "Received"
  | .sent => "Sent"

/-- The direction of a name as it is written in records. -/
def ofName? (text : String) : Option Direction :=
  if text = name .any then some .any
  else if text = name .received then some .received
  else if text = name .sent then some .sent
  else none

/-- Reads the name of a direction in any mixture of ASCII letter cases. -/
def parse (text : String) : Answer Direction :=
  let lower := text.toList.map Char.toLower
  if lower = "any".toList then .ok .any
  else if lower = "received".toList then .ok .received
  else if lower = "sent".toList then .ok .sent
  else .error (.invalidParameter ("unknown direction: " ++ text))

/-- The name of the direction as text. -/
def toJson (direction : Direction) : Json :=
  .string direction.name

/-- Reads a direction from its name. -/
def ofJson : Json → Decoded Direction :=
  readName ofName?

end Direction

/-! ## Entries -/

/-- Which page of the history is asked for. -/
structure HistoryQuery where
  page : Nat := 1
  pageSize : Nat := 10
  /-- Oldest first rather than newest first. -/
  ascending : Bool := false
  direction : Direction := .any
  deriving DecidableEq, Repr

/-- A transaction in the history of an address. -/
structure HistoryEntry where
  txid : Txid
  height : Int32
  /-- The net change of the value of the address. -/
  amount : Int64
  direction : Direction
  /-- The time of the block, or the time at which a pending transaction was met. -/
  time : Option Int64
  deriving DecidableEq, Repr

/-- A page of the history. -/
structure HistoryPage where
  totalCount : Nat
  pageCount : Nat
  page : Nat
  entries : List HistoryEntry
  deriving DecidableEq, Repr

namespace HistoryEntry

/-- The entry as an object. -/
def toJson (entry : HistoryEntry) : Json :=
  .object ([("txid", entry.txid.toJson), ("blockHeight", int32ToJson entry.height),
    ("amount", int64ToJson entry.amount), ("direction", entry.direction.toJson)] ++
    match entry.time with
    | some time => [("time", int64ToJson time)]
    | none => [])

end HistoryEntry

namespace HistoryPage

/-- The page as an object. -/
def toJson (page : HistoryPage) : Json :=
  .object [("totalCount", .natural page.totalCount), ("pageCount", .natural page.pageCount),
    ("page", .natural page.page), ("entries", .array (page.entries.map HistoryEntry.toJson))]

end HistoryPage

namespace HistoryEntry

/-- Adds a change of a transaction to its entry, or a new entry behind the others. -/
def addChange (txid : Txid) (height : Int32) (amount : Int64) (time : Option Int64) :
    List HistoryEntry → Answer (List HistoryEntry)
  | [] => .ok [{ txid, height, amount, direction := .any, time }]
  | entry :: rest =>
    if entry.txid = txid then
      (Amount.add entry.amount amount).map fun amount => { entry with amount } :: rest
    else (addChange txid height amount time rest).map (entry :: ·)

/-- The entry with the direction of its net amount. -/
def directed (entry : HistoryEntry) : HistoryEntry :=
  { entry with direction := .ofAmount entry.amount }

/-- One entry for each transaction among confirmed changes, in the order of first sighting. -/
def ofConfirmed (deltas : List IndexDelta) : Answer (List HistoryEntry) := do
  let entries ← deltas.foldlM
    (fun entries delta => addChange delta.txid delta.height delta.amount none entries) []
  return entries.map directed

/-- One entry for each transaction among pending changes, in the order of first sighting. -/
def ofPending (deltas : List PendingDelta) : Answer (List HistoryEntry) := do
  let entries ← deltas.foldlM
    (fun entries delta =>
      addChange delta.txid mempoolHeight delta.amount (some delta.timestamp) entries) []
  return entries.map directed

end HistoryEntry

/-! ## Listing -/

/-- The greatest size of a page of the history. -/
def maxHistoryPageSize : Nat := 100

/-- Pending changes by the time at which they entered the mempool. -/
def sortByTimestamp (deltas : List PendingDelta) : List PendingDelta :=
  deltas.mergeSort fun a b => a.timestamp ≤ b.timestamp

namespace Source

/-- The confirmed transactions of a key, in or against ledger order. -/
def confirmedHistory (source : Source) (key : AddressKey) (ascending : Bool) :
    Answer (List HistoryEntry) :=
  let deltas := source.ledger.indexDeltas key
  HistoryEntry.ofConfirmed (if ascending then deltas else deltas.reverse)

/-- The pending transactions of a key without those that are confirmed as well, oldest first. -/
def pendingHistory (source : Source) (key : AddressKey) : Answer (List HistoryEntry) :=
  let confirmed := source.ledger.indexDeltas key
  HistoryEntry.ofPending <|
    (sortByTimestamp (source.ledger.pendingDeltas key)).filter fun delta =>
      !confirmed.any (·.txid = delta.txid)

/-- The history of a key in the order asked for, pending transactions at the newest end. -/
def history (source : Source) (key : AddressKey) (ascending : Bool) (direction : Direction) :
    Answer (List HistoryEntry) := do
  let confirmed ← source.confirmedHistory key ascending
  let pending ← source.pendingHistory key
  let entries := if ascending then confirmed ++ pending else pending.reverse ++ confirmed
  return entries.filter fun entry => direction.admits entry.direction

/-- Looks up the block times of confirmed entries. -/
def addBlockTimes (source : Source) : List HistoryEntry → Query (List HistoryEntry)
  | [] => pure []
  | entry :: rest => do
    if isConfirmedHeight entry.height then
      let block ← source.readBlock entry.height
      return { entry with time := some block.time } :: (← source.addBlockTimes rest)
    else
      return entry :: (← source.addBlockTimes rest)

/-- A page of the history of an address.  An empty history has one empty page. -/
def listTransactions (source : Source) (address : String) (query : HistoryQuery) :
    Query HistoryPage := do
  Query.ofAnswer (checkPageSize query.pageSize maxHistoryPageSize)
  if query.page = 0 then throw pageNumberTooSmall
  let key ← Query.ofAnswer (source.network.resolve address)
  let entries ← Query.ofAnswer (source.history key query.ascending query.direction)
  let pages := max (pageCount entries.length query.pageSize) 1
  Query.ofAnswer (checkPageNumber query.page pages)
  let window := pageWindow entries.length query.page query.pageSize
  return {
    totalCount := entries.length, pageCount := pages, page := query.page
    entries := ← source.addBlockTimes (window.select entries) }

end Source

end CoinLedger
