import CoinLedger.Ledger.Codec
import CoinLedger.Listing.Page
import CoinLedger.TimeLock

/-!
# Unspent outputs

A page of the unspent outputs of an address, oldest or newest first.  Every output is marked with
whether a pending transaction spends it and whether its lock has expired.
-/

set_option autoImplicit false

namespace CoinLedger

/-- Which page of the unspent outputs is asked for. -/
structure UnspentQuery where
  page : Nat := 1
  pageSize : Nat := 100
  /-- Oldest first rather than newest first. -/
  ascending : Bool := false
  deriving DecidableEq, Repr

/-- An unspent output as it is listed. -/
structure UnspentEntry where
  txid : Txid
  index : UInt32
  value : Int64
  height : Int32
  inMempool : Bool
  spendable : Bool
  deriving DecidableEq, Repr

/-- A page of unspent outputs. -/
structure UnspentPage where
  count : Nat
  pages : Nat
  page : Nat
  blockHeight : Int32
  address : String
  script : List UInt8
  entries : List UnspentEntry
  deriving DecidableEq, Repr

namespace UnspentEntry

/-- The entry as an object. -/
def toJson (entry : UnspentEntry) : Json :=
  .object [("txid", entry.txid.toJson), ("index", .natural entry.index.toNat),
    ("value", int64ToJson entry.value), ("height", int32ToJson entry.height),
    ("inMempool", .bool entry.inMempool), ("spendable", .bool entry.spendable)]

end UnspentEntry

namespace UnspentPage

/-- The page as an object. -/
def toJson (page : UnspentPage) : Json :=
  .object [("count", .natural page.count), ("pages", .natural page.pages),
    ("page", .natural page.page), ("blockHeight", int32ToJson page.blockHeight),
    ("address", .string page.address), ("script", bytesToJson page.script),
    ("utxos", .array (page.entries.map UnspentEntry.toJson))]

end UnspentPage

/-- The greatest size of a page of unspent outputs. -/
def maxUnspentPageSize : Nat := 1000

/-- How many blocks a listing of unspent outputs keeps. -/
def unspentCacheSize : Nat := 256

namespace Source

/-- Marks unspent outputs one after the other. -/
def markUnspent (source : Source) (key : AddressKey) :
    List UnspentOutput → Query (List UnspentEntry)
  | [] => pure []
  | output :: rest => do
    let locked ← source.checkTimeLockCached output.height output.txid key
    let entry : UnspentEntry := {
      txid := output.txid, index := output.outputIndex, value := output.amount
      height := output.height, inMempool := source.ledger.isSpent output.outpoint
      spendable := !locked }
    return entry :: (← source.markUnspent key rest)

/-- The unspent outputs of a key at the positions of a window, in the order asked for. -/
def unspentWindow (source : Source) (key : AddressKey) (window : Window) (ascending : Bool) :
    List UnspentOutput :=
  if ascending then source.ledger.unspentSlice key window.start window.size
  else
    source.ledger.unspentSliceBack key (source.ledger.newestUnspent key) window.start window.size

/-- A page of the unspent outputs of an address. -/
def listUnspent (source : Source) (address : String) (query : UnspentQuery) :
    Query UnspentPage := do
  Query.ofAnswer (checkPageSize query.pageSize maxUnspentPageSize)
  let key ← Query.ofAnswer (source.network.resolve address)
  let count := source.ledger.unspentCount key
  if count = 0 then throw .noUnspentOutputs
  let pages := pageCount count query.pageSize
  Query.ofAnswer (checkPageNumber query.page pages)
  let window := pageWindow count query.page query.pageSize
  Query.useCache unspentCacheSize
  let entries ← source.markUnspent key (source.unspentWindow key window query.ascending)
  return {
    count, pages, page := query.page, blockHeight := source.ledger.tipHeight, address
    script := Script.payTo key, entries }

end Source

end CoinLedger
