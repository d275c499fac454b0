import CoinLedger.Ledger.Codec
import CoinLedger.Listing.Page
import CoinLedger.Session

/-!
# Deposits

A page of the deposits of an address in a range of times, oldest or newest first.  The range takes
in its first time and leaves out its last one.
-/

set_option autoImplicit false

namespace CoinLedger

/-- Which page of the deposits is asked for. -/
structure DepositQuery where
  page : Nat := 1
  pageSize : Nat := 100
  /-- Oldest first rather than newest first. -/
  ascending : Bool := false
  timestampFrom : Int64 := 0
  timestampTo : Int64 := 2147483647
  deriving DecidableEq, Repr

/-- A page of deposits. -/
structure DepositPage where
  count : Nat
  pages : Nat
  page : Nat
  deposits : List Deposit
  deriving DecidableEq, Repr

namespace DepositPage

/-- A deposit as it is listed. -/
def entryToJson (deposit : Deposit) : Json :=
  .object [("txhash", deposit.txid.toJson), ("blockHeight", int32ToJson deposit.height),
    ("timestamp", int64ToJson deposit.timestamp), ("amount", int64ToJson deposit.amount)]

/-- The page as an object. -/
def toJson (page : DepositPage) : Json :=
  .object [("count", .natural page.count), ("pages", .natural page.pages),
    ("page", .natural page.page), ("deposits", .array (page.deposits.map entryToJson))]

end DepositPage

/-- The greatest size of a page of deposits. -/
def maxDepositPageSize : Nat := 1000

/-- Accepts the ranges that are not empty. -/
def checkTimeRange (timestampFrom timestampTo : Int64) : Answer Unit :=
  if timestampTo ≤ timestampFrom then
    .error (.invalidParameter ("timestampTo (" ++ toString timestampTo.toInt ++
      ") must be greater than timestampFrom (" ++ toString timestampFrom.toInt ++ ")"))
  else .ok ()

namespace Ledger

/-- The deposits of a key at the positions of a window of a span, in the order asked for. -/
def depositWindow (ledger : Ledger) (key : AddressKey) (span : DepositSpan) (window : Window)
    (ascending : Bool) : List Deposit :=
  if ascending then ledger.depositSlice key span.firstTimestamp window.start window.size
  else ledger.depositSliceBack key span.lastTimestamp window.start window.size

end Ledger

namespace Source

/-- A page of the deposits of an address. -/
def listDeposits (source : Source) (address : String) (query : DepositQuery) :
    Answer DepositPage := do
  checkTimeRange query.timestampFrom query.timestampTo
  checkPageSize query.pageSize maxDepositPageSize
  let key ← source.network.resolve address
  let span := source.ledger.depositSpan key query.timestampFrom query.timestampTo
  if span.count = 0 then throw .noDeposits
  let pages := pageCount span.count query.pageSize
  checkPageNumber query.page pages
  let window := pageWindow span.count query.page query.pageSize
  return {
    count := span.count, pages, page := query.page
    deposits := source.ledger.depositWindow key span window query.ascending }

end Source

end CoinLedger
