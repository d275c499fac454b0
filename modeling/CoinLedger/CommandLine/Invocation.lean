import CoinLedger.Amount
import CoinLedger.CommandLine.Arguments
import CoinLedger.Listing.Deposits
import CoinLedger.Listing.History
import CoinLedger.Listing.Unspent
import CoinLedger.Selection.Scan

/-!
# Invocations

An invocation names the snapshot of a ledger, perhaps a file of settings, and one command with its
own arguments behind its name.
-/

set_option autoImplicit false

namespace CoinLedger

/-- A query of the command line. -/
inductive Command where
  | balance (addresses : List String)
  | transactions (address : String) (query : HistoryQuery)
  | unspent (address : String) (query : UnspentQuery)
  | select (address : String) (request : SelectionRequest)
  | mempool (address : String)
  | deposits (address : String) (query : DepositQuery)
  deriving DecidableEq, Repr

namespace Command

/-- The arguments of a command about one address: the address, and the rest of the arguments. -/
def readOne? (table : OptionTable) (arguments : List String) : Option (String × Arguments) := do
  let found ← table.read? arguments
  match found.operands with
  | [address] => some (address, found)
  | _ => none

/-- Reads the arguments of `balance`: one address or more. -/
def readBalance? (arguments : List String) : Option Command := do
  let found ← ({} : OptionTable).read? arguments
  if found.operands.isEmpty then none else some (.balance found.operands)

/-- Reads the arguments of `transactions`. -/
def readTransactions? (arguments : List String) : Option Command := do
  let (address, found) ← readOne?
    { valued := ["page", "page-size", "direction"], flags := ["ascending"] } arguments
  let d : HistoryQuery := {}
  let page ← found.unsignedOr "page" d.page
  let pageSize ← found.unsignedOr "page-size" d.pageSize
  let direction ← found.valueOr "direction" d.direction fun text => (Direction.parse text).toOption
  return .transactions address
    { page, pageSize, ascending := found.hasFlag "ascending", direction }

/-- Reads the arguments of `unspent`. -/
def readUnspent? (arguments : List String) : Option Command := do
  let (address, found) ← readOne?
    { valued := ["page", "page-size"], flags := ["ascending"] } arguments
  let d : UnspentQuery := {}
  let page ← found.unsignedOr "page" d.page
  let pageSize ← found.unsignedOr "page-size" d.pageSize
  return .unspent address { page, pageSize, ascending := found.hasFlag "ascending" }

/-- Reads the arguments of `select`: an address and an amount. -/
def readSelect? (arguments : List String) : Option Command := do
  let found ← ({ flags := ["deterministic", "instant"] } : OptionTable).read? arguments
  match found.operands with
  | [address, text] =>
    let amount ← (Amount.parse text).toOption
    let policy : Policy := if found.hasFlag "deterministic" then .minimal else .random
    return .select address { amount, policy, instantOnly := found.hasFlag "instant" }
  | _ => none

/-- Reads the arguments of `mempool`. -/
def readMempool? (arguments : List String) : Option Command := do
  let (address, _) ← readOne? {} arguments
  return .mempool address

/-- Reads the arguments of `deposits`. -/
def readDeposits? (arguments : List String) : Option Command := do
  let (address, found) ← readOne?
    { valued := ["page", "page-size", "from", "to"], flags := ["ascending"] } arguments
  let d : DepositQuery := {}
  let page ← found.unsignedOr "page" d.page
  let pageSize ← found.unsignedOr "page-size" d.pageSize
  let timestampFrom ← found.signedOr "from" d.timestampFrom
  let timestampTo ← found.signedOr "to" d.timestampTo
  return .deposits address
    { page, pageSize, ascending := found.hasFlag "ascending", timestampFrom, timestampTo }

/-- Reads a command from its name and the arguments behind it. -/
def ofArguments? : List String → Option Command
  | "balance" :: arguments => readBalance? arguments
  | "transactions" :: arguments => readTransactions? arguments
  | "unspent" :: arguments => readUnspent? arguments
  | "select" :: arguments => readSelect? arguments
  | "mempool" :: arguments => readMempool? arguments
  | "deposits" :: arguments => readDeposits? arguments
  | _ => none

end Command

/-- All that the arguments of the command line ask for. -/
structure Invocation where
  /-- The path of the snapshot. -/
  snapshot : String
  /-- The path of the file of settings. -/
  settings : Option String
  /-- Whether the metrics are shown after the query. -/
  showsMetrics : Bool
  command : Command
  deriving DecidableEq, Repr

namespace Invocation

/-- Reads the arguments of the command line; `none` when they are not admitted. -/
def ofArguments? (arguments : List String) : Option Invocation := do
  let table : OptionTable := { valued := ["snapshot", "config"], flags := ["metrics"] }
  let found ← table.readLeading? arguments
  let command ← Command.ofArguments? found.operands
  return {
    snapshot := ← found.values.lookup "snapshot", settings := found.values.lookup "config"
    showsMetrics := found.hasFlag "metrics", command }

end Invocation

end CoinLedger
