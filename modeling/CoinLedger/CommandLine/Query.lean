import CoinLedger.Balance
import CoinLedger.CommandLine.Host
import CoinLedger.CommandLine.Invocation
import CoinLedger.Json.Printer
import CoinLedger.Listing.Mempool
import CoinLedger.Selection

/-!
# Queries of the command line

An invocation checks the log file, loads the settings and then the ledger, runs its command and
prints the answer as JSON with the members of every object in the order of their keys.  A query that
fails prints its error as an object and ends with exit code one; one that is stopped prints nothing.
-/

set_option autoImplicit false

namespace CoinLedger

namespace Command

/-- Selects outputs and reports them. -/
def selectAndReport (source : Source) (tuning : SelectionTuning) (seed : UInt64) (address : String)
    (request : SelectionRequest) : Query SelectionReport := do
  let solution ← ExceptT.mk (source.select tuning .seeded seed address request)
  Query.ofAnswer (source.selectionReport address request.amount solution)

/-- The answer of a command; `seed` is where random draws start. -/
def answer (source : Source) (tuning : SelectionTuning) (seed : UInt64) : Command → Query Json
  | .balance addresses => return (← source.balances tuning.blockCacheSize addresses).toJson
  | .transactions address query => return (← source.listTransactions address query).toJson
  | .unspent address query => return (← source.listUnspent address query).toJson
  | .select address request =>
    return (← selectAndReport source tuning seed address request).toJson
  | .mempool address => return .array ((← source.listMempool address).map MempoolEntry.toJson)
  | .deposits address query => return (← Query.ofAnswer (source.listDeposits address query)).toJson

end Command

namespace Invocation

/-- The metrics as text, a line for each. -/
def metricsText (events : List MetricEvent) : String :=
  String.join ((Metrics.fullExposition events).map fun line =>
    line.1 ++ " " ++ toString line.2 ++ "\n")

/-- What a command that has run leaves: its answer or its error, and the metrics if they are shown.
-/
def outcome (invocation : Invocation) (answer : Answer Json) (session : Session) :
    Except Failure Outcome :=
  let notes := if invocation.showsMetrics then metricsText session.events else ""
  match answer with
  | .ok value => .ok { output := value.canonical.pretty ++ "\n", notes }
  | .error .stopped => .error .stopped
  | .error error => .ok { exitCode := 1, output := error.toJson.pretty ++ "\n", notes }

/-- Runs an invocation, unless something fails before its command has an answer. -/
def run? (host : Host) (invocation : Invocation) : Except Failure Outcome := do
  host.checkLogFile
  let settings ← host.loadSettings invocation.settings
  let source ← host.openSource invocation.snapshot settings.network
  let (answer, session) :=
    (invocation.command.answer source settings.tuning host.seed).runIn {}
  invocation.outcome answer session

/-- Runs an invocation. -/
def run (host : Host) (invocation : Invocation) : Outcome :=
  match invocation.run? host with
  | .ok outcome => outcome
  | .error failure => failure.outcomeAfter ""

/-- The paths of the files that an invocation may read. -/
def paths (invocation : Invocation) : List String :=
  match invocation.settings with
  | none => [Host.defaultSettingsPath, invocation.snapshot]
  | some path => [path, Host.withSettingsEnding path, invocation.snapshot]

end Invocation

/-- The exit code of a query whose arguments are not understood. -/
def badArgumentsExit : UInt8 := 2

/-- Runs the query that the arguments of the command line ask for. -/
def Host.query (host : Host) (arguments : List String) : Outcome :=
  match Invocation.ofArguments? arguments with
  | some invocation => invocation.run host
  | none => { Failure.arguments.outcomeAfter "" with exitCode := badArgumentsExit }

end CoinLedger
