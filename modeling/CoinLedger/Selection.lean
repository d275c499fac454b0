import CoinLedger.Selection.Scan

/-!
# Selections

A selection picks unspent outputs of one address that pay an amount and the fee for spending them.
It fails when the address has no outputs, when no set of usable outputs covers the request, and when
time runs out before one is found.  It is stopped where there is no room for its cache and where a
number leaves its range.
-/

set_option autoImplicit false

namespace CoinLedger

/-- A selected output as it is shown to a client. -/
structure SelectedOutput where
  txid : Txid
  index : UInt32
  confirmations : Int32
  amount : Int64
  deriving DecidableEq, Repr

/-- A selected output as an object. -/
def SelectedOutput.toJson (output : SelectedOutput) : Json :=
  .object [("txid", output.txid.toJson), ("index", .natural output.index.toNat),
    ("confirmations", int32ToJson output.confirmations), ("amount", int64ToJson output.amount)]

/-- A solution as it is shown to a client. -/
structure SelectionReport where
  blockHeight : Int32
  script : List UInt8
  address : String
  requested : Int64
  total : Int64
  fee : Int64
  change : Int64
  outputs : List SelectedOutput
  deriving DecidableEq, Repr

/-- The report as an object. -/
def SelectionReport.toJson (report : SelectionReport) : Json :=
  .object [("blockHeight", int32ToJson report.blockHeight),
    ("scriptPubKey", bytesToJson report.script), ("address", .string report.address),
    ("requestedAmount", int64ToJson report.requested), ("finalAmount", int64ToJson report.total),
    ("fee", int64ToJson report.fee), ("change", int64ToJson report.change),
    ("utxos", .array (report.outputs.map SelectedOutput.toJson))]

/-- How a selection ended, as a metric names it. -/
def outcomeLabel : Answer Solution → String
  | .ok _ => "solved"
  | .error (.balanceInsufficient _) => "insufficient"
  | .error (.selectionTimedOut _) => "timed_out"
  | .error .noUnspentOutputs => "no_utxos"
  | .error _ => "error"

namespace Source

variable {σ : Type}

/-- The answer of a scan that has ended.  When time ran out without a set, the clock is read once
more to tell how long the scan took. -/
def concludeScan (source : Source) (request : SelectionRequest) (deadline : Deadline) :
    ScanEnd → Option Solution → Action (Answer Solution)
  | .failed error, _ => return .error error
  | _, some solution => return .ok solution
  | .expired, none => do
    return .error (.selectionTimedOut (deadline.elapsed (← source.now) / Clock.nanosPerMilli))
  | .finished, none => return .error (.balanceInsufficient request.amount)

/-- Selects outputs of a key, and counts the slices fetched on the way. -/
def solve (source : Source) (tuning : SelectionTuning) (random : RandomSource σ) (seed : σ)
    (request : SelectionRequest) (key : AddressKey) : Action (Answer Solution × Nat) := do
  let deadline : Deadline := ⟨← source.now, tuning.timeout⟩
  let plan : ScanPlan σ := { source, tuning, request, key, deadline, random }
  if source.ledger.unspentCount key = 0 then return (.error .noUnspentOutputs, 0)
  let (start, seed) := random.draw64 (plan.sliceCount - 1) seed
  match ← (Query.useCache tuning.blockCacheSize).run with
  | .error error => return (.error error, 0)
  | .ok () =>
    let (ending, scan) ← plan.scanSlices (visitOrder start plan.sliceCount) { random := seed }
    return (← source.concludeScan request deadline ending scan.best, scan.slices)

/-- Selects outputs of an address. -/
def select (source : Source) (tuning : SelectionTuning) (random : RandomSource σ) (seed : σ)
    (address : String) (request : SelectionRequest) : Action (Answer Solution) := do
  let (answer, slices) ←
    match (Amount.check request.amount).bind fun _ => source.network.resolve address with
    | .error error => pure (.error error, 0)
    | .ok key => source.solve tuning random seed request key
  Action.report (.selection request.policy.label (outcomeLabel answer) slices 0)
  return answer

/-- An output with its confirmations at the tip. -/
def selectedOutput (source : Source) (output : UnspentOutput) : Answer SelectedOutput := do
  return {
    txid := output.txid
    index := output.outputIndex
    confirmations := ← source.ledger.confirmations output.height
    amount := output.amount }

/-- The report of a solution. -/
def selectionReport (source : Source) (address : String) (requested : Int64) (solution : Solution) :
    Answer SelectionReport := do
  let key ← source.network.resolve address
  return {
    blockHeight := source.ledger.tipHeight
    script := Script.payTo key
    address
    requested
    total := solution.total
    fee := solution.fee
    change := solution.change
    outputs := ← solution.outputs.mapM source.selectedOutput }

end Source

end CoinLedger
