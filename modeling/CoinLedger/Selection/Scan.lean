import CoinLedger.Listing.Page
import CoinLedger.Selection.Policy
import CoinLedger.TimeLock

/-!
# The scan of a selection

The unspent outputs of an address are scanned slice by slice, from a random slice on and once round.
Of each slice the usable outputs are walked in the order of the policy until the selected set covers
the request.  The clock is read before every slice and at every step of a walk; a reading past the
deadline ends the scan, and the best set found so far is the answer.  A lookup that fails ends the
scan as well, and so does a number that leaves its range.
-/

set_option autoImplicit false

namespace CoinLedger

/-- What is asked of a selection. -/
structure SelectionRequest where
  /-- The amount to be paid, without the fee. -/
  amount : Int64
  policy : Policy := .minimal
  /-- Whether only outputs with enough confirmations for instant send may be used. -/
  instantOnly : Bool := false
  deriving DecidableEq, Repr

/-- What selections are tuned by. -/
structure SelectionTuning where
  /-- How many outputs make up a slice. -/
  sliceSize : Nat := 2000
  /-- The time budget, in nanoseconds. -/
  timeout : Nat := 5000 * Clock.nanosPerMilli
  /-- The confirmations that instant send needs. -/
  instantConfirmations : Int32 := 6
  /-- How many blocks are kept while a selection runs. -/
  blockCacheSize : Nat := 256
  fee : FeeSchedule := {}
  deriving DecidableEq, Repr

/-- Everything that stays the same during a scan. -/
structure ScanPlan (σ : Type) where
  source : Source
  tuning : SelectionTuning
  request : SelectionRequest
  key : AddressKey
  deadline : Deadline
  random : RandomSource σ

/-- What a scan has come to. -/
structure Scan (σ : Type) where
  random : σ
  /-- The outputs that a minimal selection goes on with. -/
  pool : List UnspentOutput := []
  /-- The set of the last walk, if it covered nothing. -/
  carried : Solution := {}
  best : Option Solution := none
  /-- How many slices were fetched. -/
  slices : Nat := 0

/-- Why a walk ended. -/
inductive WalkEnd where
  | exhausted
  | covered
  | expired
  /-- The fee for the next output cannot be told. -/
  | stopped
  deriving DecidableEq, Repr

/-- Why a scan ended. -/
inductive ScanEnd where
  | finished
  | expired
  | failed (error : QueryError)

namespace ScanPlan

variable {σ : Type}

/-- Whether an output may be used, given whether it is locked. -/
def isUsable (plan : ScanPlan σ) (output : UnspentOutput) (locked : Bool) : Answer Bool := do
  if locked || plan.source.ledger.isSpent output.outpoint then return false
  if !plan.request.instantOnly then return true
  return plan.tuning.instantConfirmations ≤ (← plan.source.ledger.confirmations output.height)

/-- Reads the clock and tells whether the deadline is past. -/
def expired (plan : ScanPlan σ) : Action Bool := do
  return plan.deadline.expired (← plan.source.now)

/-! ## Slices -/

/-- The usable outputs among the outputs of a slice, in their order. -/
def usableOutputs (plan : ScanPlan σ) : List UnspentOutput → Query (List UnspentOutput)
  | [] => pure []
  | output :: rest => do
    let locked ← plan.source.checkTimeLockCached output.height output.txid plan.key
    let kept ← Query.ofAnswer (plan.isUsable output locked)
    let usable ← plan.usableOutputs rest
    return if kept then output :: usable else usable

/-- How many outputs a slice has, apart from the last one. -/
def sliceSize (plan : ScanPlan σ) : Nat :=
  max plan.tuning.sliceSize 1

/-- The outputs of a slice. -/
def sliceOutputs (plan : ScanPlan σ) (slice : Nat) : List UnspentOutput :=
  let window := sliceWindow (plan.source.ledger.unspentCount plan.key) slice plan.sliceSize
  plan.source.ledger.unspentSlice plan.key window.start window.size

/-! ## Walks -/

/-- The order in which the usable outputs of a slice are walked, and the scan with the pool and the
random state after it. -/
def arrange (plan : ScanPlan σ) (scan : Scan σ) (fresh : List UnspentOutput) :
    List UnspentOutput × Scan σ :=
  match plan.request.policy with
  | .random =>
    let (shuffled, random) := plan.random.shuffle fresh scan.random
    (shuffled, { scan with random })
  | .minimal =>
    let pool := Policy.mergePool scan.pool fresh
    (pool, { scan with pool })

/-- Selects outputs one after the other until they cover the request. -/
def walk (plan : ScanPlan σ) : List UnspentOutput → Solution → Action (WalkEnd × Solution)
  | [], candidate => pure (.exhausted, candidate)
  | output :: rest, candidate => do
    if ← plan.expired then return (.expired, candidate)
    match candidate.addChecked plan.tuning.fee output with
    | .error _ => return (.stopped, candidate)
    | .ok candidate =>
      if candidate.covers plan.request.amount then return (.covered, candidate)
      plan.walk rest candidate

/-- Whether the change can be told where a walk leads to a new best set. -/
def settles (plan : ScanPlan σ) (covered : Bool) (candidate : Solution) (scan : Scan σ) : Bool :=
  !(covered && plan.request.policy.improves candidate scan.best) ||
    candidate.settles plan.request.amount

/-- The scan after a walk to a covering set. -/
def afterCover (plan : ScanPlan σ) (scan : Scan σ) (candidate : Solution) : Scan σ :=
  if plan.request.policy.improves candidate scan.best then
    { scan with carried := {}, best := some (candidate.settle plan.request.amount) }
  else { scan with carried := {} }

/-! ## The scan -/

/-- The scan after a walk that did not run out of time, and whether it goes on: the random policy
stops at the first covering set, the minimal one when no smaller set is left. -/
def afterWalk (plan : ScanPlan σ) (covered : Bool) (candidate : Solution) (scan : Scan σ) :
    Scan σ × Bool :=
  let policy := plan.request.policy
  let scan := if covered then plan.afterCover scan candidate else { scan with carried := candidate }
  if covered && policy = .random then (scan, false)
  else
    match policy.prune scan.best scan.pool with
    | none => (scan, false)
    | some pool => ({ scan with pool }, true)

/-- Scans slices one after the other. -/
def scanSlices (plan : ScanPlan σ) : List Nat → Scan σ → Action (ScanEnd × Scan σ)
  | [], scan => pure (.finished, scan)
  | slice :: rest, scan => do
    if ← plan.expired then return (.expired, scan)
    let scan := { scan with slices := scan.slices + 1 }
    match ← (plan.usableOutputs (plan.sliceOutputs slice)).run with
    | .error error => return (.failed error, scan)
    | .ok fresh =>
      let (order, scan) := plan.arrange scan fresh
      match ← plan.walk order (plan.request.policy.startingSet scan.carried) with
      | (.expired, _) => return (.expired, scan)
      | (.stopped, _) => return (.failed .stopped, scan)
      | (ending, candidate) =>
        if !plan.settles (ending = .covered) candidate scan then return (.failed .stopped, scan)
        let (scan, goesOn) := plan.afterWalk (ending = .covered) candidate scan
        if goesOn then plan.scanSlices rest scan else return (.finished, scan)

/-- How many slices hold the unspent outputs. -/
def sliceCount (plan : ScanPlan σ) : Nat :=
  pageCount (plan.source.ledger.unspentCount plan.key) plan.sliceSize

end ScanPlan

/-- All slices in order, from one of them on and round to it. -/
def visitOrder (start slices : Nat) : List Nat :=
  (List.range slices).map fun step => (start + step) % slices

end CoinLedger
