import CoinLedger.Amount
import CoinLedger.Ledger.Codec
import CoinLedger.Selection.Fee

/-!
# Selected outputs

A solution is a set of outputs, in the order in which they were selected, with their total and the
fee for spending them.  It covers a request when the total pays the amount and the fee; what is left
over is the change.  A fee that cannot be told and a change that is no amount stop the query.
-/

set_option autoImplicit false

namespace CoinLedger

/-- Outputs selected for a payment. -/
structure Solution where
  /-- No two of them are the same output. -/
  outputs : List UnspentOutput := []
  /-- The sum of the amounts, held within the range of amounts. -/
  total : Int64 := 0
  /-- The fee for as many inputs as there are outputs. -/
  fee : Int64 := 0
  /-- What is left over when the request is settled. -/
  change : Int64 := 0
  deriving DecidableEq, Repr, Inhabited

namespace Solution

/-- How many outputs are selected. -/
def size (solution : Solution) : Nat :=
  solution.outputs.length

/-- Whether an output is selected. -/
def contains (solution : Solution) (outpoint : OutPoint) : Bool :=
  solution.outputs.any (·.outpoint = outpoint)

/-- Selects one more output; one that is selected already is left out. -/
def add (schedule : FeeSchedule) (output : UnspentOutput) (solution : Solution) : Solution :=
  if solution.contains output.outpoint then solution
  else
    { solution with
      outputs := solution.outputs ++ [output]
      total := Amount.addClamped solution.total output.amount
      fee := schedule.feeForInputs (solution.size + 1) }

/-- Selects one more output, if the fee for it can be told. -/
def addChecked (schedule : FeeSchedule) (output : UnspentOutput) (solution : Solution) :
    Answer Solution :=
  if solution.contains output.outpoint then .ok solution
  else (schedule.feeChecked (solution.size + 1)).map fun _ => solution.add schedule output

/-- Whether the outputs pay an amount and their own fee. -/
def covers (solution : Solution) (requested : Int64) : Bool :=
  !solution.outputs.isEmpty && Amount.addClamped requested solution.fee ≤ solution.total

/-- The solution with what is left over of a request, which is an amount. -/
def settle (solution : Solution) (requested : Int64) : Solution :=
  { solution with change := solution.total - requested - solution.fee }

/-- Whether what is left over of a request is an amount, before and after the fee. -/
def settles (solution : Solution) (requested : Int64) : Bool :=
  let rest := solution.total.toInt - requested.toInt
  Amount.InRange rest && Amount.InRange (rest - solution.fee.toInt)

/-- The solution with what is left over of a request, if that is an amount. -/
def settleChecked (solution : Solution) (requested : Int64) : Answer Solution :=
  if solution.settles requested then .ok (solution.settle requested) else .error .stopped

/-- The solution as an object. -/
def toJson (solution : Solution) : Json :=
  .object [("selectedUtxos", .array (solution.outputs.map UnspentOutput.toJson)),
    ("totalAmount", int64ToJson solution.total), ("fee", int64ToJson solution.fee),
    ("change", int64ToJson solution.change)]

end Solution

end CoinLedger
