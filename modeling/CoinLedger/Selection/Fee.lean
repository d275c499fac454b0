import CoinLedger.QueryError

/-!
# Fees

The fee of a payment grows with the number of inputs that it spends.  The size of the transaction
times the rate gives a raw fee, which is rounded to a multiple of the fee unit, a half going up, and
raised to the least fee.  A size that 64 bits do not hold stops the query.
-/

set_option autoImplicit false

namespace CoinLedger

/-- How the fee of a transaction follows from the number of its inputs. -/
structure FeeSchedule where
  /-- The bytes of one input. -/
  inputBytes : UInt64 := 148
  /-- The bytes of one output. -/
  outputBytes : UInt64 := 34
  /-- The outputs of a transaction, the payment and the change. -/
  outputs : UInt64 := 2
  /-- The bytes of everything else. -/
  overheadBytes : UInt64 := 19
  /-- The fee charged per `kilobyte` bytes. -/
  feePerKb : Int64 := 100000
  kilobyte : UInt64 := 1024
  /-- Fees are multiples of this, apart from the least one. -/
  feeUnit : Int64 := 100000
  minFee : Int64 := 100000
  deriving DecidableEq, Repr, Inhabited

namespace FeeSchedule

/-- The size of a transaction as a number of any length. -/
def size (schedule : FeeSchedule) (inputs : Nat) : Nat :=
  inputs * schedule.inputBytes.toNat + schedule.outputs.toNat * schedule.outputBytes.toNat +
    schedule.overheadBytes.toNat

/-- The size of a transaction, modulo 2^64. -/
def txBytes (schedule : FeeSchedule) (inputs : Nat) : UInt64 :=
  UInt64.ofNat inputs * schedule.inputBytes + schedule.outputs * schedule.outputBytes +
    schedule.overheadBytes

/-- The rate applied to a size, rounded toward zero. -/
def rawFee (schedule : FeeSchedule) (bytes : UInt64) : Int :=
  Int.tdiv ((bytes.toNat : Int) * schedule.feePerKb.toInt) (max schedule.kilobyte.toNat 1 : Nat)

/-- The fee unit, at least one. -/
def unit (schedule : FeeSchedule) : Int :=
  max schedule.feeUnit.toInt 1

/-- The multiple of the fee unit that half a unit more reaches, rounded toward zero. -/
def roundToUnit (schedule : FeeSchedule) (raw : Int) : Int :=
  Int.tdiv (raw + Int.tdiv schedule.unit 2) schedule.unit * schedule.unit

/-- The fee as an amount; a fee beyond the range of amounts is the largest amount. -/
def clampFee (fee : Int) : Int64 :=
  if Int64.minValue.toInt ≤ fee ∧ fee ≤ Int64.maxValue.toInt then Int64.ofInt fee
  else Int64.maxValue

/-- The fee of a transaction with the given number of inputs, whose size 64 bits hold. -/
def feeForInputs (schedule : FeeSchedule) (inputs : Nat) : Int64 :=
  let fee := clampFee (schedule.roundToUnit (schedule.rawFee (schedule.txBytes inputs)))
  if fee < schedule.minFee then schedule.minFee else fee

/-- Whether 64 bits hold the size of a transaction. -/
def sizeFits (schedule : FeeSchedule) (inputs : Nat) : Bool :=
  schedule.size inputs < UInt64.size

/-- The fee of a transaction with the given number of inputs, if 64 bits hold its size. -/
def feeChecked (schedule : FeeSchedule) (inputs : Nat) : Answer Int64 :=
  if schedule.sizeFits inputs then .ok (schedule.feeForInputs inputs) else .error .stopped

end FeeSchedule

end CoinLedger
