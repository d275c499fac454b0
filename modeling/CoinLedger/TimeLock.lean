import CoinLedger.Session

/-!
# Time locks

An output is locked while its lock lies ahead: a lock below `lockTimeThreshold` is a height that the
tip has not reached, any other lock is a time that the reference time has not reached.  Whether a
record of an address is locked is decided by the output of its transaction that pays to the address.
The reference time is asked for anew at every decision.
-/

set_option autoImplicit false

namespace CoinLedger

/-- Locks below this are heights, the others are times. -/
def lockTimeThreshold : UInt32 := 500000000

/-- Whether a lock is a height. -/
def isHeightLock (lock : UInt32) : Bool :=
  lock < lockTimeThreshold

/-- Whether a lock lies ahead of a tip and a reference time; lock zero never does. -/
def lockActive (lock : UInt32) (tipHeight : Int32) (referenceTime : Int64) : Bool :=
  if lock = 0 then false
  else if isHeightLock lock then tipHeight.toInt < lock.toNat
  else referenceTime.toInt < lock.toNat

namespace Transaction

/-- The first output that pays to a key. -/
def outputTo (transaction : Transaction) (key : AddressKey) : Option TxOutput :=
  transaction.outputs.find? (·.destination = some key)

end Transaction

namespace Block

/-- The first output by which a transaction of a block pays to a key; none when the transaction does
not pay to the key.  A transaction that is not in the block is an error. -/
def outputTo (block : Block) (height : Int32) (txid : Txid) (key : AddressKey) :
    Answer (Option TxOutput) :=
  match block.findTransaction txid with
  | none => .error (.transactionNotFound txid height)
  | some transaction => .ok (transaction.outputTo key)

end Block

namespace Source

/-- Whether an output is still locked when it is looked at; no output is not. -/
def isLockedNow (source : Source) : Option TxOutput → Action Bool
  | none => pure false
  | some output => do
    return lockActive output.lockTime source.ledger.tipHeight (← source.askReferenceTime)

/-- Decides a lock with a read from the ledger: whether the transaction at a height pays to a key by
an output that is still locked. -/
def checkTimeLock (source : Source) (height : Int32) (txid : Txid) (key : AddressKey) :
    Query Bool := do
  let block ← source.readBlock height
  source.isLockedNow (← Query.ofAnswer (block.outputTo height txid key))

/-- Decides a lock with a read through the cache. -/
def checkTimeLockCached (source : Source) (height : Int32) (txid : Txid) (key : AddressKey) :
    Query Bool := do
  let block ← source.readCached height
  source.isLockedNow (← Query.ofAnswer (block.outputTo height txid key))

end Source

end CoinLedger
