import CoinLedger.Amount
import CoinLedger.Balance
import CoinLedger.CommandLine.Host

/-!
# Diagnoses

A diagnosis prints everything that a ledger knows about one address, section by section, and checks
that the confirmed changes add up to the balance less what instant send has made final.  A number
that leaves its range stops it below the lines that it has printed.
-/

set_option autoImplicit false

namespace CoinLedger

/-- A diagnosis, which prints lines, the latest first, and may be stopped. -/
abbrev Diagnosis := ExceptT QueryError (StateT (List String) Action)

namespace Diagnosis

/-- Prints a line. -/
def print (line : String) : Diagnosis Unit :=
  modify (line :: ·)

/-- Goes on with an answer, or stops. -/
def ofAnswer {α : Type} (answer : Answer α) : Diagnosis α :=
  ExceptT.mk (pure answer)

/-- Asks a query and goes on with its answer or its error; only where the query is stopped the
diagnosis is stopped as well. -/
def ask {α : Type} (query : Query α) : Diagnosis (Answer α) := do
  match ← liftM query.run with
  | .error .stopped => throw .stopped
  | answer => return answer

end Diagnosis

namespace Source

open Diagnosis

/-! ## Sections -/

/-- The section about the key of the address and the tip of the chain. -/
def printKey (source : Source) (key : AddressKey) : Diagnosis Unit := do
  print "📊 Index Key:"
  print ("   Hash160: " ++ key.hash.toHex)
  print ("   Type:    " ++ key.kind.title ++ " (" ++ toString key.kind.indexType.toNat ++ ")")
  print ("   Tip:     " ++ toString source.ledger.tipHeight.toInt)
  match source.ledger.medianTimePast with
  | some time => print ("   MTP:     " ++ toString time.toInt)
  | none => print "   MTP:     (no tip, using wall clock)"

/-- The state of the lock of a confirmed change; nothing for a change that takes value away. -/
def lockText (source : Source) (key : AddressKey) (delta : IndexDelta) : Diagnosis String := do
  if 0 < delta.amount then
    return match ← ask (source.checkTimeLock delta.height delta.txid key) with
      | .ok true => "🔒 locked"
      | .ok false => "unlocked"
      | .error error => "⚠️  " ++ error.message
  else return ""

/-- An amount in a column of its own. -/
def amountColumn (amount : Int64) : String :=
  Text.rightAligned 20 (Amount.format amount)

/-- A line for each confirmed change with the running sum, which starts from `running`; the result
is the last sum. -/
def printDeltas (source : Source) (key : AddressKey) : Int64 → List IndexDelta → Diagnosis Int64
  | running, [] => return running
  | running, delta :: rest => do
    let running ← ofAnswer (Amount.add running delta.amount)
    let lock ← source.lockText key delta
    print ("   " ++ Text.rightAligned 8 (toString delta.height.toInt) ++ " " ++ delta.txid.toHex ++
      " " ++ amountColumn delta.amount ++ " → " ++ amountColumn running ++ " " ++ lock)
    source.printDeltas key running rest

/-- The line of an unspent output. -/
def printUnspent (source : Source) (key : AddressKey) (output : UnspentOutput) :
    Diagnosis Unit := do
  let locked :=
    match ← ask (source.checkTimeLock output.height output.txid key) with
    | .ok true => " 🔒"
    | .ok false => ""
    | .error _ => " ⚠️"
  let spent := if source.ledger.isSpent output.outpoint then " [spent in mempool]" else ""
  let confirmations ← ofAnswer (source.ledger.confirmations output.height)
  print ("   " ++ output.outpoint.toText ++ " " ++ amountColumn output.amount ++ " @ " ++
    toString output.height.toInt ++ " (" ++ toString confirmations.toInt ++ " conf)" ++ locked ++
    spent)

/-- The line of a pending change. -/
def printPending (source : Source) (delta : PendingDelta) : Diagnosis Unit :=
  let instant := if source.ledger.isInstant delta.txid then " ⚡ instant" else ""
  print ("   " ++ delta.txid.toHex ++ " #" ++ toString delta.index.toNat ++ " " ++
    amountColumn delta.amount ++ " at " ++ toString delta.timestamp.toInt ++ instant)

/-- The section about the deposits of all times. -/
def printDeposits (source : Source) (key : AddressKey) : Diagnosis Unit := do
  let span := source.ledger.depositSpan key 0 Int64.maxValue
  print ("\n📥 Deposits: " ++ toString span.count)
  if 0 < span.count then
    print ("   First: " ++ toString span.firstTimestamp.toInt ++ "  Last: " ++
      toString span.lastTimestamp.toInt)

/-- The lines of a balance. -/
def printSnapshot (snapshot : BalanceSnapshot) : Diagnosis Unit := do
  print ("   Balance:     " ++ Amount.format snapshot.balance)
  print ("   Locked:      " ++ Amount.format snapshot.locked)
  print ("   Unlocked:    " ++ Amount.format (← ofAnswer snapshot.unlocked))
  print ("   Received:    " ++ Amount.format snapshot.received)
  print ("   Sent:        " ++ Amount.format (← ofAnswer snapshot.sent))
  print ("   Unconfirmed: " ++ Amount.format snapshot.unconfirmedDelta)

/-- The sum of the pending changes of a key that instant send has made final. -/
def pendingInstant (source : Source) (key : AddressKey) : Answer Int64 :=
  Amount.sum (((source.ledger.pendingDeltas key).filter fun delta =>
    source.ledger.isInstant delta.txid).map (·.amount))

/-- The balances of a report less what instant send has made final. -/
def confirmedBalance (source : Source) (key : AddressKey) (report : BalanceReport) :
    Answer Int64 := do
  let balance ← Amount.sum (report.snapshots.map (·.balance))
  Amount.sub balance (← source.pendingInstant key)

/-- The lines about the balance, which end with the check of the sums. -/
def printBalance (source : Source) (key : AddressKey) (confirmed : Int64) :
    Answer BalanceReport → Diagnosis Unit
  | .error error => print ("   ❌ " ++ error.message)
  | .ok report => do
    report.snapshots.forM printSnapshot
    if confirmed = (← ofAnswer (source.confirmedBalance key report)) then
      print "\n   ✅ Delta sum matches confirmed balance"
    else print "\n   ⚠️  Delta sum does not match confirmed balance"

/-- All sections about an address that resolves to a key. -/
def diagnose (source : Source) (cacheSize : Nat) (address : String) (key : AddressKey) :
    Diagnosis Unit := do
  source.printKey key
  let deltas := source.ledger.indexDeltas key
  print ("\n📜 Index Deltas (" ++ toString deltas.length ++ "):")
  let confirmed ← source.printDeltas key 0 deltas
  let outputs := source.ledger.unspent key
  print ("\n💰 Unspent Outputs (" ++ toString outputs.length ++ "):")
  outputs.forM (source.printUnspent key)
  let pending := source.ledger.pendingDeltas key
  print ("\n⏳ Mempool Deltas (" ++ toString pending.length ++ "):")
  pending.forM source.printPending
  source.printDeposits key
  print "\n📈 Balance:"
  source.printBalance key confirmed (← ask (source.balances cacheSize [address]))

end Source

namespace Host

/-! ## The program -/

/-- The line that opens a diagnosis. -/
def diagnosisTitle (address : String) : String :=
  "🔍 Analyzing address: " ++ address ++ "\n\n"

/-- Lines as one text. -/
def textOfLines (lines : List String) : String :=
  String.join (lines.map fun line => line ++ "\n")

/-- What a diagnosis leaves below its title. -/
def diagnosis (host : Host) (snapshot address : String) : Except Failure Outcome := do
  let settings ← host.loadSettings none
  let source ← host.openSource snapshot settings.network
  let key ← (settings.network.resolve address).mapError .address
  let ((answer, lines), _) :=
    ((source.diagnose settings.tuning.blockCacheSize address key).run.run []).run {}
  let output := textOfLines lines.reverse
  return match answer with
    | .ok () => { output }
    | .error _ => { Failure.stopped.outcomeAfter output with exitCode := Failure.abruptExit }

/-- Diagnoses an address of a snapshot; the arguments are the path of the snapshot and the address.
The title is printed before anything else is tried. -/
def diagnose (host : Host) : List String → Outcome
  | snapshot :: address :: _ =>
    match host.diagnosis snapshot address with
    | .ok outcome => { outcome with output := diagnosisTitle address ++ outcome.output }
    | .error failure => failure.outcomeAfter (diagnosisTitle address)
  | _ => Failure.arguments.outcomeAfter ""

/-- The paths of the files that a diagnosis reads. -/
def diagnosisPaths : List String → List String
  | snapshot :: _ => [defaultSettingsPath, snapshot]
  | [] => []

end Host

end CoinLedger
