import CoinLedger.Address.Text
import CoinLedger.Json.Decode
import CoinLedger.Ledger.Snapshot
import CoinLedger.Selection.Fee

/-!
# The JSON form of ledger records

Every record is an object whose members are its fields; hashes and scripts are hexadecimal text.
Reading leaves out nothing that writing puts down, and accepts records that leave out fields with a
default.
-/

set_option autoImplicit false

namespace CoinLedger

open Json

/-! ## Hashes, keys and outputs -/

namespace Hash256

/-- The hash as text. -/
def toJson (hash : Hash256) : Json :=
  .string hash.toHex

/-- Reads a hash from its text. -/
def ofJson : Json → Decoded Hash256
  | .string text =>
    match ofHex text with
    | .ok hash => .ok hash
    | .error fault => .error (.badHash text fault)
  | _ => .error .mismatch

end Hash256

namespace Hash160

/-- The hash as text. -/
def toJson (hash : Hash160) : Json :=
  .string hash.toHex

/-- Reads a hash from its text. -/
def ofJson : Json → Decoded Hash160
  | .string text => (ofHex text).mapError .badAddressHash
  | _ => .error .mismatch

end Hash160

/-- Bytes as hexadecimal text. -/
def bytesToJson (bytes : List UInt8) : Json :=
  .string (String.ofList (Text.Hex.encode bytes))

/-- Reads bytes from hexadecimal text, which may have blanks around it. -/
def bytesOfJson : Json → Decoded (List UInt8)
  | .string text => (Text.Hex.decode (Text.trim text.toList)).mapError .badBytes
  | _ => .error .mismatch

namespace OutPoint

/-- The outpoint as an object. -/
def toJson (outpoint : OutPoint) : Json :=
  .object [("txid", outpoint.txid.toJson), ("index", .natural outpoint.index.toNat)]

/-- Reads an outpoint. -/
def ofJson (value : Json) : Decoded OutPoint := do
  let source ← record ["txid", "index"] value
  let txid := source.field "txid" Hash256.ofJson
  let index := source.field "index" readUInt32
  source.settle [("txid", txid.fault?), ("index", index.fault?)]
  return { txid := ← txid.required, index := ← index.required }

end OutPoint

/-- Reads one of several names, which may also be the only member of an object, with null. -/
def readName {α : Type} (named? : String → Option α) : Json → Decoded α
  | .string name | .object [(name, .null)] =>
    match named? name with
    | some value => .ok value
    | none => .error .mismatch
  | _ => .error .mismatch

namespace AddressKind

/-- The name of a kind in records. -/
def name : AddressKind → String
  | .pubKeyHash => "pubkeyhash"
  | .scriptHash => "scripthash"

/-- The kind of a name in records. -/
def ofName? (text : String) : Option AddressKind :=
  if text = name .pubKeyHash then some .pubKeyHash
  else if text = name .scriptHash then some .scriptHash
  else none

/-- The name of the kind as text. -/
def toJson (kind : AddressKind) : Json :=
  .string kind.name

/-- Reads a kind from its name. -/
def ofJson : Json → Decoded AddressKind :=
  readName ofName?

end AddressKind

namespace AddressKey

/-- The key as an object. -/
def toJson (key : AddressKey) : Json :=
  .object [("hash", key.hash.toJson), ("kind", key.kind.toJson)]

/-- Reads a key. -/
def ofJson (value : Json) : Decoded AddressKey := do
  let source ← record ["hash", "kind"] value
  let hash := source.field "hash" Hash160.ofJson
  let kind := source.field "kind" AddressKind.ofJson
  source.settle [("hash", hash.fault?), ("kind", kind.fault?)]
  return { hash := ← hash.required, kind := ← kind.required }

end AddressKey

/-! ## Index records -/

/-- A signed number of 64 bits. -/
def int64ToJson (value : Int64) : Json :=
  .integer value.toInt

/-- A signed number of 32 bits. -/
def int32ToJson (value : Int32) : Json :=
  .integer value.toInt

namespace UnspentOutput

/-- The entry as an object. -/
def toJson (entry : UnspentOutput) : Json :=
  .object [("txid", entry.txid.toJson), ("outputIndex", .natural entry.outputIndex.toNat),
    ("amountSatoshis", int64ToJson entry.amount), ("blockHeight", int32ToJson entry.height)]

/-- Reads an entry of the unspent index. -/
def ofJson (value : Json) : Decoded UnspentOutput := do
  let source ← record ["txid", "outputIndex", "amountSatoshis", "blockHeight"] value
  let txid := source.field "txid" Hash256.ofJson
  let outputIndex := source.field "outputIndex" readUInt32
  let amount := source.field "amountSatoshis" readInt64
  let height := source.field "blockHeight" readInt32
  source.settle [("txid", txid.fault?), ("outputIndex", outputIndex.fault?),
    ("amountSatoshis", amount.fault?), ("blockHeight", height.fault?)]
  return {
    txid := ← txid.required, outputIndex := ← outputIndex.required, amount := ← amount.required,
    height := ← height.required }

end UnspentOutput

namespace IndexDelta

/-- The change as an object. -/
def toJson (delta : IndexDelta) : Json :=
  .object [("txid", delta.txid.toJson), ("blockHeight", int32ToJson delta.height),
    ("spending", .bool delta.spending), ("amountSatoshis", int64ToJson delta.amount)]

/-- Reads a confirmed change, of which the mark of a spending may be left out. -/
def ofJson (value : Json) : Decoded IndexDelta := do
  let source ← record ["txid", "blockHeight", "spending", "amountSatoshis"] value
  let txid := source.field "txid" Hash256.ofJson
  let height := source.field "blockHeight" readInt32
  let spending := source.field "spending" readBool
  let amount := source.field "amountSatoshis" readInt64
  source.settle [("txid", txid.fault?), ("blockHeight", height.fault?),
    ("spending", spending.fault?), ("amountSatoshis", amount.fault?)]
  return {
    txid := ← txid.required, height := ← height.required, spending := ← spending.orDefault false,
    amount := ← amount.required }

end IndexDelta

namespace PendingDelta

/-- The fields of a pending change; the output it spends is left out when there is none. -/
def members (delta : PendingDelta) : List (String × Json) :=
  [("txid", delta.txid.toJson), ("index", .natural delta.index.toNat),
    ("addressType", .natural delta.addressType.toNat), ("amountSatoshis", int64ToJson delta.amount),
    ("timestamp", int64ToJson delta.timestamp)] ++
  match delta.prevout with
  | some prevout => [("prevout", prevout.toJson)]
  | none => []

/-- The pending change as an object. -/
def toJson (delta : PendingDelta) : Json :=
  .object delta.members

/-- Reads a pending change, of which `prevout` may be left out. -/
def ofJson (value : Json) : Decoded PendingDelta := do
  let source ← record
    ["txid", "index", "addressType", "amountSatoshis", "timestamp", "prevout"] value
  let txid := source.field "txid" Hash256.ofJson
  let index := source.field "index" readUInt32
  let addressType := source.field "addressType" readUInt8
  let amount := source.field "amountSatoshis" readInt64
  let timestamp := source.field "timestamp" readInt64
  let prevout := source.field "prevout" (readOptional OutPoint.ofJson)
  source.settle [("txid", txid.fault?), ("index", index.fault?),
    ("addressType", addressType.fault?), ("amountSatoshis", amount.fault?),
    ("timestamp", timestamp.fault?), ("prevout", prevout.fault?)]
  return {
    txid := ← txid.required, index := ← index.required, addressType := ← addressType.required,
    amount := ← amount.required, timestamp := ← timestamp.required,
    prevout := ← prevout.orDefault none }

end PendingDelta

namespace Deposit

/-- The deposit as an object. -/
def toJson (deposit : Deposit) : Json :=
  .object [("txid", deposit.txid.toJson), ("blockHeight", int32ToJson deposit.height),
    ("timestamp", int64ToJson deposit.timestamp), ("amountSatoshis", int64ToJson deposit.amount)]

/-- Reads a deposit. -/
def ofJson (value : Json) : Decoded Deposit := do
  let source ← record ["txid", "blockHeight", "timestamp", "amountSatoshis"] value
  let txid := source.field "txid" Hash256.ofJson
  let height := source.field "blockHeight" readInt32
  let timestamp := source.field "timestamp" readInt64
  let amount := source.field "amountSatoshis" readInt64
  source.settle [("txid", txid.fault?), ("blockHeight", height.fault?),
    ("timestamp", timestamp.fault?), ("amountSatoshis", amount.fault?)]
  return {
    txid := ← txid.required, height := ← height.required, timestamp := ← timestamp.required,
    amount := ← amount.required }

end Deposit

/-! ## Blocks -/

namespace TxOutput

/-- The output as an object. -/
def toJson (output : TxOutput) : Json :=
  .object [("value", int64ToJson output.value), ("scriptPubkey", bytesToJson output.script)]

/-- Reads an output. -/
def ofJson (value : Json) : Decoded TxOutput := do
  let source ← record ["value", "scriptPubkey"] value
  let amount := source.field "value" readInt64
  let script := source.field "scriptPubkey" bytesOfJson
  source.settle [("value", amount.fault?), ("scriptPubkey", script.fault?)]
  return { value := ← amount.required, script := ← script.required }

end TxOutput

namespace Transaction

/-- The transaction as an object. -/
def toJson (transaction : Transaction) : Json :=
  .object [("txid", transaction.txid.toJson),
    ("outputs", .array (transaction.outputs.map TxOutput.toJson))]

/-- Reads a transaction. -/
def ofJson (value : Json) : Decoded Transaction := do
  let source ← record ["txid", "outputs"] value
  let txid := source.field "txid" Hash256.ofJson
  let outputs := source.field "outputs" (readList TxOutput.ofJson)
  source.settle [("txid", txid.fault?), ("outputs", outputs.fault?)]
  return { txid := ← txid.required, outputs := ← outputs.required }

end Transaction

namespace Block

/-- The block as an object. -/
def toJson (block : Block) : Json :=
  .object [("height", int32ToJson block.height), ("hash", block.hash.toJson),
    ("time", int64ToJson block.time),
    ("transactions", .array (block.transactions.map Transaction.toJson))]

/-- Reads a block, of which the time may be left out. -/
def ofJson (value : Json) : Decoded Block := do
  let source ← record ["height", "hash", "time", "transactions"] value
  let height := source.field "height" readInt32
  let hash := source.field "hash" Hash256.ofJson
  let time := source.field "time" readInt64
  let transactions := source.field "transactions" (readList Transaction.ofJson)
  source.settle [("height", height.fault?), ("hash", hash.fault?), ("time", time.fault?),
    ("transactions", transactions.fault?)]
  return {
    height := ← height.required, hash := ← hash.required, time := ← time.orDefault 0,
    transactions := ← transactions.required }

end Block

/-! ## Snapshots -/

namespace AddressEntry

/-- The records of the address as an object. -/
def toJson (entry : AddressEntry) : Json :=
  .object [("address", .string entry.address),
    ("deltas", .array (entry.deltas.map IndexDelta.toJson)),
    ("unspent", .array (entry.unspent.map UnspentOutput.toJson)),
    ("deposits", .array (entry.deposits.map Deposit.toJson))]

/-- Reads the records of an address, of which every list may be left out. -/
def ofJson (value : Json) : Decoded AddressEntry := do
  let source ← record ["address", "deltas", "unspent", "deposits"] value
  let address := source.field "address" readString
  let deltas := source.field "deltas" (readList IndexDelta.ofJson)
  let unspent := source.field "unspent" (readList UnspentOutput.ofJson)
  let deposits := source.field "deposits" (readList Deposit.ofJson)
  source.settle [("address", address.fault?), ("deltas", deltas.fault?),
    ("unspent", unspent.fault?), ("deposits", deposits.fault?)]
  return {
    address := ← address.required, deltas := ← deltas.orDefault [],
    unspent := ← unspent.orDefault [], deposits := ← deposits.orDefault [] }

end AddressEntry

namespace PendingEntry

/-- The pending change with its address as an object. -/
def toJson (entry : PendingEntry) : Json :=
  .object (("address", .string entry.address) :: entry.delta.members)

/-- Reads an object that holds the address beside the fields of the change.  The address is read
before them. -/
def ofJson (value : Json) : Decoded PendingEntry := do
  let .object _ := value | .error .mismatch
  let source ← record ["address"] value
  let address ← (source.field "address" readString).required
  return { address, delta := ← PendingDelta.ofJson value }

end PendingEntry

namespace MempoolSnapshot

/-- What the mempool holds as an object. -/
def toJson (mempool : MempoolSnapshot) : Json :=
  .object [("deltas", .array (mempool.deltas.map PendingEntry.toJson)),
    ("spent", .array (mempool.spent.map OutPoint.toJson)),
    ("instant", .array (mempool.instant.map Hash256.toJson))]

/-- Reads what the mempool holds, of which every list may be left out. -/
def ofJson (value : Json) : Decoded MempoolSnapshot := do
  let source ← record ["deltas", "spent", "instant"] value
  let deltas := source.field "deltas" (readList PendingEntry.ofJson)
  let spent := source.field "spent" (readList OutPoint.ofJson)
  let instant := source.field "instant" (readList Hash256.ofJson)
  source.settle [("deltas", deltas.fault?), ("spent", spent.fault?), ("instant", instant.fault?)]
  return {
    deltas := ← deltas.orDefault [], spent := ← spent.orDefault [],
    instant := ← instant.orDefault [] }

end MempoolSnapshot

namespace LedgerSnapshot

/-- The snapshot as an object. -/
def toJson (snapshot : LedgerSnapshot) : Json :=
  .object [("tipHeight", int32ToJson snapshot.tipHeight),
    ("medianTimePast", (snapshot.medianTimePast.map int64ToJson).getD .null),
    ("blocks", .array (snapshot.blocks.map Block.toJson)),
    ("addresses", .array (snapshot.addresses.map AddressEntry.toJson)),
    ("mempool", snapshot.mempool.toJson)]

/-- Reads a snapshot, of which all but the height of the tip may be left out. -/
def ofJson (value : Json) : Decoded LedgerSnapshot := do
  let source ← record ["tipHeight", "medianTimePast", "blocks", "addresses", "mempool"] value
  let tipHeight := source.field "tipHeight" readInt32
  let medianTimePast := source.field "medianTimePast" (readOptional readInt64)
  let blocks := source.field "blocks" (readList Block.ofJson)
  let addresses := source.field "addresses" (readList AddressEntry.ofJson)
  let mempool := source.field "mempool" MempoolSnapshot.ofJson
  source.settle [("tipHeight", tipHeight.fault?), ("medianTimePast", medianTimePast.fault?),
    ("blocks", blocks.fault?), ("addresses", addresses.fault?), ("mempool", mempool.fault?)]
  return {
    tipHeight := ← tipHeight.required, medianTimePast := ← medianTimePast.orDefault none,
    blocks := ← blocks.orDefault [], addresses := ← addresses.orDefault [],
    mempool := ← mempool.orDefault {} }

end LedgerSnapshot

/-! ## Parameters -/

namespace Network

/-- The network as an object. -/
def toJson (network : Network) : Json :=
  .object [("pubkey_prefix", .natural network.pubKeyVersion.toNat),
    ("script_prefix", .natural network.scriptVersion.toNat)]

/-- Reads the version bytes of a network. -/
def ofJson (value : Json) : Decoded Network := do
  let source ← record ["pubkey_prefix", "script_prefix"] value
  let pubKeyVersion := source.field "pubkey_prefix" readUInt8
  let scriptVersion := source.field "script_prefix" readUInt8
  source.settle [("pubkey_prefix", pubKeyVersion.fault?), ("script_prefix", scriptVersion.fault?)]
  return { pubKeyVersion := ← pubKeyVersion.required, scriptVersion := ← scriptVersion.required }

end Network

namespace FeeSchedule

/-- The schedule as an object. -/
def toJson (schedule : FeeSchedule) : Json :=
  .object [("input_bytes", .natural schedule.inputBytes.toNat),
    ("output_bytes", .natural schedule.outputBytes.toNat),
    ("outputs", .natural schedule.outputs.toNat),
    ("overhead_bytes", .natural schedule.overheadBytes.toNat),
    ("fee_per_kb", int64ToJson schedule.feePerKb),
    ("kilobyte", .natural schedule.kilobyte.toNat),
    ("fee_unit", int64ToJson schedule.feeUnit),
    ("min_fee", int64ToJson schedule.minFee)]

/-- Reads a schedule. -/
def ofJson (value : Json) : Decoded FeeSchedule := do
  let source ← record ["input_bytes", "output_bytes", "outputs", "overhead_bytes", "fee_per_kb",
    "kilobyte", "fee_unit", "min_fee"] value
  let inputBytes := source.field "input_bytes" readUInt64
  let outputBytes := source.field "output_bytes" readUInt64
  let outputs := source.field "outputs" readUInt64
  let overheadBytes := source.field "overhead_bytes" readUInt64
  let feePerKb := source.field "fee_per_kb" readInt64
  let kilobyte := source.field "kilobyte" readUInt64
  let feeUnit := source.field "fee_unit" readInt64
  let minFee := source.field "min_fee" readInt64
  source.settle [("input_bytes", inputBytes.fault?), ("output_bytes", outputBytes.fault?),
    ("outputs", outputs.fault?), ("overhead_bytes", overheadBytes.fault?),
    ("fee_per_kb", feePerKb.fault?), ("kilobyte", kilobyte.fault?), ("fee_unit", feeUnit.fault?),
    ("min_fee", minFee.fault?)]
  return {
    inputBytes := ← inputBytes.required, outputBytes := ← outputBytes.required,
    outputs := ← outputs.required, overheadBytes := ← overheadBytes.required,
    feePerKb := ← feePerKb.required, kilobyte := ← kilobyte.required,
    feeUnit := ← feeUnit.required, minFee := ← minFee.required }

end FeeSchedule

end CoinLedger
