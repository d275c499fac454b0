import CoinLedger.Ledger.Codec
import CoinLedger.Proofs.HashText
import CoinLedger.Proofs.Json.Rearranged

/-!
# Reading written ledger records

Every ledger record is read back from the object that it is written as, also when the members of
the objects stand in another order, as they do in the canonical form (`LedgerSnapshot.ofJson_form`).
A pending change is read from the object of its entry, which has the address beside the fields of
the change (`PendingDelta.ofJson_fields`).  So writing down what was read and reading it again
changes nothing, whatever else the value held and however its hexadecimal texts were spelled
(`ofJson_toJson`).
-/

set_option autoImplicit false

namespace CoinLedger

open Json

/-! ## Hashes and outputs -/

section Form

variable {form : Json → Json} (rearranges : Rearranges form)

include rearranges

theorem Hash256.ofJson_form (hash : Hash256) : Hash256.ofJson (form hash.toJson) = .ok hash := by
  rw [Hash256.toJson, rearranges.string, Hash256.ofJson, Hash256.ofHex_toHex]

theorem bytesOfJson_form (bytes : List UInt8) :
    bytesOfJson (form (bytesToJson bytes)) = .ok bytes := by
  rw [bytesToJson, rearranges.string, bytesOfJson, String.toList_ofList, Text.Hex.trim_encode,
    Text.Hex.decode_encode]
  rfl

theorem OutPoint.ofJson_form (outpoint : OutPoint) :
    OutPoint.ofJson (form outpoint.toJson) = .ok outpoint := by
  rw [toJson, ofJson]
  refine rearranges.read_record (by simp) fun source holds => ?_
  have txid := holds.field_eq "txid" (by decide) rfl (outpoint.txid.ofJson_form rearranges)
  have index := holds.field_eq "index" (by decide) rfl (rearranges.readUInt32 outpoint.index)
  rw [txid, index]
  exact holds.settled (by simp [Field.fault?]) rfl

/-! ## Index records -/

theorem UnspentOutput.ofJson_form (entry : UnspentOutput) :
    UnspentOutput.ofJson (form entry.toJson) = .ok entry := by
  rw [toJson, ofJson]
  refine rearranges.read_record (by simp) fun source holds => ?_
  have txid := holds.field_eq "txid" (by decide) rfl (entry.txid.ofJson_form rearranges)
  have outputIndex := holds.field_eq "outputIndex" (by decide) rfl
    (rearranges.readUInt32 entry.outputIndex)
  have amount := holds.field_eq "amountSatoshis" (by decide) rfl
    (rearranges.readInt64 entry.amount)
  have height := holds.field_eq "blockHeight" (by decide) rfl
    (rearranges.readInt32 entry.height)
  rw [txid, outputIndex, amount, height]
  exact holds.settled (by simp [Field.fault?]) rfl

theorem IndexDelta.ofJson_form (delta : IndexDelta) :
    IndexDelta.ofJson (form delta.toJson) = .ok delta := by
  rw [toJson, ofJson]
  refine rearranges.read_record (by simp) fun source holds => ?_
  have txid := holds.field_eq "txid" (by decide) rfl (delta.txid.ofJson_form rearranges)
  have height := holds.field_eq "blockHeight" (by decide) rfl
    (rearranges.readInt32 delta.height)
  have spending := holds.field_eq "spending" (by decide) rfl
    (rearranges.readBool delta.spending)
  have amount := holds.field_eq "amountSatoshis" (by decide) rfl
    (rearranges.readInt64 delta.amount)
  rw [txid, height, spending, amount]
  exact holds.settled (by simp [Field.fault?]) rfl

theorem Deposit.ofJson_form (deposit : Deposit) :
    Deposit.ofJson (form deposit.toJson) = .ok deposit := by
  rw [toJson, ofJson]
  refine rearranges.read_record (by simp) fun source holds => ?_
  have txid := holds.field_eq "txid" (by decide) rfl (deposit.txid.ofJson_form rearranges)
  have height := holds.field_eq "blockHeight" (by decide) rfl
    (rearranges.readInt32 deposit.height)
  have timestamp := holds.field_eq "timestamp" (by decide) rfl
    (rearranges.readInt64 deposit.timestamp)
  have amount := holds.field_eq "amountSatoshis" (by decide) rfl
    (rearranges.readInt64 deposit.amount)
  rw [txid, height, timestamp, amount]
  exact holds.settled (by simp [Field.fault?]) rfl

/-! ## Blocks -/

theorem TxOutput.ofJson_form (output : TxOutput) :
    TxOutput.ofJson (form output.toJson) = .ok output := by
  rw [toJson, ofJson]
  refine rearranges.read_record (by simp) fun source holds => ?_
  have value := holds.field_eq "value" (by decide) rfl (rearranges.readInt64 output.value)
  have script := holds.field_eq "scriptPubkey" (by decide) rfl
    (bytesOfJson_form rearranges output.script)
  rw [value, script]
  exact holds.settled (by simp [Field.fault?]) rfl

theorem Transaction.ofJson_form (transaction : Transaction) :
    Transaction.ofJson (form transaction.toJson) = .ok transaction := by
  rw [toJson, ofJson]
  refine rearranges.read_record (by simp) fun source holds => ?_
  have txid := holds.field_eq "txid" (by decide) rfl (transaction.txid.ofJson_form rearranges)
  have outputs := holds.field_eq "outputs" (by decide) rfl
    (rearranges.readList (TxOutput.ofJson_form rearranges) transaction.outputs)
  rw [txid, outputs]
  exact holds.settled (by simp [Field.fault?]) rfl

theorem Block.ofJson_form (block : Block) : Block.ofJson (form block.toJson) = .ok block := by
  rw [toJson, ofJson]
  refine rearranges.read_record (by simp) fun source holds => ?_
  have height := holds.field_eq "height" (by decide) rfl (rearranges.readInt32 block.height)
  have hash := holds.field_eq "hash" (by decide) rfl (block.hash.ofJson_form rearranges)
  have time := holds.field_eq "time" (by decide) rfl (rearranges.readInt64 block.time)
  have transactions := holds.field_eq "transactions" (by decide) rfl
    (rearranges.readList (Transaction.ofJson_form rearranges) block.transactions)
  rw [height, hash, time, transactions]
  exact holds.settled (by simp [Field.fault?]) rfl

/-! ## Snapshots -/

theorem AddressEntry.ofJson_form (entry : AddressEntry) :
    AddressEntry.ofJson (form entry.toJson) = .ok entry := by
  rw [toJson, ofJson]
  refine rearranges.read_record (by simp) fun source holds => ?_
  have address := holds.field_eq "address" (by decide) rfl
    (rearranges.readString entry.address)
  have deltas := holds.field_eq "deltas" (by decide) rfl
    (rearranges.readList (IndexDelta.ofJson_form rearranges) entry.deltas)
  have unspent := holds.field_eq "unspent" (by decide) rfl
    (rearranges.readList (UnspentOutput.ofJson_form rearranges) entry.unspent)
  have deposits := holds.field_eq "deposits" (by decide) rfl
    (rearranges.readList (Deposit.ofJson_form rearranges) entry.deposits)
  rw [address, deltas, unspent, deposits]
  exact holds.settled (by simp [Field.fault?]) rfl

/-- A pending change is read from every object that has its fields, whatever else it has. -/
theorem PendingDelta.ofJson_fields (delta : PendingDelta) {fields : List (String × Json)}
    (distinct : (fields.map (·.1)).Nodup)
    (written : ∀ name ∈ ["txid", "index", "addressType", "amountSatoshis", "timestamp", "prevout"],
      fields.lookup name = delta.members.lookup name) :
    PendingDelta.ofJson (form (.object fields)) = .ok delta := by
  rw [ofJson]
  refine rearranges.read_record distinct fun source holds => ?_
  have txid := holds.field_eq "txid" (by decide) (written "txid" (by decide))
    (delta.txid.ofJson_form rearranges)
  have index := holds.field_eq "index" (by decide) (written "index" (by decide))
    (rearranges.readUInt32 delta.index)
  have addressType := holds.field_eq "addressType" (by decide) (written "addressType" (by decide))
    (rearranges.readUInt8 delta.addressType)
  have amount := holds.field_eq "amountSatoshis" (by decide)
    (written "amountSatoshis" (by decide)) (rearranges.readInt64 delta.amount)
  have timestamp := holds.field_eq "timestamp" (by decide) (written "timestamp" (by decide))
    (rearranges.readInt64 delta.timestamp)
  rw [txid, index, addressType, amount, timestamp]
  obtain ⟨_, _, _, _, _, prevout⟩ := delta
  cases prevout with
  | none =>
      have absent : source.field "prevout" (readOptional OutPoint.ofJson) = none :=
        holds.field_eq_none "prevout" (by decide) (written "prevout" (by decide))
      rw [absent]
      exact holds.settled (by simp [Field.fault?]) rfl
  | some prevout =>
      have present := holds.field_eq "prevout" (by decide) (written "prevout" (by decide))
        (rearranges.readOptional_object (by simp) (prevout.ofJson_form rearranges))
      rw [present]
      exact holds.settled (by simp [Field.fault?]) rfl

theorem PendingEntry.ofJson_form (entry : PendingEntry) :
    PendingEntry.ofJson (form entry.toJson) = .ok entry := by
  have distinct : ((("address", Json.string entry.address) :: entry.delta.members).map
      (·.1)).Nodup := by
    rw [PendingDelta.members]
    cases entry.delta.prevout <;> simp
  obtain ⟨arranged, written, _⟩ := rearranges.object _ distinct
  have delta := entry.delta.ofJson_fields rearranges distinct fun name known => by
    have other : (name == "address") = false := by
      refine beq_eq_false_iff_ne.mpr fun same => ?_
      subst same
      revert known
      decide
    rw [List.lookup_cons, other]
  -- The reader asks for an object first, so the form is shown to be one before it is opened.
  rw [toJson, written, ofJson, ← written, delta]
  refine rearranges.read_record distinct fun source holds => ?_
  rw [holds.field_eq "address" (by decide) rfl (rearranges.readString entry.address)]
  rfl

theorem MempoolSnapshot.ofJson_form (mempool : MempoolSnapshot) :
    MempoolSnapshot.ofJson (form mempool.toJson) = .ok mempool := by
  rw [toJson, ofJson]
  refine rearranges.read_record (by simp) fun source holds => ?_
  have deltas := holds.field_eq "deltas" (by decide) rfl
    (rearranges.readList (PendingEntry.ofJson_form rearranges) mempool.deltas)
  have spent := holds.field_eq "spent" (by decide) rfl
    (rearranges.readList (OutPoint.ofJson_form rearranges) mempool.spent)
  have instant := holds.field_eq "instant" (by decide) rfl
    (rearranges.readList (Hash256.ofJson_form rearranges) mempool.instant)
  rw [deltas, spent, instant]
  exact holds.settled (by simp [Field.fault?]) rfl

theorem LedgerSnapshot.ofJson_form (snapshot : LedgerSnapshot) :
    LedgerSnapshot.ofJson (form snapshot.toJson) = .ok snapshot := by
  rw [toJson, ofJson]
  refine rearranges.read_record (by simp) fun source holds => ?_
  have tipHeight := holds.field_eq "tipHeight" (by decide) rfl
    (rearranges.readInt32 snapshot.tipHeight)
  have median : readOptional readInt64
      (form ((snapshot.medianTimePast.map int64ToJson).getD .null)) =
        .ok snapshot.medianTimePast := by
    cases snapshot.medianTimePast with
    | none => rw [Option.map_none, Option.getD_none, rearranges.null, readOptional]
    | some time =>
        have present : form (.integer time.toInt) ≠ .null := by simp [rearranges.integer]
        exact readOptional_some present (rearranges.readInt64 time)
  have medianTimePast := holds.field_eq "medianTimePast" (by decide) rfl median
  have blocks := holds.field_eq "blocks" (by decide) rfl
    (rearranges.readList (Block.ofJson_form rearranges) snapshot.blocks)
  have addresses := holds.field_eq "addresses" (by decide) rfl
    (rearranges.readList (AddressEntry.ofJson_form rearranges) snapshot.addresses)
  have mempool := holds.field_eq "mempool" (by decide) rfl (snapshot.mempool.ofJson_form rearranges)
  rw [tipHeight, medianTimePast, blocks, addresses, mempool]
  exact holds.settled (by simp [Field.fault?]) rfl

end Form

namespace LedgerSnapshot

/-- **A written snapshot is read back as it was**, in its own and in canonical form, and writing
down what was read from any value and reading it again changes nothing. -/
theorem ofJson_toJson :
    (∀ snapshot : LedgerSnapshot,
      ofJson snapshot.toJson = .ok snapshot ∧ ofJson snapshot.toJson.canonical = .ok snapshot) ∧
    ∀ value : Json,
      (ofJson value >>= fun snapshot => ofJson snapshot.toJson) = ofJson value ∧
      (ofJson value >>= fun snapshot => ofJson snapshot.toJson.canonical) = ofJson value := by
  have written (snapshot : LedgerSnapshot) : ofJson snapshot.toJson = .ok snapshot :=
    snapshot.ofJson_form rearranges_id
  have arranged (snapshot : LedgerSnapshot) : ofJson snapshot.toJson.canonical = .ok snapshot :=
    snapshot.ofJson_form rearranges_canonical
  refine ⟨fun snapshot => ⟨written snapshot, arranged snapshot⟩, fun value => ?_⟩
  cases ofJson value with
  | error fault => exact ⟨rfl, rfl⟩
  | ok snapshot => exact ⟨written snapshot, arranged snapshot⟩

/-- Unknown members, fields that are left out, upper-case digits and blanks around them are read as
if nothing of that were there. -/
example :
    (ofJson (.object [("comment", .null), ("mempool", .object [("instant", .array
      [.string "\t 00000000000000000000000000000000000000000000000000000000000000AB\n"])]),
      ("tipHeight", .integer 7)])).toOption =
        some {
          tipHeight := 7
          mempool := { instant := [⟨0xab :: List.replicate 31 0, rfl⟩] } } := by
  decide +kernel

end LedgerSnapshot

end CoinLedger
