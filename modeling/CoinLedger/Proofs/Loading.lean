import CoinLedger.Ledger
import CoinLedger.Proofs.Address
import CoinLedger.Proofs.Order
import CoinLedger.Proofs.Sorting

/-!
# Loaded ledgers

A ledger that is loaded from a snapshot has under each key the records of all entries whose address
resolves to the key, however it is spelled (`records_ofSnapshot`).  The unspent outputs of a key
stand by height, transaction and position (`indexOf_unspent`), its deposits by time and transaction
(`indexOf_deposits`).
-/

set_option autoImplicit false

namespace CoinLedger

open Std

instance : TransCmp UnspentOutput.ledgerOrder :=
  inferInstanceAs (TransCmp (compareLex (compareOn UnspentOutput.height)
    (compareLex (compareOn UnspentOutput.txid) (compareOn UnspentOutput.outputIndex))))

instance : TransCmp Deposit.ledgerOrder :=
  inferInstanceAs (TransCmp (compareLex (compareOn Deposit.timestamp) (compareOn Deposit.txid)))

/-! ## The orders of the indexes -/

namespace UnspentOutput

/-- What the index of unspent outputs is sorted by. -/
def place (output : UnspentOutput) : Int32 × Txid × UInt32 :=
  (output.height, output.txid, output.outputIndex)

/-- By height, then by the bytes of the transaction, then by position. -/
def UpTo (earlier later : UnspentOutput) : Prop :=
  earlier.height < later.height ∨ earlier.height = later.height ∧
    (earlier.txid.bytes < later.txid.bytes ∨ earlier.txid = later.txid ∧
      earlier.outputIndex ≤ later.outputIndex)

theorem isLE_ledgerOrder (left right : UnspentOutput) :
    (ledgerOrder left right).isLE = true ↔ UpTo left right := by
  unfold ledgerOrder UpTo compareLex compareOn
  rw [Ordering.isLE_then_iff_or, Ordering.isLE_then_iff_or, compare_eq_lt, Hash256.compare_eq_lt,
    LawfulEqOrd.compare_eq_iff_eq, LawfulEqOrd.compare_eq_iff_eq, isLE_compare]

theorem ledgerOrder_eq_eq (left right : UnspentOutput) :
    ledgerOrder left right = .eq ↔ right.place = left.place := by
  unfold ledgerOrder place compareLex compareOn
  simp only [Ordering.then_eq_eq, LawfulEqOrd.compare_eq_iff_eq, Prod.mk.injEq]
  exact ⟨fun ⟨height, txid, index⟩ => ⟨height.symm, txid.symm, index.symm⟩,
    fun ⟨height, txid, index⟩ => ⟨height.symm, txid.symm, index.symm⟩⟩

end UnspentOutput

namespace Deposit

/-- What the index of deposits is sorted by. -/
def place (deposit : Deposit) : Int64 × Txid :=
  (deposit.timestamp, deposit.txid)

/-- By time, then by the bytes of the transaction. -/
def UpTo (earlier later : Deposit) : Prop :=
  earlier.timestamp < later.timestamp ∨ earlier.timestamp = later.timestamp ∧
    (earlier.txid.bytes < later.txid.bytes ∨ earlier.txid = later.txid)

theorem isLE_ledgerOrder (left right : Deposit) :
    (ledgerOrder left right).isLE = true ↔ UpTo left right := by
  have isLE_iff : (compare left.txid right.txid).isLE = true ↔
      left.txid.bytes < right.txid.bytes ∨ left.txid = right.txid := by
    rw [Ordering.isLE_iff_eq_lt_or_eq_eq, Hash256.compare_eq_lt, LawfulEqOrd.compare_eq_iff_eq]
  unfold ledgerOrder UpTo compareLex compareOn
  rw [Ordering.isLE_then_iff_or, compare_eq_lt, LawfulEqOrd.compare_eq_iff_eq, isLE_iff]

theorem ledgerOrder_eq_eq (left right : Deposit) :
    ledgerOrder left right = .eq ↔ right.place = left.place := by
  unfold ledgerOrder place compareLex compareOn
  simp only [Ordering.then_eq_eq, LawfulEqOrd.compare_eq_iff_eq, Prod.mk.injEq]
  exact ⟨fun ⟨time, txid⟩ => ⟨time.symm, txid.symm⟩, fun ⟨time, txid⟩ => ⟨time.symm, txid.symm⟩⟩

end Deposit

namespace LedgerSnapshot

/-- The entries of a key, in the order in which they are written down. -/
def entriesOf (snapshot : LedgerSnapshot) (network : Network) (key : AddressKey) :
    List AddressEntry :=
  snapshot.addresses.filter fun entry => network.keyOf? entry.address = some key

/-- The unspent outputs of a key, as they are written down. -/
def unspentOf (snapshot : LedgerSnapshot) (network : Network) (key : AddressKey) :
    List UnspentOutput :=
  (snapshot.entriesOf network key).flatMap (·.unspent)

/-- The deposits of a key, as they are written down. -/
def depositsOf (snapshot : LedgerSnapshot) (network : Network) (key : AddressKey) : List Deposit :=
  (snapshot.entriesOf network key).flatMap (·.deposits)

/-- The records of a key, sorted where an index is. -/
def recordsOf (snapshot : LedgerSnapshot) (network : Network) (key : AddressKey) :
    AddressRecords where
  deltas := (snapshot.entriesOf network key).flatMap (·.deltas)
  unspent := (snapshot.unspentOf network key).mergeSort fun left right =>
    (UnspentOutput.ledgerOrder left right).isLE
  deposits := (snapshot.depositsOf network key).mergeSort fun left right =>
    (Deposit.ledgerOrder left right).isLE

end LedgerSnapshot

namespace Ledger

variable {network : Network}

/-- The items of a key are those whose address resolves to it, in their order. -/
theorem map_filter_resolveEach {α : Type} {address : α → String} {items : List α}
    {resolved : List (AddressKey × α)} (resolves : resolveEach network address items = .ok resolved)
    (key : AddressKey) :
    (resolved.filter (·.1 = key)).map (·.2) =
      items.filter fun item => network.keyOf? (address item) = some key := by
  induction items generalizing resolved with
  | nil =>
      cases resolves
      rfl
  | cons item rest ih =>
      rw [resolveEach] at resolves
      cases known : network.resolve (address item) with
      | error error =>
          rw [known] at resolves
          cases resolves
      | ok found =>
          rw [known] at resolves
          cases others : resolveEach network address rest with
          | error error =>
              rw [others] at resolves
              cases resolves
          | ok later =>
              rw [others] at resolves
              cases resolves
              have spelled := Network.keyOf?_eq_some known
              by_cases own : found = key
              · simp [own, ih others, spelled]
              · simp [own, ih others, spelled]

theorem lookup_map_gather (keys : List AddressKey) (entries : List (AddressKey × AddressEntry))
    (key : AddressKey) :
    (keys.map fun key => (key, gather entries key)).lookup key =
      if key ∈ keys then some (gather entries key) else none := by
  induction keys with
  | nil => rfl
  | cons first rest ih =>
      by_cases own : key = first
      · simp [own]
      · have differs : (key == first) = false := beq_false_of_ne own
        simp [List.lookup_cons, differs, own, ih]

/-- A key without an entry has no records. -/
theorem gather_of_not_mem {entries : List (AddressKey × AddressEntry)} {key : AddressKey}
    (absent : key ∉ entries.map (·.1)) : gather entries key = {} := by
  have none : entries.filter (·.1 = key) = [] := by
    refine List.filter_eq_nil_iff.mpr fun entry member same => absent ?_
    exact List.mem_map.mpr ⟨entry, member, of_decide_eq_true same⟩
  simp [gather, none]

/-- **A key has the records of all entries that resolve to it.** -/
theorem records_ofSnapshot {snapshot : LedgerSnapshot} {ledger : Ledger}
    (loaded : ofSnapshot network snapshot = .ok ledger) (key : AddressKey) :
    ledger.records key = snapshot.recordsOf network key := by
  rw [ofSnapshot] at loaded
  split at loaded
  · cases loaded
  next entries resolves =>
    split at loaded
    · cases loaded
    next pending _ =>
      cases loaded
      have gathered : gather entries key = snapshot.recordsOf network key := by
        rw [gather, map_filter_resolveEach resolves key]
        rfl
      rw [records, lookup_map_gather]
      by_cases present : key ∈ entries.map (·.1)
      · rw [if_pos (List.mem_eraseDups.mpr present)]
        exact gathered
      · rw [if_neg fun listed => present (List.mem_eraseDups.mp listed)]
        exact (gather_of_not_mem present).symm.trans gathered

/-- **The unspent outputs of a key stand in the order of the index.** -/
theorem indexOf_unspent {snapshot : LedgerSnapshot} {ledger : Ledger}
    (loaded : ofSnapshot network snapshot = .ok ledger) (key : AddressKey) :
    IndexOf UnspentOutput.UpTo UnspentOutput.place (snapshot.unspentOf network key)
      (ledger.unspent key) := by
  rw [unspent, records_ofSnapshot loaded]
  exact indexOf_mergeSort UnspentOutput.isLE_ledgerOrder UnspentOutput.ledgerOrder_eq_eq _

/-- **The deposits of a key stand in the order of the index.** -/
theorem indexOf_deposits {snapshot : LedgerSnapshot} {ledger : Ledger}
    (loaded : ofSnapshot network snapshot = .ok ledger) (key : AddressKey) :
    IndexOf Deposit.UpTo Deposit.place (snapshot.depositsOf network key) (ledger.deposits key) := by
  rw [deposits, records_ofSnapshot loaded]
  exact indexOf_mergeSort Deposit.isLE_ledgerOrder Deposit.ledgerOrder_eq_eq _

end Ledger

end CoinLedger
