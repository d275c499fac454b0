import CoinLedger.Proofs.Balance.Batch
import CoinLedger.Proofs.Listing.Unspent
import CoinLedger.Proofs.Progress.Locks

/-!
# Reports along a chain

What is reported of a later state of a chain is what was reported before, up to locks that have been
lifted: a page shows the same outputs, and those that were spendable still are
(`Source.Advances.unspentPage`); a batch of balances has the same totals, of which no more is locked
(`Source.Advances.batchAnswer`).
-/

set_option autoImplicit false

namespace CoinLedger

open Amount

/-! ## Listings -/

/-- The entry of the same output, which may have become spendable. -/
structure UnspentEntry.Eased (before after : UnspentEntry) : Prop where
  output : after.output = before.output
  inMempool : after.inMempool = before.inMempool
  spendable : before.spendable = true → after.spendable = true

/-- The same page at a later height, with entries that may have become spendable. -/
structure UnspentPage.Eased (before after : UnspentPage) : Prop where
  count : after.count = before.count
  pages : after.pages = before.pages
  page : after.page = before.page
  blockHeight : before.blockHeight ≤ after.blockHeight
  address : after.address = before.address
  script : after.script = before.script
  entries : List.Forall₂ UnspentEntry.Eased before.entries after.entries

namespace Source.Advances

variable {first second : Source} (advances : first.Advances second)

include advances

theorem markAnswer (key : AddressKey) (outputs : List UnspentOutput) (reads laterReads : Nat) :
    Answer.Agree (List.Forall₂ UnspentEntry.Eased)
      (first.markAnswer key (withReads (first.outputReads key) reads outputs))
      (second.markAnswer key (withReads (second.outputReads key) laterReads outputs)) := by
  induction outputs generalizing reads laterReads with
  | nil => exact .answers .nil
  | cons output rest ih =>
      refine (advances.isTimeLocked reads laterReads output.height output.txid key).bind
        fun before after eased => (ih _ _).bind fun entries laterEntries others =>
          .answers (.cons ?_ others)
      exact {
        output := rfl
        inMempool := advances.isSpent output.outpoint
        spendable := fun free => by
          cases after with
          | false => rfl
          | true =>
              rw [unspentEntry, eased rfl] at free
              cases free }

theorem unspentWindow (key : AddressKey) (window : Window) (ascending : Bool) :
    second.unspentWindow key window ascending = first.unspentWindow key window ascending := by
  simp only [Source.unspentWindow, Ledger.unspentSlice, Ledger.unspentSliceBack,
    Ledger.newestUnspent, advances.unspent]

/-- **A page shows the same outputs in a later state**, and those that were spendable still are. -/
theorem unspentPage (address : String) (query : UnspentQuery) (reads laterReads : Nat) :
    Answer.Agree UnspentPage.Eased (first.unspentPage address query reads)
      (second.unspentPage address query laterReads) := by
  rw [Source.unspentPage, Source.unspentPage, advances.network]
  refine .bind_same _ fun _ => .bind_same _ fun key => ?_
  rw [advances.unspentCount]
  by_cases empty : first.ledger.unspentCount key = 0
  · rw [if_pos empty, if_pos empty]
    exact .fails _
  · rw [if_neg empty, if_neg empty]
    refine .bind_same _ fun _ => ?_
    rw [windowLooks, windowLooks, advances.unspentCount, advances.unspentWindow]
    refine (advances.markAnswer key _ reads laterReads).bind fun before after entries =>
      .answers ?_
    exact {
      count := rfl
      pages := rfl
      page := rfl
      blockHeight := advances.tip
      address := rfl
      script := rfl
      entries }

end Source.Advances

/-! ## Balances -/

/-- The balance of the same address, of which no more is locked. -/
structure BalanceSnapshot.Eased (before after : BalanceSnapshot) : Prop where
  address : after.address = before.address
  balance : after.balance = before.balance
  received : after.received = before.received
  unconfirmedDelta : after.unconfirmedDelta = before.unconfirmedDelta
  locked : after.locked.toInt ≤ before.locked.toInt

/-- The same report, except that less may be locked. -/
structure BalanceReport.Eased (before after : BalanceReport) : Prop where
  snapshots : List.Forall₂ BalanceSnapshot.Eased before.snapshots after.snapshots
  unconfirmedByTx : after.unconfirmedByTx = before.unconfirmedByTx
  failures : after.failures = before.failures

namespace Source

namespace Advances

variable {first second : Source} (advances : first.Advances second)

include advances

theorem indexDeltas (key : AddressKey) :
    second.ledger.indexDeltas key = first.ledger.indexDeltas key := by
  rw [Ledger.indexDeltas, Ledger.indexDeltas, advances.records]

theorem pendingDeltas (key : AddressKey) :
    second.ledger.pendingDeltas key = first.ledger.pendingDeltas key := by
  rw [Ledger.pendingDeltas, Ledger.pendingDeltas, advances.pending]

theorem isInstant (txid : Txid) : second.ledger.isInstant txid = first.ledger.isInstant txid := by
  rw [Ledger.isInstant, Ledger.isInstant, advances.instant]

theorem finalAmounts (key : AddressKey) : second.finalAmounts key = first.finalAmounts key := by
  simp only [Source.finalAmounts, instantDeltas, advances.indexDeltas, advances.pendingDeltas,
    advances.isInstant]

theorem openDeltas (key : AddressKey) : second.openDeltas key = first.openDeltas key := by
  simp only [Source.openDeltas, advances.pendingDeltas, advances.isInstant]

theorem evaluated (texts : List String) : second.evaluated texts = first.evaluated texts := by
  rw [Source.evaluated, Source.evaluated, advances.network]

theorem openBatch (texts : List String) : second.openBatch texts = first.openBatch texts := by
  simp only [Source.openBatch, advances.evaluated, advances.openDeltas]

theorem refused (texts : List String) : second.refused texts = first.refused texts := by
  rw [Source.refused, Source.refused, advances.network]

theorem lookupErrors (texts : List String) :
    second.lookupErrors texts = first.lookupErrors texts := by
  have lookups (key : AddressKey) : second.lookupError? key = first.lookupError? key := by
    funext delta
    rw [lookupError?, lookupError?, advances.lockOutput]
  simp only [Source.lookupErrors, advances.evaluated, advances.indexDeltas, lookups]

theorem batchFits {texts : List String} (fits : first.BatchFits texts) :
    second.BatchFits texts where
  keys entry member := by
    rw [advances.evaluated] at member
    obtain ⟨balance, received, unconfirmedDelta⟩ := fits.keys entry member
    rw [← advances.finalAmounts] at balance received
    rw [← advances.openDeltas] at unconfirmedDelta
    exact ⟨balance, received, unconfirmedDelta⟩
  transactions := by
    rw [advances.openBatch]
    exact fits.transactions

/-- A receipt that is locked in a later state was locked before. -/
theorem isLockedReceipt (key : AddressKey) (reads laterReads : Nat) (delta : IndexDelta) :
    Eased (first.isLockedReceipt key (first.referenceTime reads) delta)
      (second.isLockedReceipt key (second.referenceTime laterReads) delta) := by
  have agree := advances.isTimeLocked reads laterReads delta.height delta.txid key
  rw [Eased, Source.isLockedReceipt, Source.isLockedReceipt, Bool.and_eq_true, Bool.and_eq_true]
  generalize first.isTimeLocked _ delta.height delta.txid key = before at agree ⊢
  generalize second.isTimeLocked _ delta.height delta.txid key = after at agree ⊢
  cases agree with
  | fails error => exact id
  | answers eased => exact And.imp_right eased

/-- Receipts that are still locked in a later state were locked before. -/
theorem lockedDeltas_sublist (key : AddressKey) (reads laterReads : Nat) :
    (second.lockedDeltas key laterReads).Sublist (first.lockedDeltas key reads) := by
  obtain ⟨earlier, later, stands, laterStands⟩ := advances.exists_standsAt
  rw [lockedDeltas_of_standsAt stands, lockedDeltas_of_standsAt laterStands, advances.indexDeltas,
    ← stands reads, ← laterStands laterReads]
  exact List.monotone_filter_right _ (advances.isLockedReceipt key reads laterReads)

/-- **The totals of a key are the same in a later state**, and no more of them is locked. -/
theorem balances {key : AddressKey} {reads laterReads : Nat} {before after : BalanceSnapshot}
    (exact : first.Balances key reads before) (later : second.Balances key laterReads after)
    (address : after.address = before.address) : BalanceSnapshot.Eased before after where
  address
  balance := by
    rw [← Int64.toInt_inj, later.balance, exact.balance, advances.finalAmounts]
  received := by
    rw [← Int64.toInt_inj, later.received, exact.received, advances.finalAmounts]
  unconfirmedDelta := by
    rw [← Int64.toInt_inj, later.unconfirmedDelta, exact.unconfirmedDelta, advances.openDeltas]
  locked := by
    rw [later.locked, exact.locked]
    refine total_le_of_sublist ((advances.lockedDeltas_sublist key reads laterReads).map _) ?_
    intro amount member
    obtain ⟨delta, locked, rfl⟩ := List.mem_map.mp member
    obtain ⟨look, kept, rfl⟩ := List.mem_map.mp locked
    have receipt := (Bool.and_eq_true_iff.mp (List.mem_filter.mp kept).2).1
    exact Int64.le_of_lt (of_decide_eq_true receipt)

/-- Reports of the same texts are the same, except that less may be locked. -/
theorem reports {texts : List String} {reads laterReads : Nat} {before after : BalanceReport}
    (reports : first.Reports texts reads before)
    (later : second.Reports texts laterReads after) : BalanceReport.Eased before after where
  snapshots := by
    have entries : List.Forall₂
        (fun entry snapshot => ∃ reads, snapshot.address = entry.1 ∧
          first.Balances entry.2 reads snapshot) (first.evaluated texts) before.snapshots :=
      (forall₂_of_withReads reports.snapshots).imp fun _ _ told =>
        told.imp fun _ told => told.2.2
    have laterEntries : List.Forall₂
        (fun entry snapshot => ∃ reads, snapshot.address = entry.1 ∧
          second.Balances entry.2 reads snapshot) (second.evaluated texts) after.snapshots :=
      (forall₂_of_withReads later.snapshots).imp fun _ _ told =>
        told.imp fun _ told => told.2.2
    rw [advances.evaluated] at laterEntries
    refine forall₂_of_common ?_ entries laterEntries
    rintro entry before after ⟨_, address, exact⟩ ⟨_, laterAddress, later⟩
    exact advances.balances exact later (laterAddress.trans address.symm)
  unconfirmedByTx := by
    have sums := later.sums
    rw [advances.openBatch] at sums
    exact sums.unique reports.sums (List.Perm.refl _)
  failures := by rw [later.failures, reports.failures, advances.refused]

/-- **A batch whose sums are amounts reports the same in a later state**, except that less may be
locked. -/
theorem batchAnswer {texts : List String} (fits : first.BatchFits texts) (reads laterReads : Nat) :
    Answer.Agree BalanceReport.Eased (first.batchAnswer texts reads)
      (second.batchAnswer texts laterReads) := by
  have laterFits := advances.batchFits fits
  cases failed : first.lookupErrors texts with
  | cons error others =>
      have later := (advances.lookupErrors texts).trans failed
      rw [fits.lookupFails reads failed, laterFits.lookupFails laterReads later]
      exact .fails error
  | nil =>
      have later := (advances.lookupErrors texts).trans failed
      by_cases none : first.evaluated texts = []
      · have laterNone := (advances.evaluated texts).trans none
        rw [fits.noneResolves reads failed none,
          laterFits.noneResolves laterReads later laterNone, advances.refused]
        exact .fails _
      · have some : second.evaluated texts ≠ [] := advances.evaluated texts ▸ none
        obtain ⟨report, answered⟩ := fits.exists_report reads failed none
        obtain ⟨laterReport, laterAnswered⟩ := laterFits.exists_report laterReads later some
        rw [answered, laterAnswered]
        exact .answers (advances.reports (reports_of_batchAnswer answered)
          (reports_of_batchAnswer laterAnswered))

end Advances

end Source

end CoinLedger
