import CoinLedger.Proofs.Balance.Batch
import CoinLedger.Proofs.BlockLedger
import CoinLedger.Proofs.Related

/-!
# Reports of balances

What a batch answers when its cache has room, in exact numbers (`balances_report`): the error of the
first lookup that fails, the errors of all texts when none of them resolves, and otherwise a report
with the exact totals of every text that resolves, in the order of first appearance.  Its sums by
transaction are those of the open changes of all texts, and they come to the sum of what is
unconfirmed.  Where the reference time stands still, the order of the changes in the ledger does not
show in a report (`batchAnswer_reordered`), and the order of the texts shows in the order of the
entries alone (`sameUpToOrder_reordered`).
-/

set_option autoImplicit false

namespace CoinLedger

open Amount

/-- The same ledger for balances, except that the changes of each key may stand in another order. -/
structure Ledger.Reordered (left right : Ledger) : Prop where
  tipHeight : right.tipHeight = left.tipHeight
  medianTimePast : right.medianTimePast = left.medianTimePast
  blocks : right.blocks = left.blocks
  instant : right.instant = left.instant
  indexDeltas : ∀ key, (left.indexDeltas key).Perm (right.indexDeltas key)
  pendingDeltas : ∀ key, (left.pendingDeltas key).Perm (right.pendingDeltas key)

/-- The answers of two batches agree up to the order of the entries; where lookups fail, each tells
of one of the errors. -/
inductive SameUpToOrder (errors : List QueryError) :
    Answer BalanceReport → Answer BalanceReport → Prop
  | reports {left right : BalanceReport} (snapshots : left.snapshots.Perm right.snapshots)
      (unconfirmedByTx : left.unconfirmedByTx = right.unconfirmedByTx)
      (failures : left.failures.Perm right.failures) : SameUpToOrder errors (.ok left) (.ok right)
  | noneResolves {left right : List AddressFailure} (failures : left.Perm right) :
      SameUpToOrder errors (.error (.addressNotFound left)) (.error (.addressNotFound right))
  | lookupFails {left right : QueryError} (first : left ∈ errors) (second : right ∈ errors) :
      SameUpToOrder errors (.error left) (.error right)

namespace Source

variable {source : Source}

/-- The report tells the exact totals of distinct texts, the first of which is evaluated after the
given number of readings of the time of day. -/
structure ReportsExactly (source : Source) (texts : List String) (reads : Nat)
    (report : BalanceReport) : Prop where
  /-- One balance for each text that resolves, in their order. -/
  snapshots : List.Forall₂
    (fun look snapshot => snapshot.address = look.1.1 ∧ source.Balances look.1.2 look.2 snapshot)
    (source.entryLooks texts reads) report.snapshots
  failures : report.failures = source.refused texts
  sorted : report.unconfirmedByTx.Sorted
  mem_unconfirmedByTx : ∀ txid, txid ∈ report.unconfirmedByTx.map Prod.fst ↔
    ∃ entry ∈ source.evaluated texts, ∃ delta ∈ source.ledger.pendingDeltas entry.2,
      source.ledger.isInstant delta.txid = false ∧ delta.txid = txid
  sum : ∀ entry ∈ report.unconfirmedByTx,
    entry.2.toInt = TxidSums.totalFor (source.openBatch texts) entry.1
  sum_unconfirmedByTx : (report.unconfirmedByTx.map fun entry => entry.2.toInt).sum =
    (report.snapshots.map fun snapshot => snapshot.unconfirmedDelta.toInt).sum

/-- What a batch of distinct texts answers. -/
structure AnswersBatch (source : Source) (texts : List String) (reads : Nat)
    (answer : Answer BalanceReport) : Prop where
  lookupFails : ∀ error later, source.lookupErrors texts = error :: later → answer = .error error
  noneResolves : source.lookupErrors texts = [] → source.evaluated texts = [] →
    answer = .error (.addressNotFound (source.refused texts))
  reports : source.lookupErrors texts = [] → source.evaluated texts ≠ [] →
    ∃ report, answer = .ok report ∧ source.ReportsExactly texts reads report

/-! ## Exact reports -/

theorem mem_openBatch {texts : List String} {delta : PendingDelta} :
    delta ∈ source.openBatch texts ↔ ∃ entry ∈ source.evaluated texts,
      delta ∈ source.ledger.pendingDeltas entry.2 ∧ source.ledger.isInstant delta.txid = false := by
  simp [openBatch, openDeltas]

/-- What the texts of a batch have open comes to the total of all open changes. -/
theorem sum_open (texts : List String) :
    ((source.evaluated texts).map fun entry =>
      total ((source.openDeltas entry.2).map (·.amount))).sum =
        total ((source.openBatch texts).map (·.amount)) := by
  rw [openBatch, List.map_flatMap, total_flatMap]

theorem Reports.exactly {texts : List String} {reads : Nat} {report : BalanceReport}
    (reports : source.Reports texts reads report) : source.ReportsExactly texts reads report where
  snapshots := reports.snapshots
  failures := reports.failures
  sorted := reports.sums.sorted
  mem_unconfirmedByTx txid := by
    rw [reports.sums.mem_keys]
    constructor
    · rintro ⟨delta, member, same⟩
      obtain ⟨entry, listed, pending, notFinal⟩ := mem_openBatch.mp member
      exact ⟨entry, listed, delta, pending, notFinal, same⟩
    · rintro ⟨entry, listed, delta, pending, notFinal, same⟩
      exact ⟨delta, mem_openBatch.mpr ⟨entry, listed, pending, notFinal⟩, same⟩
  sum _ member := reports.sums.value member
  sum_unconfirmedByTx := by
    have each : (source.entryLooks texts reads).map
          (fun look => total ((source.openDeltas look.1.2).map (·.amount))) =
        report.snapshots.map fun snapshot => snapshot.unconfirmedDelta.toInt :=
      map_eq_of_forall₂ (fun _ _ exact => exact.2.unconfirmedDelta.symm) reports.snapshots
    rw [reports.sums.sum_values, ← sum_open, ← each, ← map_fst_entryLooks texts reads, List.map_map]
    rfl

theorem BatchFits.answersBatch {texts : List String} (fits : source.BatchFits texts) (reads : Nat) :
    source.AnswersBatch texts reads (source.batchAnswer texts reads) where
  lookupFails _ _ fails := fits.lookupFails reads fails
  noneResolves := fits.noneResolves reads
  reports succeeds some := by
    obtain ⟨report, answered⟩ := fits.exists_report reads succeeds some
    exact ⟨report, answered, (reports_of_batchAnswer answered).exactly⟩

/-! ## Other orders -/

/-- The balance shows the exact totals of an entry of a batch, wherever the reference time stands.
-/
def TellsEntry (source : Source) (entry : String × AddressKey) (snapshot : BalanceSnapshot) :
    Prop :=
  snapshot.address = entry.1 ∧ source.Balances entry.2 0 snapshot

theorem rightUnique_tellsEntry : Relator.RightUnique source.TellsEntry := by
  rintro entry left right ⟨address, exact⟩ ⟨other, same⟩
  exact exact.unique same (address.trans other.symm)

theorem reordered_refl (ledger : Ledger) : ledger.Reordered ledger where
  tipHeight := rfl
  medianTimePast := rfl
  blocks := rfl
  instant := rfl
  indexDeltas _ := .refl _
  pendingDeltas _ := .refl _

section Reordered

variable {time : Int64} {ledger : Ledger} (stands : source.StandsAt time)
  (reordered : source.ledger.Reordered ledger)

include reordered

theorem standsAt_reordered (stands : source.StandsAt time) :
    ({ source with ledger } : Source).StandsAt time := by
  intro reads
  rw [← stands reads]
  exact congrArg (Option.getD · _) reordered.medianTimePast

theorem lockOutput_reordered (height : Int32) (txid : Txid) (key : AddressKey) :
    ({ source with ledger } : Source).lockOutput height txid key =
      source.lockOutput height txid key := by
  simp only [lockOutput, Ledger.readBlock, reordered.blocks]

theorem isLockedReceipt_reordered (key : AddressKey) :
    ({ source with ledger } : Source).isLockedReceipt key time =
      source.isLockedReceipt key time := by
  have lockedAt : ({ source with ledger } : Source).lockedAt time = source.lockedAt time := by
    funext output
    cases output with
    | none => rfl
    | some output => exact congrArg (lockActive output.lockTime · time) reordered.tipHeight
  funext delta
  simp only [isLockedReceipt, isTimeLocked, lockOutput_reordered reordered, lockedAt]

theorem openDeltas_reordered (key : AddressKey) :
    (source.openDeltas key).Perm (({ source with ledger } : Source).openDeltas key) := by
  simp only [openDeltas, Ledger.isInstant, reordered.instant]
  exact (reordered.pendingDeltas key).filter _

theorem finalAmounts_reordered (key : AddressKey) :
    (source.finalAmounts key).Perm (({ source with ledger } : Source).finalAmounts key) := by
  simp only [finalAmounts, instantDeltas, Ledger.isInstant, reordered.instant]
  exact ((reordered.indexDeltas key).map _).append (((reordered.pendingDeltas key).filter _).map _)

include stands

theorem lockedDeltas_reordered (key : AddressKey) (reads others : Nat) :
    (source.lockedDeltas key reads).Perm
      (({ source with ledger } : Source).lockedDeltas key others) := by
  rw [lockedDeltas_of_standsAt stands,
    lockedDeltas_of_standsAt (standsAt_reordered reordered stands),
    isLockedReceipt_reordered reordered]
  exact (reordered.indexDeltas key).filter _

/-- The totals of a key do not depend on the order of its changes. -/
theorem Balances.of_reordered {key : AddressKey} {reads others : Nat} {snapshot : BalanceSnapshot}
    (exact : ({ source with ledger } : Source).Balances key others snapshot) :
    source.Balances key reads snapshot := by
  have final := finalAmounts_reordered reordered key
  exact {
    balance := exact.balance.trans (total_perm final).symm
    locked := exact.locked.trans
      (total_perm ((lockedDeltas_reordered stands reordered key reads others).map _)).symm
    received := exact.received.trans (total_perm (final.filter _)).symm
    unconfirmedDelta := exact.unconfirmedDelta.trans
      (total_perm ((openDeltas_reordered reordered key).map _)).symm }

/-- The balances of a report tell of the same entries as in the other order of the changes. -/
theorem Reports.tellsEntries {texts : List String} {reads : Nat} {report : BalanceReport}
    (reports : ({ source with ledger } : Source).Reports texts reads report) :
    List.Forall₂ source.TellsEntry (source.evaluated texts) report.snapshots := by
  have same : source.evaluated texts =
      (({ source with ledger } : Source).entryLooks texts reads).map Prod.fst :=
    (@map_fst_entryLooks { source with ledger } texts reads).symm
  rw [same, List.forall₂_map_left_iff]
  exact reports.snapshots.imp fun _ _ exact =>
    ⟨exact.1, exact.2.of_reordered stands reordered⟩

omit stands

section Texts

variable {texts others : List String} (permuted : texts.Perm others)

include permuted

theorem lookupErrors_reordered :
    (source.lookupErrors texts).Perm (({ source with ledger } : Source).lookupErrors others) := by
  have lookups : ∀ key, ({ source with ledger } : Source).lookupError? key =
      source.lookupError? key := fun key => funext fun delta => by
    simp only [lookupError?, lockOutput_reordered reordered]
  simp only [lookupErrors, lookups]
  exact (permuted.filterMap _).flatMap fun entry _ => (reordered.indexDeltas entry.2).filterMap _

theorem openBatch_reordered :
    (source.openBatch texts).Perm (({ source with ledger } : Source).openBatch others) :=
  (permuted.filterMap _).flatMap fun entry _ => openDeltas_reordered reordered entry.2

end Texts

include stands

/-- **The order of texts and changes shows in the order of the entries alone.** -/
theorem sameUpToOrder_reordered {texts others : List String} (permuted : texts.Perm others)
    (fits : source.BatchFits texts) (otherFits : ({ source with ledger } : Source).BatchFits others)
    (reads otherReads : Nat) :
    SameUpToOrder (source.lookupErrors texts) (source.batchAnswer texts reads)
      (({ source with ledger } : Source).batchAnswer others otherReads) := by
  have errors := lookupErrors_reordered reordered permuted
  have evaluated : (source.evaluated texts).Perm (source.evaluated others) := permuted.filterMap _
  have failures : (source.refused texts).Perm (source.refused others) :=
    (permuted.filter _).map _
  cases failed : source.lookupErrors texts with
  | nil =>
      rw [failed] at errors
      by_cases none : source.evaluated texts = []
      · rw [none] at evaluated
        rw [fits.noneResolves reads failed none,
          otherFits.noneResolves otherReads errors.nil_eq.symm evaluated.nil_eq.symm]
        exact .noneResolves failures
      · have some : source.evaluated others ≠ [] := fun empty =>
          none (List.perm_nil.mp (empty ▸ evaluated))
        obtain ⟨left, answered⟩ := fits.exists_report reads failed none
        obtain ⟨right, other⟩ := otherFits.exists_report otherReads errors.nil_eq.symm some
        have leftReports := reports_of_batchAnswer answered
        have rightReports := reports_of_batchAnswer other
        have leftTells := Reports.tellsEntries stands (reordered_refl source.ledger) leftReports
        have rightTells := rightReports.tellsEntries stands reordered
        rw [answered, other]
        refine .reports (List.rel_perm_imp rightUnique_tellsEntry leftTells rightTells evaluated)
          (leftReports.sums.unique rightReports.sums (openBatch_reordered reordered permuted)) ?_
        rw [leftReports.failures, rightReports.failures]
        exact failures
  | cons error later =>
      rw [failed] at errors
      cases others : ({ source with ledger } : Source).lookupErrors others with
      | nil => exact absurd (others ▸ errors) (by simp)
      | cons second rest =>
          rw [others] at errors
          rw [fits.lookupFails reads failed, otherFits.lookupFails otherReads others]
          exact .lookupFails List.mem_cons_self (errors.mem_iff.mpr List.mem_cons_self)

/-- **The order of the changes alone does not show at all**, unless lookups fail. -/
theorem batchAnswer_reordered {texts : List String} (fits : source.BatchFits texts)
    (otherFits : ({ source with ledger } : Source).BatchFits texts)
    (succeeds : source.lookupErrors texts = []) (reads otherReads : Nat) :
    ({ source with ledger } : Source).batchAnswer texts otherReads =
      source.batchAnswer texts reads := by
  have errors := lookupErrors_reordered reordered (List.Perm.refl texts)
  rw [succeeds] at errors
  by_cases none : source.evaluated texts = []
  · rw [fits.noneResolves reads succeeds none,
      otherFits.noneResolves otherReads errors.nil_eq.symm none]
    rfl
  · obtain ⟨left, answered⟩ := fits.exists_report reads succeeds none
    obtain ⟨right, other⟩ := otherFits.exists_report otherReads errors.nil_eq.symm none
    have leftReports := reports_of_batchAnswer answered
    have rightReports := reports_of_batchAnswer other
    have snapshots := List.right_unique_forall₂' rightUnique_tellsEntry
      (rightReports.tellsEntries stands reordered)
      (Reports.tellsEntries stands (reordered_refl source.ledger) leftReports)
    have sums := leftReports.sums.unique rightReports.sums
      (openBatch_reordered reordered (List.Perm.refl texts))
    have failures := leftReports.failures.trans rightReports.failures.symm
    rw [answered, other]
    obtain ⟨leftSnapshots, leftSums, leftFailures⟩ := left
    obtain ⟨rightSnapshots, rightSums, rightFailures⟩ := right
    cases snapshots
    cases sums
    cases failures
    rfl

end Reordered

/-- **A batch reports the exact totals of its distinct texts**, unless a lookup fails or none of
them resolves; without room for its cache it is stopped.  Where the reference time stands still, the
order of the changes does not show, and the order of the texts shows in the order of the entries
alone. -/
theorem balances_report (addresses : List String) (fits : source.BatchFits addresses.eraseDups)
    (cacheSize : Nat) (session : Session) :
    (cacheSize ≤ BlockCache.maxCapacity →
      source.AnswersBatch addresses.eraseDups session.timeReads
        ((source.balances cacheSize addresses).runIn session).1) ∧
      (BlockCache.maxCapacity < cacheSize →
        ((source.balances cacheSize addresses).runIn session).1 = .error .stopped) ∧
      ∀ time, source.StandsAt time → cacheSize ≤ BlockCache.maxCapacity →
        ∀ ledger, source.ledger.Reordered ledger →
          ∀ otherSize ≤ BlockCache.maxCapacity, ∀ otherSession,
            (({ source with ledger } : Source).BatchFits addresses.eraseDups →
              source.lookupErrors addresses.eraseDups = [] →
              ((({ source with ledger } : Source).balances otherSize addresses).runIn
                  otherSession).1 =
                ((source.balances cacheSize addresses).runIn session).1) ∧
            ∀ others, addresses.Perm others →
              ({ source with ledger } : Source).BatchFits others.eraseDups →
              SameUpToOrder (source.lookupErrors addresses.eraseDups)
                ((source.balances cacheSize addresses).runIn session).1
                ((({ source with ledger } : Source).balances otherSize others).runIn
                  otherSession).1 := by
  refine ⟨fun room => ?_, fun full => ?_, fun time stands room ledger reordered otherSize otherRoom
    otherSession => ⟨fun otherFits succeeds => ?_, fun others permuted otherFits => ?_⟩⟩
  · rw [balances_runIn, if_pos room]
    exact fits.answersBatch _
  · rw [balances_runIn, if_neg (Nat.not_le.mpr full)]
  · rw [balances_runIn, if_pos otherRoom, balances_runIn, if_pos room]
    exact batchAnswer_reordered stands reordered fits otherFits succeeds _ _
  · rw [balances_runIn, if_pos room, balances_runIn, if_pos otherRoom]
    exact sameUpToOrder_reordered stands reordered (eraseDups_perm permuted) fits otherFits _ _

/-- Ledgers of the same changes are reordered ones of each other. -/
theorem reordered_ofChanges (block : Block) {confirmed others : List IndexDelta}
    {pending otherPending : List PendingDelta} (permuted : confirmed.Perm others)
    (pendingPermuted : pending.Perm otherPending) (instant : List Txid) :
    (Ledger.ofChanges block confirmed pending instant).Reordered
      (.ofChanges block others otherPending instant) where
  tipHeight := rfl
  medianTimePast := rfl
  blocks := rfl
  instant := rfl
  indexDeltas key := by
    simp only [Ledger.ofChanges, Ledger.indexDeltas, Ledger.records, List.lookup_cons,
      List.lookup_nil]
    split
    · exact permuted
    · exact .refl _
  pendingDeltas key := ((pendingPermuted.map (AddressKey.ones, ·)).filter _).map _

/-- A key with a locked receipt and a payment, and with one pending receipt that instant send has
made final and one payment that is open. -/
def mixed : Source :=
  .ofChanges (.ofOutputs [⟨1000, Script.lockScript 5000 ++ Script.payTo .ones⟩])
    [⟨default, 10, false, 1000⟩, ⟨.filled 2, 11, true, -300⟩]
    [.at 5 (.filled 3) 250, .at 6 (.filled 4) (-400)] [.filled 3]

/-- The same ledger with the changes the other way round. -/
def mixedBack : Ledger :=
  .ofChanges (.ofOutputs [⟨1000, Script.lockScript 5000 ++ Script.payTo .ones⟩])
    [⟨.filled 2, 11, true, -300⟩, ⟨default, 10, false, 1000⟩]
    [.at 6 (.filled 4) (-400), .at 5 (.filled 3) 250] [.filled 3]

theorem reordered_mixedBack : mixed.ledger.Reordered mixedBack :=
  reordered_ofChanges _ (.swap _ _ _) (.swap _ _ _) _

/-- The batch of an address twice and a text that is no address. -/
def mixedBatch : List String :=
  [AddressKey.onesAddress, AddressKey.onesAddress, "x"]

theorem evaluated_mixed {source : Source} {texts : List String} (network : source.network = {})
    (listed : texts = [AddressKey.onesAddress, "x"] ∨ texts = ["x", AddressKey.onesAddress]) :
    source.evaluated texts = [(AddressKey.onesAddress, .ones)] := by
  have known : source.network.keyOf? AddressKey.onesAddress = some .ones :=
    Network.keyOf?_eq_some (network ▸ Network.resolve_onesAddress)
  have unknown : source.network.keyOf? "x" = none := by
    rw [network]
    decide +kernel
  rcases listed with rfl | rfl <;> simp [Source.evaluated, known, unknown]

theorem evaluated_mixedBatch {source : Source} (network : source.network = {}) :
    source.evaluated mixedBatch.eraseDups = [(AddressKey.onesAddress, .ones)] :=
  evaluated_mixed network (.inl (by decide +kernel))

theorem batchFits_mixed : mixed.BatchFits mixedBatch.eraseDups := by
  have evaluated : mixed.evaluated mixedBatch.eraseDups = _ := evaluated_mixedBatch rfl
  refine .of_small ?_ ?_
  · rw [evaluated]
    decide +kernel
  · rw [openBatch, evaluated]
    decide +kernel

theorem lookupErrors_mixed : mixed.lookupErrors mixedBatch.eraseDups = [] := by
  rw [lookupErrors, evaluated_mixedBatch rfl]
  exact List.isEmpty_iff.mp (by decide +kernel)

/-- The balances of the key, asked for together with a text that is no address, and once more the
other way round. -/
theorem balances_report_mixed :
    mixed.BatchFits mixedBatch.eraseDups ∧
      ∃ report, ((mixed.balances 1 mixedBatch).runIn {}).1 = .ok report ∧
        mixed.ReportsExactly mixedBatch.eraseDups 0 report ∧
        ((({ mixed with ledger := mixedBack } : Source).balances 3 mixedBatch).runIn {}).1 =
          .ok report ∧
        SameUpToOrder [] (.ok report)
          ((({ mixed with ledger := mixedBack } : Source).balances 2 mixedBatch.reverse).runIn
            {}).1 := by
  have evaluated : mixed.evaluated mixedBatch.eraseDups = _ := evaluated_mixedBatch rfl
  have otherFits :
      ({ mixed with ledger := mixedBack } : Source).BatchFits mixedBatch.eraseDups := by
    have evaluated : ({ mixed with ledger := mixedBack } : Source).evaluated
        mixedBatch.eraseDups = _ := evaluated_mixedBatch rfl
    refine .of_small ?_ ?_
    · rw [evaluated]
      decide +kernel
    · rw [openBatch, evaluated]
      decide +kernel
  have backFits : ({ mixed with ledger := mixedBack } : Source).BatchFits
      mixedBatch.reverse.eraseDups := by
    have evaluated : ({ mixed with ledger := mixedBack } : Source).evaluated
        mixedBatch.reverse.eraseDups = [(AddressKey.onesAddress, .ones)] :=
      evaluated_mixed rfl (.inr (by decide +kernel))
    refine .of_small ?_ ?_
    · rw [evaluated]
      decide +kernel
    · rw [openBatch, evaluated]
      decide +kernel
  obtain ⟨answers, -, others⟩ := balances_report mixedBatch batchFits_mixed 1 {}
  obtain ⟨report, answered, reports⟩ :=
    (answers (by decide)).reports lookupErrors_mixed (by rw [evaluated]; simp)
  have stands : mixed.StandsAt Clock.defaultUnixTime := .of_clock fun _ => rfl
  have again := (others _ stands (by decide) mixedBack reordered_mixedBack 3 (by decide) {}).1
    otherFits lookupErrors_mixed
  have same := (others _ stands (by decide) mixedBack reordered_mixedBack 2 (by decide) {}).2
    mixedBatch.reverse (List.reverse_perm _).symm backFits
  rw [lookupErrors_mixed, answered] at same
  exact ⟨batchFits_mixed, report, answered, reports, again.trans answered, same⟩

/-- A key with the receipts of a transaction, which is locked up to a time that lies between the
first two readings of the time of day. -/
def unlocking (receipts : List Int64) : Source where
  ledger := .ofChanges (.ofOutputs [⟨1000, Script.lockScript 1600000001 ++ Script.payTo .ones⟩])
    (receipts.map fun amount => ⟨default, 10, false, amount⟩) [] []
  clock := {
    reading _ := 0
    unixTime earlier := Clock.defaultUnixTime + Int64.ofNat earlier }

/-- **A report takes room for the cache and a time that stands still.**  The batch above is stopped
with the largest cache that a setting can ask for, though every lookup succeeds and a text resolves.
And where a lock runs out while a batch is evaluated, the order of the changes decides which of them
is locked. -/
theorem balances_vary_with_room_and_time :
    (mixed.BatchFits mixedBatch.eraseDups ∧ mixed.lookupErrors mixedBatch.eraseDups = [] ∧
      mixed.evaluated mixedBatch.eraseDups ≠ [] ∧
      ((mixed.balances 18446744073709551615 mixedBatch).runIn {}).1 = .error .stopped) ∧
    (unlocking [100, 250]).ledger.Reordered (unlocking [250, 100]).ledger ∧
      ∀ receipts ∈ [[100, 250], [250, 100]], ∃ report,
        (((unlocking receipts).balances 256 [AddressKey.onesAddress]).runIn {}).1 = .ok report ∧
        report.snapshots.map (·.locked) = receipts.take 1 := by
  refine ⟨⟨batchFits_mixed, lookupErrors_mixed, ?_, ?_⟩,
    reordered_ofChanges _ (.swap _ _ _) (.refl _) _, ?_⟩
  · rw [evaluated_mixedBatch rfl]
    exact List.cons_ne_nil _ _
  · rw [balances_runIn, if_neg (by decide)]
  · have locked : ∀ receipts ∈ [[100, 250], [250, 100]],
        (((unlocking receipts).balances 256 [AddressKey.onesAddress]).runIn {}).1.toOption.map
          (fun report => report.snapshots.map (·.locked)) = some (receipts.take 1) := by
      decide +kernel
    intro receipts listed
    obtain ⟨report, answered, shown⟩ := Option.map_eq_some_iff.mp (locked receipts listed)
    exact ⟨report, Answer.eq_ok_of_toOption answered, shown⟩

end Source

end CoinLedger
