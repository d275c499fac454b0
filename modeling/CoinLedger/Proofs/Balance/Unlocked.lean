import CoinLedger.Proofs.Balance.History
import CoinLedger.Proofs.Listing.UnspentPages

/-!
# Unlocked balances

The balance of a key runs over its confirmed changes, the listing of its unspent outputs over
another index.  The books of a key are in order when the changes are the receipts of some outputs
and a payment for each of them that is spent, and the index holds the outputs that are left
(`Books`).  Then receipts and payments of the spent outputs cancel, in whatever order the changes
are (`Books.total_changes`), and none of these receipts is locked (`Books.total_locked`).  So the
balance less its locked part is the total of the outputs that the listing marks as spendable
(`unlocked_eq_total_spendable`).
-/

set_option autoImplicit false

namespace CoinLedger

open Amount

/-! ## Books in order -/

/-- The change is the receipt of the output. -/
structure IsReceipt (output : UnspentOutput) (delta : IndexDelta) : Prop where
  txid : delta.txid = output.txid
  height : delta.height = output.height
  amount : delta.amount = output.amount

/-- The change takes the value of the output away. -/
def IsPayment (output : UnspentOutput) (delta : IndexDelta) : Prop :=
  delta.amount = -output.amount

/-- The changes of the key are the receipts of the created outputs and a payment for each spent one,
and the index holds the outputs that are left. -/
structure Source.Books (source : Source) (time : Int64) (key : AddressKey)
    (created spent : List UnspentOutput) : Prop where
  changes : ∃ receipts payments, (source.ledger.indexDeltas key).Perm (receipts ++ payments) ∧
    List.Forall₂ IsReceipt created receipts ∧ List.Forall₂ IsPayment spent payments
  positive : ∀ output ∈ created, 0 < output.amount
  left : created.Perm (spent ++ source.ledger.unspent key)
  distinct : ((source.ledger.unspent key).map (·.outpoint)).Nodup
  lookups : ∀ output ∈ created, source.Answered key output
  /-- No spent output comes from a transaction that is locked at the time. -/
  released : ∀ output ∈ spent, source.isTimeLocked time output.height output.txid key = .ok false

section Payments

variable {outputs : List UnspentOutput} {deltas : List IndexDelta}

theorem total_receipts (receipts : List.Forall₂ IsReceipt outputs deltas) :
    total (deltas.map (·.amount)) = total (outputs.map (·.amount)) :=
  congrArg total (map_eq_of_forall₂ (fun _ _ receipt => receipt.amount.symm) receipts).symm

/-- Payments of positive outputs take their total away. -/
theorem total_payments (payments : List.Forall₂ IsPayment outputs deltas)
    (positive : ∀ output ∈ outputs, 0 < output.amount) :
    total (deltas.map (·.amount)) = -total (outputs.map (·.amount)) := by
  induction payments with
  | nil => rfl
  | @cons output delta _ _ paid _ ih =>
      have later := ih fun other member => positive other (List.mem_cons_of_mem _ member)
      have taken : delta.amount.toInt = -output.amount.toInt := by
        rw [paid, toInt_neg_of_pos (positive output List.mem_cons_self)]
      rw [List.map_cons, List.map_cons, total_cons, total_cons, taken, later]
      omega

/-- A payment of a positive output is no receipt. -/
theorem not_pos_of_payment {output : UnspentOutput} {delta : IndexDelta}
    (positive : 0 < output.amount) (paid : IsPayment output delta) : ¬ 0 < delta.amount := by
  have value : 0 < output.amount.toInt := Int64.lt_iff_toInt_lt.mp positive
  rw [Int64.lt_iff_toInt_lt, paid, toInt_neg_of_pos positive, Int64.toInt_zero]
  omega

end Payments

namespace Source

variable {source : Source} {key : AddressKey} {output : UnspentOutput} {delta : IndexDelta}

/-- The lock of a receipt is that of its output. -/
theorem isLockedReceipt_of_receipt (time : Int64) (positive : 0 < output.amount)
    (answered : source.Answered key output) (receipt : IsReceipt output delta) :
    source.isLockedReceipt key time delta = !source.foundUnlocked time key output := by
  obtain ⟨locked, found⟩ := answered.isTimeLocked time
  rw [isLockedReceipt, foundUnlocked, receipt.height, receipt.txid, receipt.amount, found,
    decide_eq_true positive]
  simp

/-- The receipts that are locked are those of the outputs that are. -/
theorem lockedReceipts (time : Int64) {outputs : List UnspentOutput} {deltas : List IndexDelta}
    (receipts : List.Forall₂ IsReceipt outputs deltas)
    (positive : ∀ output ∈ outputs, 0 < output.amount)
    (answered : ∀ output ∈ outputs, source.Answered key output) :
    List.Forall₂ IsReceipt (outputs.filter fun output => !source.foundUnlocked time key output)
      (deltas.filter (source.isLockedReceipt key time)) := by
  induction receipts with
  | nil => exact .nil
  | @cons output delta _ _ receipt _ ih =>
      have counts := isLockedReceipt_of_receipt time (positive output List.mem_cons_self)
        (answered output List.mem_cons_self) receipt
      have later := ih (fun other member => positive other (List.mem_cons_of_mem _ member))
        fun other member => answered other (List.mem_cons_of_mem _ member)
      rw [List.filter_cons, List.filter_cons, counts]
      split
      · exact .cons receipt later
      · exact later

theorem lookupError?_of_receipt (answered : source.Answered key output)
    (receipt : IsReceipt output delta) : source.lookupError? key delta = none := by
  obtain ⟨locked, found⟩ := answered
  rw [lookupError?, receipt.height, receipt.txid, found]
  exact ite_self none

end Source

namespace Source.Books

variable {source : Source} {time : Int64} {key : AddressKey} {created spent : List UnspentOutput}

theorem spent_subset (books : source.Books time key created spent) :
    spent ⊆ created := fun _ member =>
  books.left.mem_iff.mpr (List.mem_append_left _ member)

theorem unspent_subset (books : source.Books time key created spent) :
    source.ledger.unspent key ⊆ created := fun _ member =>
  books.left.mem_iff.mpr (List.mem_append_right _ member)

/-- **The changes of the key come to the total of its unspent outputs.** -/
theorem total_changes (books : source.Books time key created spent) :
    total ((source.ledger.indexDeltas key).map (·.amount)) =
      total ((source.ledger.unspent key).map (·.amount)) := by
  obtain ⟨receipts, payments, permuted, received, paid⟩ := books.changes
  have left := total_perm (books.left.map (·.amount))
  rw [List.map_append, total_append] at left
  rw [total_perm (permuted.map _), List.map_append, total_append, total_receipts received,
    total_payments paid fun output member => books.positive output (books.spent_subset member)]
  omega

/-- **What is locked are the locked ones among the unspent outputs**: the receipts of the spent ones
are not. -/
theorem total_locked (books : source.Books time key created spent) :
    total (((source.ledger.indexDeltas key).filter (source.isLockedReceipt key time)).map
        (·.amount)) =
      total (((source.ledger.unspent key).filter fun output =>
        !source.foundUnlocked time key output).map (·.amount)) := by
  obtain ⟨receipts, payments, permuted, received, paid⟩ := books.changes
  have kept := Source.lockedReceipts time received books.positive books.lookups
  have noPayment : payments.filter (source.isLockedReceipt key time) = [] := by
    rw [List.filter_eq_nil_iff]
    intro delta member counted
    obtain ⟨output, listed, payment⟩ := exists_related_of_mem paid member
    have positive := books.positive output (books.spent_subset listed)
    exact not_pos_of_payment positive payment
      (of_decide_eq_true (Bool.and_eq_true_iff.mp counted).1)
  have noSpent : spent.filter (fun output => !source.foundUnlocked time key output) = [] := by
    rw [List.filter_eq_nil_iff]
    intro output member
    rw [Source.foundUnlocked, books.released output member]
    simp
  rw [total_perm ((permuted.filter _).map _), List.filter_append, noPayment, List.append_nil,
    total_receipts kept, total_perm ((books.left.filter _).map _), List.filter_append, noSpent,
    List.nil_append]

/-- Every lock that the balance looks up is found. -/
theorem no_lookupError (books : source.Books time key created spent) :
    (source.ledger.indexDeltas key).filterMap (source.lookupError? key) = [] := by
  obtain ⟨receipts, payments, permuted, received, paid⟩ := books.changes
  rw [List.filterMap_eq_nil_iff]
  intro delta member
  rcases List.mem_append.mp (permuted.mem_iff.mp member) with receipt | payment
  · obtain ⟨output, listed, receives⟩ := exists_related_of_mem received receipt
    exact Source.lookupError?_of_receipt (books.lookups output listed) receives
  · obtain ⟨output, listed, pays⟩ := exists_related_of_mem paid payment
    have positive := books.positive output (books.spent_subset listed)
    exact if_neg (not_pos_of_payment positive pays)

/-- **The balance less its locked part is the total of the unspent outputs that are not locked.** -/
theorem exists_unlocked_eq (books : source.Books time key created spent)
    (stands : source.StandsAt time)
    (noInstant : ∀ delta ∈ source.ledger.pendingDeltas key,
      source.ledger.isInstant delta.txid = false)
    {snapshot : BalanceSnapshot} {reads : Nat} (exact : source.Balances key reads snapshot) :
    ∃ unlocked, snapshot.unlocked = .ok unlocked ∧ unlocked.toInt =
      total (((source.ledger.unspent key).filter (source.foundUnlocked time key)).map
        (·.amount)) := by
  have none : source.instantDeltas key = [] := by
    rw [Source.instantDeltas, List.filter_eq_nil_iff]
    intro delta member
    rw [noInstant delta member]
    exact Bool.false_ne_true
  have balance : snapshot.balance.toInt = total ((source.ledger.unspent key).map (·.amount)) := by
    rw [exact.balance, Source.finalAmounts, none, List.map_nil, List.append_nil,
      books.total_changes]
  have locked : snapshot.locked.toInt = total (((source.ledger.unspent key).filter fun output =>
      !source.foundUnlocked time key output).map (·.amount)) := by
    rw [exact.locked, Source.lockedDeltas_of_standsAt stands, books.total_locked]
  have nonneg : ∀ keeps : UnspentOutput → Bool,
      0 ≤ total (((source.ledger.unspent key).filter keeps).map (·.amount)) := by
    intro keeps
    apply total_nonneg
    intro amount member
    obtain ⟨output, kept, rfl⟩ := List.mem_map.mp member
    have listed := books.unspent_subset (List.mem_filter.mp kept).1
    exact Int64.le_of_lt (books.positive output listed)
  have parts := total_filter_add_total_filter_not (source.foundUnlocked time key) (·.amount)
    (source.ledger.unspent key)
  have free := nonneg (source.foundUnlocked time key)
  have held := nonneg fun output => !source.foundUnlocked time key output
  -- What is free is a part of the balance, so it is an amount with it.
  have difference : snapshot.balance.toInt - snapshot.locked.toInt =
      total (((source.ledger.unspent key).filter (source.foundUnlocked time key)).map
        (·.amount)) := by
    omega
  have fits := inRange_of_le free (by omega) (inRange_toInt snapshot.balance)
  refine ⟨_, ?_, toInt_ofInt_of_inRange fits⟩
  rw [BalanceSnapshot.unlocked, Amount.sub, difference, ofExact, if_pos fits]

end Source.Books

namespace Source

variable {source : Source} {time : Int64} {key : AddressKey}

/-- What the listing marks as spendable are the unspent outputs whose lock has expired. -/
theorem total_spendable (ascending : Bool) :
    total (((oriented ascending
        ((source.ledger.unspent key).map (source.listedEntry time key))).filter
          (·.spendable)).map (·.value)) =
      total (((source.ledger.unspent key).filter (source.foundUnlocked time key)).map
        (·.amount)) := by
  rw [total_perm (((oriented_perm ascending _).filter _).map _), List.filter_map, List.map_map]
  have marks : (fun entry : UnspentEntry => entry.spendable) ∘ source.listedEntry time key =
      source.foundUnlocked time key := by
    funext output
    exact Bool.not_not _
  rw [marks]
  rfl

/-- **The balance less its locked part is what the listing of unspent outputs marks as spendable**,
over all its pages, while the reference time stands still. -/
theorem unlocked_eq_total_spendable (stands : source.StandsAt time) {address : String}
    (resolved : source.network.resolve address = .ok key) {created spent : List UnspentOutput}
    (books : source.Books time key created spent)
    (noInstant : ∀ delta ∈ source.ledger.pendingDeltas key,
      source.ledger.isInstant delta.txid = false)
    (fits : source.BatchFits [address]) :
    ∃ snapshot : BalanceSnapshot, snapshot.address = address ∧
      (∀ cacheSize session, cacheSize ≤ BlockCache.maxCapacity → ∃ report,
        ((source.balances cacheSize [address]).runIn session).1 = .ok report ∧
          report.snapshots = [snapshot]) ∧
      (∀ cacheSize addresses session report,
        ((source.balances cacheSize addresses).runIn session).1 = .ok report →
          ∀ other ∈ report.snapshots, other.address = address → other = snapshot) ∧
      ∃ unlocked, snapshot.unlocked = .ok unlocked ∧
        ∀ query : UnspentQuery, 1 ≤ query.pageSize → query.pageSize ≤ maxUnspentPageSize →
          ∀ sessions : Nat → Session, ∃ entries,
            Paged
              (fun page =>
                (((source.listUnspent address { query with page }).runIn (sessions page)).1).map
                  UnspentPage.face)
              .noUnspentOutputs query.pageSize entries ∧
            unlocked.toInt = total ((entries.filter (·.spendable)).map (·.value)) := by
  have succeeds : source.lookupErrors [address] = [] := by
    rw [lookupErrors_singleton resolved]
    exact books.no_lookupError
  have evaluated := evaluated_singleton resolved
  -- The balances of the address are all the same, because its locks do not change.
  have exact_of_report : ∀ {cacheSize addresses session report},
      ((source.balances cacheSize addresses).runIn session).1 = .ok report →
        ∀ other ∈ report.snapshots, other.address = address → source.Balances key 0 other := by
    intro cacheSize addresses session report answered other member asked
    obtain ⟨found, reads, spelled, exact⟩ := exists_balances_of_mem answered member
    rw [asked, Network.keyOf?_eq_some resolved] at spelled
    cases spelled
    refine ⟨exact.balance, ?_, exact.received, exact.unconfirmedDelta⟩
    rw [exact.locked, lockedDeltas_of_standsAt stands, lockedDeltas_of_standsAt stands]
  have alone : ∀ cacheSize session, cacheSize ≤ BlockCache.maxCapacity → ∃ report snapshot,
      ((source.balances cacheSize [address]).runIn session).1 = .ok report ∧
        report.snapshots = [snapshot] ∧ snapshot.address = address ∧
        source.Balances key 0 snapshot := by
    intro cacheSize session room
    obtain ⟨report, answered⟩ := fits.exists_report session.timeReads succeeds
      (by rw [evaluated]; exact List.cons_ne_nil _ _)
    have shown := (reports_of_batchAnswer answered).snapshots
    have ran : ((source.balances cacheSize [address]).runIn session).1 = .ok report := by
      rw [balances_runIn, if_pos room]
      exact answered
    rw [entryLooks, evaluated] at shown
    obtain ⟨snapshot, _, ⟨named, _⟩, rest, same⟩ := List.forall₂_cons_left_iff.mp shown
    cases rest
    refine ⟨report, snapshot, ran, same, named, exact_of_report ran snapshot ?_ named⟩
    rw [same]
    exact List.mem_cons_self
  obtain ⟨_, snapshot, _, _, named, exact⟩ := alone 0 {} (Nat.zero_le _)
  obtain ⟨unlocked, free, amount⟩ := books.exists_unlocked_eq stands noInstant exact
  refine ⟨snapshot, named, ?_, ?_, unlocked, free, ?_⟩
  · intro cacheSize session room
    obtain ⟨report, other, ran, same, otherNamed, otherExact⟩ := alone cacheSize session room
    exact ⟨report, ran, otherExact.unique exact (otherNamed.trans named.symm) ▸ same⟩
  · intro cacheSize addresses session report ran other member asked
    exact (exact_of_report ran other member asked).unique exact (asked.trans named.symm)
  · intro query least most sessions
    have answered : ∀ output ∈ source.ledger.unspent key, source.Answered key output :=
      fun output member => books.lookups output (books.unspent_subset member)
    refine ⟨_, paged_listUnspent books.distinct answered stands resolved least most sessions, ?_⟩
    rw [total_spendable]
    exact amount

/-- A block that pays three times to one key, the second time behind a lock. -/
def threePayments : Block where
  height := 10
  hash := default
  time := 0
  transactions := [⟨.filled 1, [⟨500, Script.payTo .ones⟩]⟩,
    ⟨.filled 2, [⟨300, Script.lockScript 5000 ++ Script.payTo .ones⟩]⟩,
    ⟨.filled 3, [⟨200, Script.payTo .ones⟩]⟩]

/-- The records of the key; the first payment has been spent. -/
def firstSpent : AddressEntry where
  address := AddressKey.onesAddress
  deltas := [⟨.filled 1, 10, false, 500⟩, ⟨.filled 4, 11, true, -500⟩, ⟨.filled 2, 10, false, 300⟩,
    ⟨.filled 3, 10, false, 200⟩]
  unspent := [⟨.filled 2, 0, 300, 10⟩, ⟨.filled 3, 0, 200, 10⟩]
  deposits := []

theorem unspent_firstSpent :
    ((ofEntry threePayments firstSpent).ledger.unspent .ones).Perm firstSpent.unspent := by
  have loaded := Ledger.ofSnapshot_ofEntry threePayments firstSpent rfl
  rw [← LedgerSnapshot.unspentOf_ofEntry rfl]
  exact (Ledger.indexOf_unspent loaded .ones).permuted

theorem books_firstSpent : (ofEntry threePayments firstSpent).Books Clock.defaultUnixTime .ones
    [⟨.filled 1, 0, 500, 10⟩, ⟨.filled 2, 0, 300, 10⟩, ⟨.filled 3, 0, 200, 10⟩]
    [⟨.filled 1, 0, 500, 10⟩] where
  changes := by
    refine ⟨[⟨.filled 1, 10, false, 500⟩, ⟨.filled 2, 10, false, 300⟩, ⟨.filled 3, 10, false, 200⟩],
      [⟨.filled 4, 11, true, -500⟩], by decide +kernel, ?_, ?_⟩
    · exact .cons ⟨rfl, rfl, rfl⟩ (.cons ⟨rfl, rfl, rfl⟩ (.cons ⟨rfl, rfl, rfl⟩ .nil))
    · exact .cons rfl .nil
  positive := by decide
  left := (unspent_firstSpent.cons _).symm
  distinct := (unspent_firstSpent.map _).nodup_iff.mpr (by decide +kernel)
  lookups := by
    have first : (ofEntry threePayments firstSpent).isTimeLocked 0 10 (.filled 1) .ones =
        .ok false :=
      Answer.eq_ok_of_toOption (by decide +kernel)
    have second : (ofEntry threePayments firstSpent).isTimeLocked 0 10 (.filled 2) .ones =
        .ok true :=
      Answer.eq_ok_of_toOption (by decide +kernel)
    have third : (ofEntry threePayments firstSpent).isTimeLocked 0 10 (.filled 3) .ones =
        .ok false :=
      Answer.eq_ok_of_toOption (by decide +kernel)
    intro output member
    simp only [List.mem_cons, List.not_mem_nil, or_false] at member
    obtain rfl | rfl | rfl := member
    · exact answered_of_isTimeLocked first
    · exact answered_of_isTimeLocked second
    · exact answered_of_isTimeLocked third
  released := by
    intro output member
    cases List.mem_singleton.mp member
    exact Answer.eq_ok_of_toOption (by decide +kernel)

/-- What is left of the key are a locked output and another one. -/
theorem unlocked_eq_total_spendable_firstSpent :
    ∃ snapshot report unlocked entries,
      (((ofEntry threePayments firstSpent).balances 256 [AddressKey.onesAddress]).runIn {}).1 =
        .ok report ∧
      report.snapshots = [snapshot] ∧
      snapshot.unlocked = .ok unlocked ∧
      Paged
        (fun page => (((listUnspent (.ofEntry threePayments firstSpent) AddressKey.onesAddress
          { page, pageSize := 1 }).runIn {}).1).map UnspentPage.face)
        .noUnspentOutputs 1 entries ∧
      unlocked.toInt = total ((entries.filter (·.spendable)).map (·.value)) := by
  have resolved : (ofEntry threePayments firstSpent).network.resolve AddressKey.onesAddress =
      .ok .ones :=
    Network.resolve_onesAddress
  have stands : (ofEntry threePayments firstSpent).StandsAt Clock.defaultUnixTime :=
    .of_clock fun _ => rfl
  have fits : (ofEntry threePayments firstSpent).BatchFits [AddressKey.onesAddress] :=
    .of_small (by rw [evaluated_singleton resolved]; decide +kernel)
      (by rw [openBatch, evaluated_singleton resolved]; decide +kernel)
  obtain ⟨snapshot, -, answers, -, unlocked, free, shows⟩ :=
    unlocked_eq_total_spendable stands resolved books_firstSpent (by decide) fits
  obtain ⟨report, answered, alone⟩ := answers 256 {} (by decide)
  obtain ⟨entries, paged, same⟩ := shows { pageSize := 1 } (by decide) (by decide) fun _ => {}
  exact ⟨snapshot, report, unlocked, entries, answered, alone, free, paged, same⟩

end Source

end CoinLedger
