import CoinLedger.Proofs.Balance.Batch
import CoinLedger.Proofs.Listing.History

/-!
# Balances and histories

The history and the balance of a key add up the same confirmed changes, but not the same pending
ones.  The history drops the pending changes of a transaction that is confirmed already; the balance
counts them once more (`total_history_add_repeated`).  So the two differ by the total of these
changes, and agree when a key has none.
-/

set_option autoImplicit false

namespace CoinLedger

open Amount Change

namespace Source

variable {source : Source}

/-- The pending changes of a key whose transaction is confirmed already. -/
def repeatedDeltas (source : Source) (key : AddressKey) : List PendingDelta :=
  (source.ledger.pendingDeltas key).filter fun delta =>
    (source.ledger.indexDeltas key).any (·.txid = delta.txid)

/-! ## The total of a history -/

/-- The amounts that entries tell come to the total of the changes. -/
theorem total_of_tells {changes : List Change} {entries : List HistoryEntry}
    (tell : List.Forall₂ (source.Tells changes) (firsts changes) entries) :
    total (entries.map (·.amount)) = total (changes.map (·.amount)) := by
  rw [← sum_totalFor_firsts, map_eq_of_forall₂ (fun _ _ tells => tells.amount.symm) tell, total,
    List.map_map]
  rfl

/-- **A history comes to the total of the confirmed changes and of the new ones.** -/
theorem IsHistory.total {key : AddressKey} {ascending : Bool} {entries : List HistoryEntry}
    (history : source.IsHistory key ascending entries) :
    total (entries.map (·.amount)) =
      total ((source.ledger.indexDeltas key).map (·.amount)) +
        total ((source.newDeltas key).map (·.amount)) := by
  obtain ⟨sorted, confirmed, pending, stably, tellConfirmed, tellPending, rfl⟩ := history
  have indexed : Amount.total (confirmed.map (·.amount)) =
      Amount.total ((source.ledger.indexDeltas key).map (·.amount)) := by
    rw [total_of_tells tellConfirmed, indexChanges, List.map_map]
    cases ascending with
    | true => rfl
    | false => exact total_perm ((List.reverse_perm _).map _)
  have new : Amount.total (pending.map (·.amount)) =
      Amount.total ((source.newDeltas key).map (·.amount)) := by
    rw [total_of_tells tellPending, List.map_map]
    exact total_perm (stably.permuted.map _)
  cases ascending with
  | true => rw [if_pos rfl, List.map_append, total_append, indexed, new]
  | false =>
      rw [if_neg Bool.false_ne_true, List.map_append, total_append,
        total_perm ((List.reverse_perm pending).map _), indexed, new, Int.add_comm]

/-! ## The total of a balance -/

/-- Every balance of a report tells the exact totals of the key of its address. -/
theorem exists_balances_of_mem {cacheSize : Nat} {addresses : List String} {session : Session}
    {report : BalanceReport}
    (answered : ((source.balances cacheSize addresses).runIn session).1 = .ok report)
    {snapshot : BalanceSnapshot} (member : snapshot ∈ report.snapshots) :
    ∃ key reads, source.network.keyOf? snapshot.address = some key ∧
      source.Balances key reads snapshot := by
  rw [balances_runIn] at answered
  split at answered
  next =>
    have reports := reports_of_batchAnswer answered
    obtain ⟨look, looked, address, exact⟩ := exists_related_of_mem reports.snapshots member
    refine ⟨look.1.2, look.2, ?_, exact⟩
    rw [address]
    exact keyOf?_of_mem_evaluated (mem_of_mem_withReads looked)
  next => cases answered

/-- What is final and what is open make up all changes of a key. -/
theorem total_final_add_open (key : AddressKey) :
    total (source.finalAmounts key) + total ((source.openDeltas key).map (·.amount)) =
      total ((source.ledger.indexDeltas key).map (·.amount)) +
        total ((source.ledger.pendingDeltas key).map (·.amount)) := by
  rw [finalAmounts, total_append, Int.add_assoc]
  exact congrArg _ (total_filter_add_total_filter_not _ _ _)

/-- **The history and the balance of a key differ by the pending changes that are confirmed
already**, whenever both are answered: all pages of the history, in either order, come to less than
the balance with what is unconfirmed by the total of these changes. -/
theorem total_history_add_repeated {address : String} {key : AddressKey}
    (resolved : source.network.resolve address = .ok key) {query : HistoryQuery}
    (any : query.direction = .any) {pages : List HistoryPage}
    (all : source.AllPages address query pages) {cacheSize : Nat} {addresses : List String}
    {session : Session} {report : BalanceReport}
    (answered : ((source.balances cacheSize addresses).runIn session).1 = .ok report)
    {snapshot : BalanceSnapshot} (member : snapshot ∈ report.snapshots)
    (asked : snapshot.address = address) :
    total ((pages.flatMap (·.entries)).map (·.amount)) +
        total ((source.repeatedDeltas key).map (·.amount)) =
      snapshot.balance.toInt + snapshot.unconfirmedDelta.toInt := by
  obtain ⟨entries, history, shown⟩ := all.entries resolved
  rw [any] at history
  obtain ⟨confirmed, pending, rfl⟩ := history_eq_ok_iff.mp history
  rw [admitted_eq_inDirection direction_of_mem_untimed] at shown
  have kept : total ((source.newDeltas key).map (·.amount)) +
      total ((source.repeatedDeltas key).map (·.amount)) =
        total ((source.ledger.pendingDeltas key).map (·.amount)) := by
    rw [Int.add_comm]
    exact total_filter_add_total_filter_not _ _ _
  obtain ⟨found, reads, spelled, exact⟩ := exists_balances_of_mem answered member
  rw [asked, Network.keyOf?_eq_some resolved] at spelled
  cases spelled
  rw [exact.balance, exact.unconfirmedDelta, total_final_add_open, shown]
  exact (congrArg (· + _) (isHistory_timed confirmed pending).total).trans
    ((Int.add_assoc _ _ _).trans (congrArg _ kept))

/-- A key with a confirmed receipt that is still among the pending changes. -/
def lingering : Source :=
  .ofChanges (.ofOutputs [⟨1000, Script.payTo .ones⟩]) [⟨default, 10, false, 1000⟩]
    [.at 5 default 1000] []

/-- The one entry of the history of the key. -/
def lingeringEntry : HistoryEntry where
  txid := default
  height := 10
  amount := 1000
  direction := .received
  time := none

theorem allPages_lingering : lingering.AllPages AddressKey.onesAddress {}
    [lingering.shownPage [lingeringEntry] {}] := by
  have history : lingering.history .ones false .any = .ok [lingeringEntry] :=
    Answer.eq_ok_of_toOption (by decide +kernel)
  have read : lingering.ledger.readBlock 10 = .ok (.ofOutputs [⟨1000, Script.payTo .ones⟩]) :=
    Answer.eq_ok_of_toOption (by decide +kernel)
  refine allPages_singleton Network.resolve_onesAddress history (by decide) (by decide)
    (fun entry member _ => ?_) rfl (by decide)
  cases List.mem_singleton.mp member
  exact ⟨_, read⟩

/-- The balance of the key. -/
def lingeringSnapshot : BalanceSnapshot where
  address := AddressKey.onesAddress
  balance := 1000
  received := 1000
  unconfirmedDelta := 1000

theorem balances_lingering :
    ((lingering.balances 1 [AddressKey.onesAddress]).runIn {}).1 =
      .ok { snapshots := [lingeringSnapshot], unconfirmedByTx := [(default, 1000)] } := by
  have evaluated : lingering.evaluate AddressKey.onesAddress .ones 0 = .ok lingeringSnapshot :=
    Answer.eq_ok_of_toOption (by decide +kernel)
  have summed : TxidSums.addEach (lingering.openDeltas .ones) [] = .ok [(default, 1000)] :=
    Answer.eq_ok_of_toOption (by decide +kernel)
  rw [balances_runIn, if_pos (by decide), List.eraseDups_cons, List.filter_nil, List.eraseDups_nil,
    batchAnswer_singleton Network.resolve_onesAddress, evaluated, summed]
  rfl

/-- The balance of the key exceeds its history by the change that is confirmed already. -/
theorem total_history_add_repeated_lingering :
    total (((lingering.shownPage [lingeringEntry] {}).entries).map (·.amount)) + 1000 =
      lingeringSnapshot.balance.toInt + lingeringSnapshot.unconfirmedDelta.toInt := by
  have repeats : total ((lingering.repeatedDeltas .ones).map (·.amount)) = 1000 := by
    decide +kernel
  have sums := total_history_add_repeated Network.resolve_onesAddress rfl allPages_lingering
    balances_lingering List.mem_cons_self rfl
  rwa [repeats, List.flatMap_singleton] at sums

/-- A ledger is loaded from a snapshot whose one receipt is confirmed and pending: the history has
it once, the balance twice. -/
theorem confirmed_receipt_counted_twice :
    ∃ ledger, Ledger.ofSnapshot {} (.ofChanges (.ofOutputs [⟨1000, Script.payTo .ones⟩])
        [⟨default, 10, false, 1000⟩] [.at 5 default 1000] []) = .ok ledger ∧
      let source : Source := { ledger, clock := .frozen }
      ∃ pages report snapshot, source.AllPages AddressKey.onesAddress {} pages ∧
        ((source.balances 1 [AddressKey.onesAddress]).runIn {}).1 = .ok report ∧
        report.snapshots = [snapshot] ∧ snapshot.address = AddressKey.onesAddress ∧
        total ((pages.flatMap (·.entries)).map (·.amount)) = 1000 ∧
        snapshot.balance.toInt + snapshot.unconfirmedDelta.toInt = 2000 := by
  refine ⟨_, Ledger.ofSnapshot_ofChanges _ _ _ _, [lingering.shownPage [lingeringEntry] {}], _,
    lingeringSnapshot, allPages_lingering, balances_lingering, rfl, rfl, ?_, ?_⟩
  · decide +kernel
  · decide +kernel

end Source

end CoinLedger
