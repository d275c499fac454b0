import CoinLedger.Proofs.Balance.Report

/-!
# Spellings of an address

A batch tells its texts apart, not the keys that they spell.  A key that several texts of the batch
spell has a balance for each of them, and its open changes are added as often to the sums by
transaction (`balances_count_spellings`).  So each key counts once exactly when no two texts spell
the same key; an address with a blank before it is another text for the same key
(`ones_counted_twice`).
-/

set_option autoImplicit false

namespace CoinLedger

open Amount TxidSums

/-- Blanks around a text do not change the key that it spells. -/
theorem Network.keyOf?_eq_of_trim {network : Network} {left right : String}
    (same : Text.trim left.toList = Text.trim right.toList) :
    network.keyOf? left = network.keyOf? right := by
  rw [keyOf?, keyOf?, resolve, resolve, same]
  cases (Text.Base58.decode? (Text.trim right.toList)).bind network.keyOfBytes? <;> rfl

namespace Source

variable {source : Source}

/-- The keys that texts spell. -/
def keys (source : Source) (texts : List String) : List AddressKey :=
  (texts.filterMap source.network.keyOf?).eraseDups

/-- The texts that spell a key. -/
def spellings (source : Source) (texts : List String) (key : AddressKey) : List String :=
  texts.filter fun text => source.network.keyOf? text = some key

/-- The balances in a report whose address spells a key. -/
def balancesOf (source : Source) (report : BalanceReport) (key : AddressKey) :
    List BalanceSnapshot :=
  report.snapshots.filter fun snapshot => source.network.keyOf? snapshot.address = some key

/-- The report counts each key as often as texts spell it. -/
structure CountsSpellings (source : Source) (texts : List String) (report : BalanceReport) :
    Prop where
  snapshots : ∀ key, (source.balancesOf report key).length = (source.spellings texts key).length
  sum : ∀ txid, ((report.unconfirmedByTx.lookup txid).getD 0).toInt =
    ((source.keys texts).map fun key =>
      (source.spellings texts key).length * totalFor (source.openDeltas key) txid).sum

/-- The report counts each key once. -/
structure CountsOnce (source : Source) (texts : List String) (report : BalanceReport) : Prop where
  snapshots : ∀ key, (source.balancesOf report key).length ≤ 1
  sum : ∀ txid, ((report.unconfirmedByTx.lookup txid).getD 0).toInt =
    ((source.keys texts).map fun key => totalFor (source.openDeltas key) txid).sum

theorem map_snd_evaluated (texts : List String) :
    (source.evaluated texts).map Prod.snd = texts.filterMap source.network.keyOf? := by
  rw [evaluated, List.map_filterMap]
  simp [Function.comp_def]

theorem count_keys (texts : List String) (key : AddressKey) :
    (texts.filterMap source.network.keyOf?).count key = (source.spellings texts key).length := by
  rw [List.count_filterMap, spellings, ← List.countP_eq_length_filter]
  exact List.countP_congr fun text _ => by simp

/-- What a batch has open of a transaction is what the keys of its texts have. -/
theorem totalFor_openBatch (texts : List String) (txid : Txid) :
    totalFor (source.openBatch texts) txid =
      ((texts.filterMap source.network.keyOf?).map fun key =>
        totalFor (source.openDeltas key) txid).sum := by
  rw [← map_snd_evaluated, List.map_map, totalFor, openBatch, List.filter_flatMap,
    List.map_flatMap, total_flatMap]
  rfl

theorem Reports.length_balancesOf {texts : List String} {reads : Nat} {report : BalanceReport}
    (reports : source.Reports texts reads report) (key : AddressKey) :
    (source.balancesOf report key).length = (source.spellings texts key).length := by
  -- The balances stand under the texts that are evaluated, in their order.
  have addresses : (source.evaluated texts).map Prod.fst = report.snapshots.map (·.address) := by
    rw [← map_fst_entryLooks texts reads, List.map_map]
    exact map_eq_of_forall₂ (fun _ _ exact => exact.1.symm) reports.snapshots
  have spelled : report.snapshots.countP
        (fun snapshot => source.network.keyOf? snapshot.address = some key) =
      (report.snapshots.map (·.address)).countP (source.network.keyOf? · = some key) := by
    rw [List.countP_map]
    rfl
  rw [← count_keys, ← map_snd_evaluated, List.count, List.countP_map, balancesOf,
    ← List.countP_eq_length_filter, spelled, ← addresses, List.countP_map]
  refine List.countP_congr fun entry member => ?_
  have known := keyOf?_of_mem_evaluated member
  simp [known]

theorem Reports.countsSpellings {texts : List String} {reads : Nat} {report : BalanceReport}
    (reports : source.Reports texts reads report) : source.CountsSpellings texts report where
  snapshots := reports.length_balancesOf
  sum txid := by
    rw [reports.sums.toInt_lookup, totalFor_openBatch, sum_map_eq_sum_count]
    simp only [count_keys, keys]

theorem CountsSpellings.countsOnce_iff {texts : List String} {report : BalanceReport}
    (counts : source.CountsSpellings texts report) :
    source.CountsOnce texts report ↔ ∀ key, (source.spellings texts key).length ≤ 1 := by
  constructor
  · intro once key
    rw [← counts.snapshots]
    exact once.snapshots key
  · intro once
    refine ⟨fun key => (counts.snapshots key).trans_le (once key), fun txid => ?_⟩
    rw [counts.sum]
    refine congrArg List.sum (List.map_congr_left fun key member => ?_)
    have spelled : 0 < (source.spellings texts key).length := by
      rw [← count_keys]
      exact List.count_pos_iff.mpr (List.mem_eraseDups.mp member)
    have one : (source.spellings texts key).length = 1 := Nat.le_antisymm (once key) spelled
    rw [one]
    simp

/-- **A batch counts each key as often as distinct texts spell it**, so each key once exactly when
no two texts spell the same one.  There is a report when the lookups succeed, some text resolves, no
sum leaves the range of amounts and there is room for the cache. -/
theorem balances_count_spellings (source : Source) (addresses : List String) (cacheSize : Nat)
    (session : Session) :
    (∀ report, ((source.balances cacheSize addresses).runIn session).1 = .ok report →
      source.CountsSpellings addresses.eraseDups report ∧
        (source.CountsOnce addresses.eraseDups report ↔
          ∀ key, (source.spellings addresses.eraseDups key).length ≤ 1)) ∧
      (source.lookupErrors addresses.eraseDups = [] → source.keys addresses.eraseDups ≠ [] →
        source.BatchFits addresses.eraseDups → cacheSize ≤ BlockCache.maxCapacity →
        ∃ report, ((source.balances cacheSize addresses).runIn session).1 = .ok report) := by
  rw [balances_runIn]
  refine ⟨fun report answered => ?_, fun succeeds resolves fits room => ?_⟩
  · split at answered
    next =>
      have counts := (reports_of_batchAnswer answered).countsSpellings
      exact ⟨counts, counts.countsOnce_iff⟩
    next => cases answered
  · have evaluated : source.evaluated addresses.eraseDups ≠ [] := by
      intro none
      rw [keys, ← map_snd_evaluated, none] at resolves
      exact resolves rfl
    rw [if_pos room]
    exact fits.exists_report _ succeeds evaluated

/-- Two texts for the key `AddressKey.ones`; the second one begins with a blank. -/
def spelledTwice : List String := [AddressKey.onesAddress, " " ++ AddressKey.onesAddress]

/-- A key with a confirmed receipt and a pending one. -/
def pendingOnce : Source :=
  .ofChanges (.ofOutputs [⟨1000, Script.payTo .ones⟩]) [⟨default, 10, false, 1000⟩]
    [.at 5 (.filled 3) 250] []

theorem keyOf?_spelledTwice : ∀ text ∈ spelledTwice,
    pendingOnce.network.keyOf? text = some .ones := by
  have known : pendingOnce.network.keyOf? AddressKey.onesAddress = some .ones :=
    Network.keyOf?_eq_some Network.resolve_onesAddress
  have blank : pendingOnce.network.keyOf? (" " ++ AddressKey.onesAddress) = some .ones :=
    (Network.keyOf?_eq_of_trim (by decide +kernel)).trans known
  simp [spelledTwice, known, blank]

theorem evaluated_spelledTwice : pendingOnce.evaluated spelledTwice.eraseDups =
    spelledTwice.map (·, .ones) := by
  have distinct : spelledTwice.eraseDups = spelledTwice := by decide +kernel
  rw [distinct, evaluated, ← List.filterMap_eq_map]
  refine List.filterMap_congr fun text member => ?_
  rw [keyOf?_spelledTwice text member]
  rfl

theorem lookupErrors_spelledTwice : pendingOnce.lookupErrors spelledTwice.eraseDups = [] := by
  rw [lookupErrors, evaluated_spelledTwice]
  exact List.isEmpty_iff.mp (by decide +kernel)

theorem batchFits_spelledTwice : pendingOnce.BatchFits spelledTwice.eraseDups := by
  refine .of_small ?_ ?_
  · rw [evaluated_spelledTwice]
    decide +kernel
  · rw [openBatch, evaluated_spelledTwice]
    decide +kernel

/-- The key counts twice, for it is spelled twice. -/
theorem balances_count_spellings_twice :
    ∃ report, ((pendingOnce.balances 1 spelledTwice).runIn {}).1 = .ok report ∧
      (pendingOnce.balancesOf report .ones).length = 2 ∧
      ((report.unconfirmedByTx.lookup (.filled 3)).getD 0).toInt = 500 := by
  have spelled : (pendingOnce.spellings spelledTwice.eraseDups .ones).length = 2 := by
    rw [← count_keys, ← map_snd_evaluated, evaluated_spelledTwice]
    decide +kernel
  have keys : pendingOnce.keys spelledTwice.eraseDups = [.ones] := by
    rw [Source.keys, ← map_snd_evaluated, evaluated_spelledTwice]
    decide +kernel
  obtain ⟨exact, answers⟩ := pendingOnce.balances_count_spellings spelledTwice 1 {}
  obtain ⟨report, answered⟩ := answers lookupErrors_spelledTwice (by rw [keys]; simp)
    batchFits_spelledTwice (by decide)
  have counts := (exact report answered).1
  refine ⟨report, answered, (counts.snapshots .ones).trans spelled, ?_⟩
  rw [counts.sum, keys, List.map_singleton, List.sum_singleton, spelled]
  decide +kernel

/-- A batch with two texts for one key counts the key twice. -/
theorem ones_counted_twice :
    ∃ report, ((pendingOnce.balances 1 spelledTwice).runIn {}).1 = .ok report ∧
      ¬ pendingOnce.CountsOnce spelledTwice.eraseDups report := by
  have resolves : pendingOnce.evaluated spelledTwice.eraseDups ≠ [] := by
    rw [evaluated_spelledTwice]
    exact nofun
  obtain ⟨report, answered⟩ :=
    batchFits_spelledTwice.exists_report 0 lookupErrors_spelledTwice resolves
  refine ⟨report, ?_, fun once => ?_⟩
  · rw [balances_runIn, if_pos (by decide)]
    exact answered
  · have atMost := once.snapshots .ones
    rw [(reports_of_batchAnswer answered).length_balancesOf, ← count_keys, ← map_snd_evaluated,
      evaluated_spelledTwice] at atMost
    exact absurd atMost (by decide +kernel)

end Source

end CoinLedger
