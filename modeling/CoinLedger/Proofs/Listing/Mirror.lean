import CoinLedger.Proofs.Listing.History
import CoinLedger.Proofs.Listing.Paged

/-!
# The history in either order

Against ledger order the confirmed changes are turned round before they are summed up, the pending
ones afterwards.  When the changes of every confirmed transaction carry one height, the entry of a
transaction does not depend on the order (`directedSummaries_eq_map`), so both orders have the same
entries.  When the changes of a transaction also stand side by side in the index, the transactions
are met the other way round, and newest first is exactly the reverse of oldest first
(`untimed_reverse`).  The pages show it so, whatever their sizes (`listTransactions_mirrored`).

The changes of a transaction are added up in the order in which they are met, so their sums on the
way may be amounts in one order and not in the other, which is stopped then
(`stopped_oldest_first`).
-/

set_option autoImplicit false

namespace CoinLedger

open Change

/-- The changes of each transaction carry one height. -/
def OneHeight (deltas : List IndexDelta) : Prop :=
  ∀ first ∈ deltas, ∀ second ∈ deltas, first.txid = second.txid → first.height = second.height

instance (deltas : List IndexDelta) : Decidable (OneHeight deltas) :=
  inferInstanceAs (Decidable (∀ first ∈ deltas, ∀ second ∈ deltas, _ → _))

/-- The height that a transaction has among the changes. -/
def heightOf (deltas : List IndexDelta) (txid : Txid) : Int32 :=
  ((deltas.find? (·.txid = txid)).map (·.height)).getD 0

theorem OneHeight.heightOf_eq {deltas : List IndexDelta} (oneHeight : OneHeight deltas)
    {delta : IndexDelta} (member : delta ∈ deltas) : heightOf deltas delta.txid = delta.height := by
  have isSome : (deltas.find? (·.txid = delta.txid)).isSome = true :=
    List.find?_isSome.mpr ⟨delta, member, decide_eq_true rfl⟩
  obtain ⟨found, looked⟩ := Option.isSome_iff_exists.mp isSome
  have same : found.txid = delta.txid := by simpa using List.find?_some looked
  rw [heightOf, looked]
  exact oneHeight found (List.mem_of_find?_eq_some looked) delta member same

namespace HistoryEntry

/-- The entry of a confirmed transaction whose changes carry one height. -/
def confirmed (deltas : List IndexDelta) (txid : Txid) : HistoryEntry :=
  directed {
    txid
    height := heightOf deltas txid
    amount := Int64.ofInt (totalFor (deltas.map ofIndex) txid)
    direction := .any
    time := none }

/-- **The order of the changes decides only in which order the entries stand.** -/
theorem directedSummaries_eq_map {deltas sorted : List IndexDelta} (oneHeight : OneHeight deltas)
    (permuted : sorted.Perm deltas) :
    directedSummaries (sorted.map ofIndex) =
      (sorted.map (·.txid)).eraseDups.map (confirmed deltas) := by
  have txids : (sorted.map ofIndex).map (·.txid) = sorted.map (·.txid) := List.map_map
  rw [directedSummaries, ← txids, ← map_txid_firsts, List.map_map]
  refine List.map_congr_left fun first isFirst => ?_
  obtain ⟨delta, listed, rfl⟩ := List.mem_map.mp (mem_of_mem_firsts isFirst)
  have height : heightOf deltas (ofIndex delta).txid = (ofIndex delta).height :=
    oneHeight.heightOf_eq (permuted.mem_iff.mp listed)
  rw [Function.comp_apply, confirmed, summary, totalFor_perm (permuted.map ofIndex), height]
  rfl

theorem map_txid_directedSummaries (changes : List Change) :
    (directedSummaries changes).map (·.txid) = (changes.map (·.txid)).eraseDups := by
  rw [directedSummaries, List.map_map]
  exact map_txid_firsts changes

end HistoryEntry

namespace Source

variable {source : Source} {key : AddressKey}

/-! ## Both orders -/

section OneHeight

variable (oneHeight : OneHeight (source.ledger.indexDeltas key))

include oneHeight

theorem directedSummaries_reverse
    (adjacent : Adjacent ((source.ledger.indexDeltas key).map (·.txid))) :
    HistoryEntry.directedSummaries (source.indexChanges key false) =
      (HistoryEntry.directedSummaries (source.indexChanges key true)).reverse := by
  rw [indexChanges, indexChanges, if_neg Bool.false_ne_true, if_pos rfl,
    HistoryEntry.directedSummaries_eq_map oneHeight (List.reverse_perm _),
    HistoryEntry.directedSummaries_eq_map oneHeight (List.Perm.refl _), List.map_reverse,
    eraseDups_reverse adjacent, List.map_reverse]

/-- **Both orders have the same entries.** -/
theorem untimed_perm : (source.untimed key false).Perm (source.untimed key true) := by
  have reversed := List.reverse_perm (source.ledger.indexDeltas key)
  have confirmed : (HistoryEntry.directedSummaries (source.indexChanges key false)).Perm
      (HistoryEntry.directedSummaries (source.indexChanges key true)) := by
    rw [indexChanges, indexChanges, if_neg Bool.false_ne_true, if_pos rfl,
      HistoryEntry.directedSummaries_eq_map oneHeight reversed,
      HistoryEntry.directedSummaries_eq_map oneHeight (List.Perm.refl _)]
    exact (eraseDups_perm (reversed.map _)).map _
  exact List.perm_append_comm.trans (confirmed.append (List.reverse_perm _))

/-- **Newest first is the reverse of oldest first** when the changes of a transaction stand side by
side. -/
theorem untimed_reverse (adjacent : Adjacent ((source.ledger.indexDeltas key).map (·.txid))) :
    source.untimed key false = (source.untimed key true).reverse := by
  rw [untimed, untimed, if_neg Bool.false_ne_true, if_pos rfl, List.reverse_append,
    directedSummaries_reverse oneHeight adjacent]

end OneHeight

/-- A pending entry has no height and none of the confirmed transactions. -/
theorem pending_of_mem_directedSummaries {entry : HistoryEntry}
    (member : entry ∈
      HistoryEntry.directedSummaries ((source.sortedDeltas key).map .ofPending)) :
    entry.height = mempoolHeight ∧
      ∀ delta ∈ source.ledger.indexDeltas key, delta.txid ≠ entry.txid := by
  obtain ⟨first, isFirst, rfl⟩ := List.mem_map.mp member
  obtain ⟨delta, listed, rfl⟩ := List.mem_map.mp (mem_of_mem_firsts isFirst)
  have new := (stablySorted_sortedDeltas key).permuted.mem_iff.mp listed
  exact ⟨rfl, txid_ne_of_mem_newDeltas new⟩

/-- No transaction has two entries. -/
theorem nodup_untimed (source : Source) (key : AddressKey) (ascending : Bool) :
    ((source.untimed key ascending).map (·.txid)).Nodup := by
  have distinct : ∀ changes : List Change,
      ((HistoryEntry.directedSummaries changes).map (·.txid)).Nodup := by
    intro changes
    rw [HistoryEntry.map_txid_directedSummaries]
    exact nodup_eraseDups _
  refine nodup_joined (distinct _) (distinct _) ?_ ascending
  intro txid old new
  rw [HistoryEntry.map_txid_directedSummaries, List.mem_eraseDups] at old
  obtain ⟨change, changed, rfl⟩ := List.mem_map.mp old
  obtain ⟨delta, indexed, rfl⟩ := mem_indexChanges.mp changed
  obtain ⟨entry, waits, same⟩ := List.mem_map.mp new
  exact (pending_of_mem_directedSummaries waits).2 delta indexed same.symm

/-! ## Pages in both orders -/

/-- The entries of a direction, as they are listed. -/
def listedHistory (source : Source) (key : AddressKey) (ascending : Bool) (direction : Direction) :
    List HistoryEntry :=
  inDirection direction ((source.untimed key ascending).map source.timed)

/-- The pages for one order and direction show the entries, whatever the size of a page: they do
when all of them are answered, and they are answered when every sum that is formed in this order is
an amount and the blocks of the entries can be read. -/
structure Shows (source : Source) (address : String) (key : AddressKey) (ascending : Bool)
    (direction : Direction) (entries : List HistoryEntry) : Prop where
  shown : ∀ query : HistoryQuery, query.ascending = ascending → query.direction = direction →
    ∀ pages, source.AllPages address query pages → pages.flatMap (·.entries) = entries
  answered : source.HistoryFits key ascending → source.BlocksPresent entries →
    ∀ query : HistoryQuery, query.ascending = ascending → query.direction = direction →
      1 ≤ query.pageSize → query.pageSize ≤ maxHistoryPageSize →
      source.Lists address query entries

theorem shows_listedHistory {address : String}
    (resolved : source.network.resolve address = .ok key) (ascending : Bool)
    (direction : Direction) :
    source.Shows address key ascending direction
      (source.listedHistory key ascending direction) where
  shown := by
    rintro query rfl rfl pages all
    obtain ⟨entries, history, shown⟩ := all.entries resolved
    obtain ⟨_, _, rfl⟩ := history_eq_ok_iff.mp history
    rw [shown, admitted_eq_inDirection direction_of_mem_untimed, listedHistory,
      inDirection_map_timed]
  answered := by
    rintro fits present query rfl rfl least most
    have history := fits.history_eq_ok query.direction
    rw [admitted_eq_inDirection direction_of_mem_untimed] at history
    rw [listedHistory, inDirection_map_timed] at present ⊢
    exact lists_of_history query resolved history least most fun entry member =>
      present (source.timed entry) (List.mem_map_of_mem member)

theorem listedHistory_perm (oneHeight : OneHeight (source.ledger.indexDeltas key))
    (direction : Direction) :
    (source.listedHistory key false direction).Perm (source.listedHistory key true direction) := by
  have same := (untimed_perm oneHeight).map source.timed
  cases direction with
  | any => exact same
  | received => exact same.filter _
  | sent => exact same.filter _

theorem listedHistory_reverse (oneHeight : OneHeight (source.ledger.indexDeltas key))
    (adjacent : Adjacent ((source.ledger.indexDeltas key).map (·.txid))) (direction : Direction) :
    source.listedHistory key false direction =
      (source.listedHistory key true direction).reverse := by
  rw [listedHistory, listedHistory, untimed_reverse oneHeight adjacent, List.map_reverse]
  cases direction with
  | any => rfl
  | received => exact List.filter_reverse
  | sent => exact List.filter_reverse

theorem nodup_listedHistory (source : Source) (key : AddressKey) (ascending : Bool)
    (direction : Direction) :
    ((source.listedHistory key ascending direction).map (·.txid)).Nodup := by
  have distinct := nodup_untimed source key ascending
  rw [listedHistory, inDirection_map_timed, List.map_map]
  exact distinct.sublist ((inDirection_sublist direction _).map _)

/-- **What is shown newest first is what is shown oldest first**, each transaction once, and in the
reverse order when the changes of every transaction stand side by side. -/
theorem listTransactions_mirrored {address : String}
    (resolved : source.network.resolve address = .ok key)
    (oneHeight : OneHeight (source.ledger.indexDeltas key)) (direction : Direction) :
    ∃ oldestFirst newestFirst,
      source.Shows address key true direction oldestFirst ∧
      source.Shows address key false direction newestFirst ∧
      newestFirst.Perm oldestFirst ∧
      (oldestFirst.map (·.txid)).Nodup ∧
      (Adjacent ((source.ledger.indexDeltas key).map (·.txid)) →
        newestFirst = oldestFirst.reverse) :=
  ⟨_, _, shows_listedHistory resolved true direction, shows_listedHistory resolved false direction,
    listedHistory_perm oneHeight direction, nodup_listedHistory source key true direction,
    fun adjacent => listedHistory_reverse oneHeight adjacent direction⟩

/-- A key with two changes of one confirmed transaction, one of another, and a pending one. -/
def bundled : Source :=
  .ofChanges (.ofOutputs [])
    [⟨.filled 1, 10, false, 1000⟩, ⟨.filled 1, 10, false, 50⟩, ⟨.filled 2, 10, true, -300⟩]
    [.at 6 (.filled 3) (-400)] []

/-- The entries of the key, oldest first. -/
def bundledEntries : List HistoryEntry :=
  [⟨.filled 1, 10, 1050, .received, none⟩, ⟨.filled 2, 10, -300, .sent, none⟩,
    ⟨.filled 3, mempoolHeight, -400, .sent, some 6⟩]

/-- A page of all entries in one order. -/
theorem allPages_bundled (ascending : Bool) :
    bundled.AllPages AddressKey.onesAddress { ascending }
      [bundled.shownPage (oriented ascending bundledEntries) { ascending }] := by
  have history : bundled.history .ones ascending .any =
      .ok (oriented ascending bundledEntries) := by
    cases ascending <;> exact Answer.eq_ok_of_toOption (by decide +kernel)
  have height : ∀ entry ∈ bundledEntries,
      isConfirmedHeight entry.height = true → entry.height = 10 := by
    decide +kernel
  have read : bundled.ledger.readBlock 10 = .ok (.ofOutputs []) :=
    Answer.eq_ok_of_toOption (by decide +kernel)
  refine allPages_singleton Network.resolve_onesAddress history (show 1 ≤ 10 by decide)
    (show 10 ≤ maxHistoryPageSize by decide) (fun entry member confirmed => ?_) rfl ?_
  · exact ⟨_, height entry (mem_oriented.mp member) confirmed ▸ read⟩
  · cases ascending <;> decide

/-- The three entries of the key are mirrored on pages of ten. -/
theorem listTransactions_mirrored_bundled :
    ∃ forward backward,
      bundled.AllPages AddressKey.onesAddress { ascending := true } [forward] ∧
      bundled.AllPages AddressKey.onesAddress { ascending := false } [backward] ∧
      forward.entries.length = 3 ∧ backward.entries = forward.entries.reverse := by
  have oneHeight : OneHeight (bundled.ledger.indexDeltas .ones) := by decide +kernel
  obtain ⟨oldestFirst, newestFirst, oldest, newest, _, _, mirrored⟩ :=
    listTransactions_mirrored Network.resolve_onesAddress oneHeight .any
  have forward := oldest.shown { ascending := true } rfl rfl _ (allPages_bundled true)
  have backward := newest.shown { ascending := false } rfl rfl _ (allPages_bundled false)
  rw [List.flatMap_singleton] at forward backward
  refine ⟨_, _, allPages_bundled true, allPages_bundled false, by decide +kernel, ?_⟩
  rw [forward, backward]
  exact mirrored (by decide +kernel)

/-- A key with three changes of one transaction; the first two come to more than the greatest
amount. -/
def overflowing : Source :=
  .ofChanges (.ofOutputs [])
    [⟨.filled 1, 10, false, Int64.maxValue⟩, ⟨.filled 1, 10, false, 1⟩,
      ⟨.filled 1, 10, false, -2⟩] [] []

/-- **A history may be stopped in one order alone.**  The changes of the one transaction stand side
by side and carry one height.  Newest first there is one page with their total; oldest first every
page is stopped, because two of the changes exceed the greatest amount before the third one is
added. -/
theorem stopped_oldest_first :
    OneHeight (overflowing.ledger.indexDeltas .ones) ∧
    Adjacent ((overflowing.ledger.indexDeltas .ones).map (·.txid)) ∧
    (∃ page, overflowing.AllPages AddressKey.onesAddress { ascending := false } [page] ∧
      page.entries.map (·.amount) = [Int64.maxValue - 1]) ∧
    ∀ page, Query.Always
      (overflowing.listTransactions AddressKey.onesAddress { page := page + 1, ascending := true })
      (.error .stopped) := by
  have history : overflowing.history .ones false .any =
      .ok [⟨.filled 1, 10, Int64.maxValue - 1, .received, none⟩] :=
    Answer.eq_ok_of_toOption (by decide +kernel)
  have stops : overflowing.history .ones true .any = .error .stopped :=
    Answer.eq_stopped_of_isStopped (by decide +kernel)
  have read : overflowing.ledger.readBlock 10 = .ok (.ofOutputs []) :=
    Answer.eq_ok_of_toOption (by decide +kernel)
  have present :
      overflowing.BlocksPresent [⟨.filled 1, 10, Int64.maxValue - 1, .received, none⟩] := by
    intro entry member _
    cases List.mem_singleton.mp member
    exact ⟨_, read⟩
  have newest : overflowing.AllPages AddressKey.onesAddress { ascending := false }
      [overflowing.shownPage [⟨.filled 1, 10, Int64.maxValue - 1, .received, none⟩]
        { ascending := false }] :=
    allPages_singleton Network.resolve_onesAddress history (show 1 ≤ 10 by decide)
      (show 10 ≤ maxHistoryPageSize by decide) present rfl (by decide)
  refine ⟨by decide +kernel, by decide +kernel, ⟨_, newest, by decide +kernel⟩, fun page => ?_⟩
  have answered : overflowing.historyPage AddressKey.onesAddress
      { page := page + 1, ascending := true } = .error .stopped := by
    rw [historyPage, checkPageSize_eq_ok (show 1 ≤ 10 by decide)
      (show 10 ≤ maxHistoryPageSize by decide), if_neg (Nat.succ_ne_zero page),
      show overflowing.network.resolve AddressKey.onesAddress = .ok .ones from
        Network.resolve_onesAddress]
    dsimp only [bind, Except.bind]
    rw [stops]
  exact answered ▸ listTransactions_always _ _

end Source

end CoinLedger
