import CoinLedger.Proofs.BlockLedger
import CoinLedger.Proofs.CachedQuery
import CoinLedger.Proofs.Listing.Page
import CoinLedger.Proofs.Listing.Sightings
import CoinLedger.Proofs.Related

/-!
# Pages of the history

The history of a key has one entry for each distinct transaction (`IsHistory.nodup`), which tells
the exact total of its changes (`Tells`): the confirmed transactions in the order of first sighting,
and at the newest end the pending ones that are not confirmed.  There is a history when every sum
that is formed on the way is an amount (`history_eq_ok_iff`).  A page is cut from the entries of the
direction asked for.  The pages of a query together show all of them, each once and in order
(`lists_of_history`), whatever the sessions in which they are asked for, and whatever the size of a
page they show the same history (`listTransactions_pages`).
-/

set_option autoImplicit false

namespace CoinLedger

open Amount Change

namespace Source

variable {source : Source}

/-- An entry as it is listed: with the time of its block when it has a height. -/
def timedEntry (source : Source) (entry : HistoryEntry) : Answer HistoryEntry :=
  if isConfirmedHeight entry.height then do
    let block ← source.ledger.readBlock entry.height
    return { entry with time := some block.time }
  else return entry

/-- The page of the history that is asked for, or why there is none. -/
def historyPage (source : Source) (address : String) (query : HistoryQuery) :
    Answer HistoryPage := do
  checkPageSize query.pageSize maxHistoryPageSize
  if query.page = 0 then throw pageNumberTooSmall
  let key ← source.network.resolve address
  let entries ← source.history key query.ascending query.direction
  let pages := max (pageCount entries.length query.pageSize) 1
  checkPageNumber query.page pages
  let window := pageWindow entries.length query.page query.pageSize
  let listed ← (window.select entries).mapM source.timedEntry
  return { totalCount := entries.length, pageCount := pages, page := query.page, entries := listed }

theorem addBlockTimes_always (entries : List HistoryEntry) :
    Query.Always (source.addBlockTimes entries) (entries.mapM source.timedEntry) := by
  induction entries with
  | nil => exact Query.always_ofAnswer (.ok [])
  | cons entry rest ih =>
      rw [addBlockTimes, List.mapM_cons, timedEntry]
      by_cases confirmed : isConfirmedHeight entry.height
      · rw [if_pos confirmed, if_pos confirmed, bind_assoc]
        exact (readBlock_always entry.height).bind fun block => ih.bind fun others =>
          Query.always_ofAnswer (.ok _)
      · rw [if_neg confirmed, if_neg confirmed]
        exact ih.bind fun others => Query.always_ofAnswer (.ok _)

/-- **A page does not depend on the session in which it is asked for.** -/
theorem listTransactions_always (address : String) (query : HistoryQuery) :
    Query.Always (source.listTransactions address query) (source.historyPage address query) := by
  refine (Query.always_ofAnswer _).bind fun _ => ?_
  by_cases zero : query.page = 0
  · rw [if_pos zero, if_pos zero]
    exact Query.always_ofAnswer (.error _)
  · rw [if_neg zero, if_neg zero]
    refine (Query.always_ofAnswer _).bind fun key => (Query.always_ofAnswer _).bind fun entries =>
      (Query.always_ofAnswer _).bind fun _ => ?_
    exact (addBlockTimes_always _).bind fun listed => Query.always_ofAnswer (.ok _)

/-! ## The history of a key -/

/-- The confirmed changes of a key, in or against ledger order. -/
def indexChanges (source : Source) (key : AddressKey) (ascending : Bool) : List Change :=
  (if ascending then source.ledger.indexDeltas key
    else (source.ledger.indexDeltas key).reverse).map .ofIndex

/-- The pending changes of a key whose transaction is not confirmed. -/
def newDeltas (source : Source) (key : AddressKey) : List PendingDelta :=
  (source.ledger.pendingDeltas key).filter fun delta =>
    !(source.ledger.indexDeltas key).any (·.txid = delta.txid)

theorem txid_ne_of_mem_newDeltas {key : AddressKey} {delta : PendingDelta}
    (new : delta ∈ source.newDeltas key) :
    ∀ confirmed ∈ source.ledger.indexDeltas key, confirmed.txid ≠ delta.txid := by
  have unconfirmed := (List.mem_filter.mp new).2
  rw [Bool.not_eq_true', List.any_eq_false] at unconfirmed
  exact fun confirmed indexed same => unconfirmed confirmed indexed (decide_eq_true same)

/-- Every sum that the history of a key forms is an amount; pending changes are added up in the
order of their times. -/
structure HistoryFits (source : Source) (key : AddressKey) (ascending : Bool) : Prop where
  confirmed : Summable (source.indexChanges key ascending)
  pending : ∀ sorted, StablySorted (source.newDeltas key) sorted → Summable (sorted.map .ofPending)

/-- All sums are amounts when the sizes of all changes of the key add up to one. -/
theorem HistoryFits.of_small {key : AddressKey}
    (confirmed : ((source.ledger.indexDeltas key).map fun delta =>
      delta.amount.toInt.natAbs).sum < 2 ^ 63)
    (pending : ((source.newDeltas key).map fun delta => delta.amount.toInt.natAbs).sum < 2 ^ 63)
    (ascending : Bool) : source.HistoryFits key ascending where
  confirmed := by
    refine .of_small ?_
    rw [indexChanges, List.map_map]
    cases ascending with
    | true => exact confirmed
    | false => exact (((List.reverse_perm _).map _).sum_eq).trans_lt confirmed
  pending sorted stably := by
    refine .of_small ?_
    rw [List.map_map]
    exact ((stably.permuted.map _).sum_eq).trans_lt pending

/-- The time that is listed for a change: that of its block, or its own without a block. -/
def timeAt (source : Source) (height : Int32) (time : Option Int64) : Option Int64 :=
  if isConfirmedHeight height then (source.ledger.readBlock height).toOption.map (·.time) else time

/-- The entry tells the exact total of a transaction, given its first change. -/
structure Tells (source : Source) (changes : List Change) (first : Change) (entry : HistoryEntry) :
    Prop where
  txid : entry.txid = first.txid
  height : entry.height = first.height
  amount : entry.amount.toInt = totalFor changes first.txid
  direction : entry.direction = if 0 < totalFor changes first.txid then .received else .sent
  time : entry.time = source.timeAt first.height first.time

/-- The entries are the history of a key: one for each confirmed transaction, in the order of first
sighting, and at the newest end one for each pending transaction that is not confirmed. -/
def IsHistory (source : Source) (key : AddressKey) (ascending : Bool)
    (entries : List HistoryEntry) : Prop :=
  ∃ sorted confirmed pending,
    StablySorted (source.newDeltas key) sorted ∧
      List.Forall₂ (source.Tells (source.indexChanges key ascending))
        (firsts (source.indexChanges key ascending)) confirmed ∧
      List.Forall₂ (source.Tells (sorted.map .ofPending)) (firsts (sorted.map .ofPending)) pending ∧
      entries = if ascending then confirmed ++ pending else pending.reverse ++ confirmed

/-- The entry with the time that is listed for it. -/
def timed (source : Source) (entry : HistoryEntry) : HistoryEntry :=
  { entry with time := source.timeAt entry.height entry.time }

theorem tells_summary {changes : List Change} {first : Change}
    (fits : InRange (totalFor changes first.txid)) :
    source.Tells changes first (source.timed (HistoryEntry.summary changes first).directed) where
  txid := rfl
  height := rfl
  amount := toInt_ofInt_of_inRange fits
  direction := if_congr (pos_ofInt_iff fits) rfl rfl
  time := rfl

theorem tells_summaries {changes : List Change} (fits : Summable changes) :
    List.Forall₂ (source.Tells changes) (firsts changes)
      ((HistoryEntry.directedSummaries changes).map source.timed) := by
  rw [HistoryEntry.directedSummaries, List.map_map, List.forall₂_map_right_iff, List.forall₂_same]
  exact fun first _ => tells_summary (fits.total_inRange first.txid)

theorem mem_indexChanges {key : AddressKey} {ascending : Bool} {change : Change} :
    change ∈ source.indexChanges key ascending ↔
      ∃ delta ∈ source.ledger.indexDeltas key, ofIndex delta = change := by
  cases ascending <;> simp [indexChanges]

/-- The entries of changes are one for each distinct transaction. -/
theorem map_txid_of_tells {changes : List Change} {entries : List HistoryEntry}
    (tell : List.Forall₂ (source.Tells changes) (firsts changes) entries) :
    entries.map (·.txid) = (changes.map (·.txid)).eraseDups := by
  rw [← map_txid_firsts]
  exact (map_eq_of_forall₂ (fun _ _ tells => tells.txid.symm) tell).symm

/-- The blocks of the confirmed entries can be read. -/
def BlocksPresent (source : Source) (entries : List HistoryEntry) : Prop :=
  ∀ entry ∈ entries, isConfirmedHeight entry.height = true →
    ∃ block, source.ledger.readBlock entry.height = .ok block

/-- Every entry tells the total of a transaction, which is confirmed or has no height. -/
theorem IsHistory.exists_tells {key : AddressKey} {ascending : Bool} {entries : List HistoryEntry}
    (history : source.IsHistory key ascending entries) {entry : HistoryEntry}
    (member : entry ∈ entries) :
    ∃ changes first, source.Tells changes first entry ∧
      (first ∈ source.indexChanges key ascending ∨ first.height = mempoolHeight) := by
  obtain ⟨sorted, confirmed, pending, _, tellConfirmed, tellPending, rfl⟩ := history
  have parts : entry ∈ confirmed ∨ entry ∈ pending := by
    cases ascending with
    | true => exact List.mem_append.mp member
    | false => exact (List.mem_append.mp member).symm.imp_right List.mem_reverse.mp
  rcases parts with old | new
  · obtain ⟨first, isFirst, tells⟩ := exists_related_of_mem tellConfirmed old
    exact ⟨_, first, tells, .inl (mem_of_mem_firsts isFirst)⟩
  · obtain ⟨first, isFirst, tells⟩ := exists_related_of_mem tellPending new
    obtain ⟨delta, _, rfl⟩ := List.mem_map.mp (mem_of_mem_firsts isFirst)
    exact ⟨_, _, tells, .inr rfl⟩

/-- The blocks of the entries can be read when those of all confirmed changes can. -/
theorem IsHistory.blocksPresent {key : AddressKey} {ascending : Bool} {entries : List HistoryEntry}
    (history : source.IsHistory key ascending entries)
    (present : ∀ delta ∈ source.ledger.indexDeltas key,
      ∃ block, source.ledger.readBlock delta.height = .ok block) :
    source.BlocksPresent entries := by
  intro entry member confirmed
  obtain ⟨changes, first, tells, indexed | waiting⟩ := history.exists_tells member
  · obtain ⟨delta, listed, rfl⟩ := mem_indexChanges.mp indexed
    rw [tells.height]
    exact present delta listed
  · rw [tells.height, waiting] at confirmed
    exact absurd confirmed (by decide)

/-- Distinct transactions stay so when the pending ones are put at the newest end. -/
theorem nodup_joined {confirmed pending : List HistoryEntry}
    (nodupConfirmed : (confirmed.map (·.txid)).Nodup) (nodupPending : (pending.map (·.txid)).Nodup)
    (apart : List.Disjoint (confirmed.map (·.txid)) (pending.map (·.txid))) (ascending : Bool) :
    ((if ascending then confirmed ++ pending else pending.reverse ++ confirmed).map
      (·.txid)).Nodup := by
  cases ascending with
  | true =>
      rw [if_pos rfl, List.map_append, List.nodup_append']
      exact ⟨nodupConfirmed, nodupPending, apart⟩
  | false =>
      rw [if_neg Bool.false_ne_true, List.map_append, List.map_reverse, List.nodup_append']
      exact ⟨List.nodup_reverse.mpr nodupPending, nodupConfirmed,
        fun txid new old => apart old (List.mem_reverse.mp new)⟩

/-- **No transaction has two entries.** -/
theorem IsHistory.nodup {key : AddressKey} {ascending : Bool} {entries : List HistoryEntry}
    (history : source.IsHistory key ascending entries) : (entries.map (·.txid)).Nodup := by
  obtain ⟨sorted, confirmed, pending, stably, tellConfirmed, tellPending, rfl⟩ := history
  have apart : List.Disjoint (confirmed.map (·.txid)) (pending.map (·.txid)) := by
    intro txid old new
    rw [map_txid_of_tells tellConfirmed, List.mem_eraseDups] at old
    rw [map_txid_of_tells tellPending, List.mem_eraseDups, List.map_map] at new
    obtain ⟨change, changed, rfl⟩ := List.mem_map.mp old
    obtain ⟨confirmedDelta, indexed, rfl⟩ := mem_indexChanges.mp changed
    obtain ⟨delta, listed, same⟩ := List.mem_map.mp new
    exact txid_ne_of_mem_newDeltas (stably.permuted.mem_iff.mp listed) confirmedDelta indexed
      same.symm
  have nodupConfirmed : (confirmed.map (·.txid)).Nodup :=
    map_txid_of_tells tellConfirmed ▸ nodup_eraseDups _
  have nodupPending : (pending.map (·.txid)).Nodup :=
    map_txid_of_tells tellPending ▸ nodup_eraseDups _
  exact nodup_joined nodupConfirmed nodupPending apart ascending

/-- The new pending changes of a key in the order of their times. -/
def sortedDeltas (source : Source) (key : AddressKey) : List PendingDelta :=
  (sortByTimestamp (source.ledger.pendingDeltas key)).filter fun delta =>
    !(source.ledger.indexDeltas key).any (·.txid = delta.txid)

theorem stablySorted_sortedDeltas (key : AddressKey) :
    StablySorted (source.newDeltas key) (source.sortedDeltas key) :=
  (stablySorted_sortByTimestamp _).filter _

/-- The entries of a key in the order asked for, before the times of their blocks are looked up. -/
def untimed (source : Source) (key : AddressKey) (ascending : Bool) : List HistoryEntry :=
  let confirmed := HistoryEntry.directedSummaries (source.indexChanges key ascending)
  let pending := HistoryEntry.directedSummaries ((source.sortedDeltas key).map .ofPending)
  if ascending then confirmed ++ pending else pending.reverse ++ confirmed

/-- The entries that the direction admits. -/
def admitted (direction : Direction) (entries : List HistoryEntry) : List HistoryEntry :=
  entries.filter fun entry => direction.admits entry.direction

/-- **There is a history when every sum on the way is an amount.** -/
theorem history_eq_ok_iff {key : AddressKey} {ascending : Bool} {direction : Direction}
    {entries : List HistoryEntry} :
    source.history key ascending direction = .ok entries ↔
      Summable (source.indexChanges key ascending) ∧
        Summable ((source.sortedDeltas key).map .ofPending) ∧
        entries = admitted direction (source.untimed key ascending) := by
  constructor
  · intro history
    obtain ⟨confirmed, first, history⟩ := Answer.bind_eq_ok.mp history
    obtain ⟨pending, second, history⟩ := Answer.bind_eq_ok.mp history
    obtain ⟨confirmedFits, rfl⟩ := HistoryEntry.ofConfirmed_eq_ok_iff.mp first
    obtain ⟨pendingFits, rfl⟩ := HistoryEntry.ofPending_eq_ok_iff.mp second
    exact ⟨confirmedFits, pendingFits, (Except.ok.inj history).symm⟩
  · rintro ⟨confirmedFits, pendingFits, rfl⟩
    exact Answer.bind_eq_ok.mpr ⟨_, HistoryEntry.ofConfirmed_eq_ok_iff.mpr ⟨confirmedFits, rfl⟩,
      Answer.bind_eq_ok.mpr ⟨_, HistoryEntry.ofPending_eq_ok_iff.mpr ⟨pendingFits, rfl⟩, rfl⟩⟩

theorem HistoryFits.history_eq_ok {key : AddressKey} {ascending : Bool}
    (fits : source.HistoryFits key ascending) (direction : Direction) :
    source.history key ascending direction =
      .ok (admitted direction (source.untimed key ascending)) :=
  history_eq_ok_iff.mpr
    ⟨fits.confirmed, fits.pending _ (stablySorted_sortedDeltas key), rfl⟩

/-- **The entries that the pages are cut from are the history of the key.** -/
theorem isHistory_timed {key : AddressKey} {ascending : Bool}
    (confirmed : Summable (source.indexChanges key ascending))
    (pending : Summable ((source.sortedDeltas key).map .ofPending)) :
    source.IsHistory key ascending ((source.untimed key ascending).map source.timed) := by
  refine ⟨source.sortedDeltas key, _, _, stablySorted_sortedDeltas key, tells_summaries confirmed,
    tells_summaries pending, ?_⟩
  cases ascending <;> simp [untimed]

/-! ## Pages -/

/-- The entries whose net amount went in a direction: what was received is positive, and what was
sent is not. -/
def inDirection (direction : Direction) (entries : List HistoryEntry) : List HistoryEntry :=
  match direction with
  | .any => entries
  | .received => entries.filter fun entry => 0 < entry.amount.toInt
  | .sent => entries.filter fun entry => entry.amount.toInt ≤ 0

/-- A direction admits the entries whose amounts went that way. -/
theorem admitted_eq_inDirection {entries : List HistoryEntry}
    (directed : ∀ entry ∈ entries, entry.direction = .ofAmount entry.amount)
    (direction : Direction) : admitted direction entries = inDirection direction entries := by
  have positive : ∀ entry : HistoryEntry, 0 < entry.amount ↔ 0 < entry.amount.toInt := fun entry =>
    Int64.lt_iff_toInt_lt
  cases direction with
  | any => exact List.filter_eq_self.mpr fun _ _ => rfl
  | received =>
      refine List.filter_congr fun entry member => ?_
      rw [directed entry member, Direction.ofAmount]
      by_cases received : 0 < entry.amount
      · simp [received, (positive entry).mp received, Direction.admits]
      · simp [received, mt (positive entry).mpr received, Direction.admits]
  | sent =>
      refine List.filter_congr fun entry member => ?_
      rw [directed entry member, Direction.ofAmount]
      by_cases received : 0 < entry.amount
      · simp [received, (positive entry).mp received, Direction.admits]
      · simp [received, Int.not_lt.mp (mt (positive entry).mpr received), Direction.admits]

theorem direction_of_mem_untimed {key : AddressKey} {ascending : Bool} :
    ∀ entry ∈ source.untimed key ascending, entry.direction = .ofAmount entry.amount := by
  have directed : ∀ changes, ∀ entry ∈ HistoryEntry.directedSummaries changes,
      entry.direction = .ofAmount entry.amount := by
    intro changes entry member
    obtain ⟨first, _, rfl⟩ := List.mem_map.mp member
    rfl
  intro entry member
  cases ascending with
  | true => exact (List.mem_append.mp member).elim (directed _ entry) (directed _ entry)
  | false =>
      exact (List.mem_append.mp member).elim
        (fun newer => directed _ entry (List.mem_reverse.mp newer)) (directed _ entry)

theorem inDirection_map_timed (direction : Direction) (entries : List HistoryEntry) :
    inDirection direction (entries.map source.timed) =
      (inDirection direction entries).map source.timed := by
  cases direction with
  | any => rfl
  | received => exact List.filter_map
  | sent => exact List.filter_map

theorem inDirection_append (direction : Direction) (front back : List HistoryEntry) :
    inDirection direction (front ++ back) =
      inDirection direction front ++ inDirection direction back := by
  cases direction with
  | any => rfl
  | received => exact List.filter_append ..
  | sent => exact List.filter_append ..

theorem inDirection_sublist (direction : Direction) (entries : List HistoryEntry) :
    (inDirection direction entries).Sublist entries := by
  cases direction with
  | any => exact .refl _
  | received => exact List.filter_sublist
  | sent => exact List.filter_sublist

/-- What the history has in either direction is all of it. -/
theorem partition_inDirection (entries : List HistoryEntry) :
    (inDirection .received entries ++ inDirection .sent entries).Perm entries := by
  have other : inDirection .sent entries =
      entries.filter fun entry => !decide (0 < entry.amount.toInt) :=
    List.filter_congr fun _ _ => (decide_eq_decide.mpr Int.not_lt.symm).trans (decide_not ..)
  rw [other]
  exact List.filter_append_perm _ entries

/-- How many pages there are for some entries; there is one even without an entry. -/
def lastPage (entries : List HistoryEntry) (pageSize : Nat) : Nat :=
  max (pageCount entries.length pageSize) 1

/-- The pages of a query show the entries, each once and in order, and there are no other pages. -/
structure Lists (source : Source) (address : String) (query : HistoryQuery)
    (entries : List HistoryEntry) : Prop where
  zero : Query.Always (source.listTransactions address { query with page := 0 })
    (.error pageNumberTooSmall)
  beyond : ∀ page, lastPage entries query.pageSize < page →
    Query.Always (source.listTransactions address { query with page })
      (.error (.pageOutOfRange page (lastPage entries query.pageSize)))
  pages : ∃ shown : List HistoryPage,
    List.Forall₂
      (fun number page =>
        Query.Always (source.listTransactions address { query with page := number }) (.ok page) ∧
          page.totalCount = entries.length ∧ page.pageCount = lastPage entries query.pageSize ∧
          page.page = number)
      (List.range' 1 (lastPage entries query.pageSize)) shown ∧
    shown.flatMap (·.entries) = entries

theorem timedEntry_eq_ok {entry : HistoryEntry}
    (present : isConfirmedHeight entry.height = true →
      ∃ block, source.ledger.readBlock entry.height = .ok block) :
    source.timedEntry entry = .ok (source.timed entry) := by
  rw [timedEntry, timed, timeAt]
  by_cases confirmed : isConfirmedHeight entry.height
  · obtain ⟨block, read⟩ := present confirmed
    rw [if_pos confirmed, if_pos confirmed, read]
    rfl
  · rw [if_neg confirmed, if_neg confirmed]
    rfl

theorem eq_timed_of_timedEntry {entry listed : HistoryEntry}
    (looked : source.timedEntry entry = .ok listed) : listed = source.timed entry := by
  have present : isConfirmedHeight entry.height = true →
      ∃ block, source.ledger.readBlock entry.height = .ok block := by
    intro confirmed
    rw [timedEntry, if_pos confirmed] at looked
    obtain ⟨block, read, _⟩ := Answer.bind_eq_ok.mp looked
    exact ⟨block, read⟩
  rw [timedEntry_eq_ok present] at looked
  cases looked
  rfl

theorem mapM_timedEntry {entries : List HistoryEntry} (present : source.BlocksPresent entries) :
    entries.mapM source.timedEntry = .ok (entries.map source.timed) := by
  rw [mapM_eq_ok, List.forall₂_map_right_iff, List.forall₂_same]
  exact fun entry member => timedEntry_eq_ok (present entry member)

theorem eq_map_timed_of_mapM {entries listed : List HistoryEntry}
    (looked : entries.mapM source.timedEntry = .ok listed) :
    listed = entries.map source.timed := by
  have same : entries.map source.timed = listed.map id := by
    refine map_eq_of_forall₂ (fun entry shown timed => ?_) (mapM_eq_ok.mp looked)
    exact (eq_timed_of_timedEntry timed).symm
  rw [same, List.map_id]

/-- The page of some entries that a query asks for, as it is shown when all blocks can be read. -/
def shownPage (source : Source) (entries : List HistoryEntry) (query : HistoryQuery) :
    HistoryPage where
  totalCount := entries.length
  pageCount := lastPage entries query.pageSize
  page := query.page
  entries := ((pageWindow entries.length query.page query.pageSize).select entries).map source.timed

/-- The windows of enough pages show all entries. -/
theorem flatMap_shownPage {entries : List HistoryEntry} {query : HistoryQuery}
    (least : 1 ≤ query.pageSize) {pages : Nat}
    (enough : pageCount entries.length query.pageSize ≤ pages) :
    (List.range' 1 pages).flatMap
        (fun number => (source.shownPage entries { query with page := number }).entries) =
      entries.map source.timed := by
  simp only [shownPage]
  rw [← List.map_flatMap, flatMap_pages entries least enough]

section Resolved

variable {address : String} {key : AddressKey} (query : HistoryQuery) {entries : List HistoryEntry}
  (resolved : source.network.resolve address = .ok key)
  (history : source.history key query.ascending query.direction = .ok entries)
  (least : 1 ≤ query.pageSize) (most : query.pageSize ≤ maxHistoryPageSize)

include resolved history least most

theorem historyPage_resolved (positive : query.page ≠ 0) :
    source.historyPage address query = (do
      checkPageNumber query.page (lastPage entries query.pageSize)
      let listed ← ((pageWindow entries.length query.page query.pageSize).select entries).mapM
        source.timedEntry
      return {
        totalCount := entries.length, pageCount := lastPage entries query.pageSize
        page := query.page, entries := listed }) := by
  rw [historyPage, checkPageSize_eq_ok least most, if_neg positive, resolved]
  dsimp only [bind, Except.bind]
  rw [history]
  rfl

theorem historyPage_beyond (beyond : lastPage entries query.pageSize < query.page) :
    source.historyPage address query =
      .error (.pageOutOfRange query.page (lastPage entries query.pageSize)) := by
  rw [historyPage_resolved query resolved history least most (Nat.ne_zero_of_lt beyond),
    checkPageNumber_beyond beyond]
  rfl

theorem historyPage_eq_shownPage (present : source.BlocksPresent entries)
    (positive : 1 ≤ query.page) (inside : query.page ≤ lastPage entries query.pageSize) :
    source.historyPage address query = .ok (source.shownPage entries query) := by
  rw [historyPage_resolved query resolved history least most (Nat.ne_zero_of_lt positive),
    checkPageNumber_eq_ok positive inside,
    mapM_timedEntry fun entry selected => present entry (mem_of_mem_select selected)]
  rfl

/-- **The pages of a query show its entries.** -/
theorem lists_of_history (present : source.BlocksPresent entries) :
    source.Lists address query (entries.map source.timed) := by
  have last : lastPage (entries.map source.timed) query.pageSize =
      lastPage entries query.pageSize := by
    rw [lastPage, lastPage, List.length_map]
  refine ⟨?_, fun page beyond => ?_, ?_⟩
  · have answered : source.historyPage address { query with page := 0 } =
        .error pageNumberTooSmall := by
      rw [historyPage, checkPageSize_eq_ok least most]
      rfl
    exact answered ▸ listTransactions_always address _
  · rw [last] at beyond ⊢
    have answered := historyPage_beyond { query with page } resolved history least most beyond
    exact answered ▸ listTransactions_always address _
  · rw [last]
    refine ⟨(List.range' 1 (lastPage entries query.pageSize)).map fun number =>
      source.shownPage entries { query with page := number }, ?_, ?_⟩
    · rw [List.forall₂_map_right_iff, List.forall₂_same]
      intro number member
      obtain ⟨positive, inside⟩ := List.mem_range'_1.mp member
      have answered := historyPage_eq_shownPage { query with page := number } resolved history
        least most present positive (Nat.lt_one_add_iff.mp inside)
      exact ⟨answered ▸ listTransactions_always address _, (List.length_map _).symm, rfl, rfl⟩
    · rw [List.flatMap_map]
      exact flatMap_shownPage least (Nat.le_max_left _ _)

end Resolved

/-- A page that is answered is the one that is shown when all blocks can be read. -/
theorem eq_shownPage_of_historyPage {address : String} {key : AddressKey}
    (resolved : source.network.resolve address = .ok key) {query : HistoryQuery}
    {page : HistoryPage}
    (answered : source.historyPage address query = .ok page) :
    ∃ entries, source.history key query.ascending query.direction = .ok entries ∧
      1 ≤ query.pageSize ∧ page = source.shownPage entries query := by
  obtain ⟨_, sized, answered⟩ := Answer.bind_eq_ok.mp answered
  have least : 1 ≤ query.pageSize := by
    rw [checkPageSize] at sized
    split at sized
    · cases sized
    · omega
  by_cases zero : query.page = 0
  · rw [if_pos zero] at answered
    cases answered
  · rw [if_neg zero] at answered
    obtain ⟨found, same, answered⟩ := Answer.bind_eq_ok.mp answered
    cases resolved.symm.trans same
    obtain ⟨entries, history, answered⟩ := Answer.bind_eq_ok.mp answered
    obtain ⟨_, _, answered⟩ := Answer.bind_eq_ok.mp answered
    obtain ⟨listed, looked, answered⟩ := Answer.bind_eq_ok.mp answered
    cases answered
    rw [eq_map_timed_of_mapM looked]
    exact ⟨entries, history, least, rfl⟩

/-- The pages are all pages of a query, whatever its own page number, in their order. -/
structure AllPages (source : Source) (address : String) (query : HistoryQuery)
    (pages : List HistoryPage) : Prop where
  nonempty : pages ≠ []
  count : ∀ page ∈ pages, page.pageCount = pages.length
  answered : List.Forall₂
    (fun number page => ∃ session,
      ((source.listTransactions address { query with page := number }).runIn session).1 = .ok page)
    (List.range' 1 pages.length) pages

/-- The first page is all pages when there is no other one. -/
theorem allPages_singleton {address : String} {key : AddressKey} {query : HistoryQuery}
    {entries : List HistoryEntry} (resolved : source.network.resolve address = .ok key)
    (history : source.history key query.ascending query.direction = .ok entries)
    (least : 1 ≤ query.pageSize) (most : query.pageSize ≤ maxHistoryPageSize)
    (present : source.BlocksPresent entries) (first : query.page = 1)
    (last : lastPage entries query.pageSize = 1) :
    source.AllPages address query [source.shownPage entries query] := by
  have answered : source.historyPage address { query with page := 1 } =
      .ok (source.shownPage entries query) := by
    rw [← first]
    exact historyPage_eq_shownPage query resolved history least most present
      (Nat.le_of_eq first.symm) (Nat.le_of_eq (first.trans last.symm))
  refine ⟨List.cons_ne_nil _ _, fun page member => ?_, ?_⟩
  · cases List.mem_singleton.mp member
    exact last
  · exact .cons ⟨{}, (listTransactions_always address _ _).trans answered⟩ .nil

/-- **All pages of a query show its entries**, in whatever sessions they are answered. -/
theorem AllPages.entries {address : String} {key : AddressKey}
    (resolved : source.network.resolve address = .ok key) {query : HistoryQuery}
    {pages : List HistoryPage} (all : source.AllPages address query pages) :
    ∃ entries, source.history key query.ascending query.direction = .ok entries ∧
      pages.flatMap (·.entries) = entries.map source.timed := by
  have shown := all.answered.imp fun number page ⟨session, answered⟩ =>
    eq_shownPage_of_historyPage resolved
      ((listTransactions_always address _ session).symm.trans answered)
  obtain ⟨page, member⟩ := List.exists_mem_of_ne_nil pages all.nonempty
  obtain ⟨number, _, entries, history, sized, same⟩ := exists_related_of_mem shown member
  have least : 1 ≤ query.pageSize := sized
  have enough : pageCount entries.length query.pageSize ≤ pages.length := by
    rw [← all.count page member, same]
    exact Nat.le_max_left _ _
  refine ⟨entries, history, ?_⟩
  rw [← flatMap_shownPage least enough, List.flatMap, List.flatMap]
  refine congrArg List.flatten (map_eq_of_forall₂ (fun number page told => ?_) shown).symm
  obtain ⟨others, found, _, rfl⟩ := told
  cases history.symm.trans found
  rfl

/-- **The pages of the history of a key show it, each entry once and in order**, restricted to the
direction that is asked for; what was received and what was sent make up all of it. -/
theorem listTransactions_pages {address : String} {key : AddressKey}
    (resolved : source.network.resolve address = .ok key) {ascending : Bool}
    (fits : source.HistoryFits key ascending) :
    ∃ entries, source.IsHistory key ascending entries ∧
      (∀ query : HistoryQuery, query.ascending = ascending → 1 ≤ query.pageSize →
        query.pageSize ≤ maxHistoryPageSize →
        source.BlocksPresent (inDirection query.direction entries) →
          source.Lists address query (inDirection query.direction entries)) ∧
      (inDirection .received entries ++ inDirection .sent entries).Perm
        (inDirection .any entries) ∧
      (entries.map (·.txid)).Nodup := by
  have history := isHistory_timed fits.confirmed (fits.pending _ (stablySorted_sortedDeltas key))
  refine ⟨_, history, ?_, partition_inDirection _, history.nodup⟩
  rintro query rfl least most present
  have answered := fits.history_eq_ok query.direction
  rw [admitted_eq_inDirection direction_of_mem_untimed] at answered
  rw [inDirection_map_timed] at present ⊢
  exact lists_of_history query resolved answered least most fun entry member =>
    present (source.timed entry) (List.mem_map_of_mem member)

/-- A key with three confirmed changes of two transactions, and with pending changes of one of these
and of two other transactions. -/
def revisited : Source :=
  .ofChanges (.ofOutputs [])
    [⟨.filled 1, 10, false, 1000⟩, ⟨.filled 2, 10, true, -300⟩, ⟨.filled 1, 10, false, 50⟩]
    [.at 7 (.filled 2) 900, .at 6 (.filled 3) (-400), .at 5 (.filled 4) 250] []

/-- The receipts of the key, newest first and one on a page. -/
theorem listTransactions_pages_receipts :
    ∃ entries, revisited.IsHistory .ones false entries ∧
      revisited.Lists AddressKey.onesAddress { pageSize := 1, direction := .received }
        (inDirection .received entries) := by
  have fits : revisited.HistoryFits .ones false :=
    .of_small (by decide +kernel) (by decide +kernel) false
  have height : ∀ delta ∈ revisited.ledger.indexDeltas .ones, delta.height = 10 := by
    decide +kernel
  have read : revisited.ledger.readBlock 10 = .ok (.ofOutputs []) :=
    Answer.eq_ok_of_toOption (by decide +kernel)
  obtain ⟨entries, history, lists, _⟩ := listTransactions_pages Network.resolve_onesAddress fits
  have present := history.blocksPresent fun delta member => ⟨_, height delta member ▸ read⟩
  exact ⟨entries, history, lists { pageSize := 1, direction := .received } rfl (by decide)
    (by decide) fun entry member => present entry (List.mem_filter.mp member).1⟩

end Source

end CoinLedger
