import CoinLedger.Proofs.Ledger.Indexes
import CoinLedger.Proofs.Listing.Mirror
import CoinLedger.Proofs.Listing.Paged

/-!
# The order of the history

Loading keeps the confirmed changes of a key as they are written down, those of one entry behind
those of the entries before it, and the history takes over their order: the confirmed transactions
stand where they are first met, the pending ones at the newest end (`InWrittenOrder`).  So where the
changes are written down oldest first, the pages show the transactions by height
(`listTransactions_inWrittenOrder`).  Nothing else puts them in order, so a change that is written
in front of one from an earlier block is shown in front of it (`newer_listed_first`).
-/

set_option autoImplicit false

namespace CoinLedger

open Change

/-- The transaction and the height with which a change is met. -/
def Change.sighting (change : Change) : Txid × Int32 :=
  (change.txid, change.height)

/-- The transaction and the height that an entry shows. -/
def HistoryEntry.sighting (entry : HistoryEntry) : Txid × Int32 :=
  (entry.txid, entry.height)

namespace Source

variable {source : Source} {key : AddressKey}

/-- The confirmed entries of a direction stand as their transactions are first met, and the other
ones are pending. -/
structure InWrittenOrder (source : Source) (key : AddressKey) (ascending : Bool)
    (direction : Direction) (confirmed pending : List HistoryEntry) : Prop where
  met : (confirmed.map (·.sighting)).Sublist
    ((firsts (source.indexChanges key ascending)).map sighting)
  /-- In no particular direction all transactions are shown. -/
  all : direction = .any → confirmed.map (·.sighting) =
    (firsts (source.indexChanges key ascending)).map sighting
  waiting : ∀ entry ∈ pending, entry.height = mempoolHeight
  unconfirmed : ∀ entry ∈ pending, ∀ delta ∈ source.ledger.indexDeltas key,
    delta.txid ≠ entry.txid

/-- The entries of confirmed changes show the first sightings. -/
theorem map_sighting_directedSummaries (changes : List Change) :
    (HistoryEntry.directedSummaries changes).map (·.sighting) = (firsts changes).map sighting := by
  rw [HistoryEntry.directedSummaries, List.map_map]
  rfl

/-- The confirmed entries of a direction, as they are listed. -/
def confirmedIn (source : Source) (key : AddressKey) (ascending : Bool) (direction : Direction) :
    List HistoryEntry :=
  inDirection direction
    ((HistoryEntry.directedSummaries (source.indexChanges key ascending)).map source.timed)

/-- The pending entries of a direction, as they are listed. -/
def pendingIn (source : Source) (key : AddressKey) (ascending : Bool) (direction : Direction) :
    List HistoryEntry :=
  inDirection direction ((oriented ascending
    (HistoryEntry.directedSummaries ((source.sortedDeltas key).map .ofPending))).map source.timed)

theorem listedHistory_eq (ascending : Bool) (direction : Direction) :
    source.listedHistory key ascending direction =
      let confirmed := source.confirmedIn key ascending direction
      let pending := source.pendingIn key ascending direction
      if ascending then confirmed ++ pending else pending ++ confirmed := by
  cases ascending <;>
    simp [listedHistory, untimed, confirmedIn, pendingIn, inDirection_append, oriented]

/-- A pending entry that is listed is one of the pending changes. -/
theorem pending_of_mem_pendingIn {ascending : Bool} {direction : Direction} {entry : HistoryEntry}
    (member : entry ∈ source.pendingIn key ascending direction) :
    entry.height = mempoolHeight ∧
      ∀ delta ∈ source.ledger.indexDeltas key, delta.txid ≠ entry.txid := by
  obtain ⟨own, listed, rfl⟩ := List.mem_map.mp ((inDirection_sublist direction _).subset member)
  have pending := pending_of_mem_directedSummaries (mem_oriented.mp listed)
  exact pending

theorem inWrittenOrder (source : Source) (key : AddressKey) (ascending : Bool)
    (direction : Direction) :
    source.InWrittenOrder key ascending direction (source.confirmedIn key ascending direction)
      (source.pendingIn key ascending direction) where
  met := by
    rw [← map_sighting_directedSummaries, confirmedIn, inDirection_map_timed, List.map_map]
    exact (inDirection_sublist direction _).map _
  all := by
    rintro rfl
    rw [← map_sighting_directedSummaries, confirmedIn, inDirection_map_timed, List.map_map]
    rfl
  waiting _ member := (pending_of_mem_pendingIn member).1
  unconfirmed _ member := (pending_of_mem_pendingIn member).2

/-- **Where the changes rise in height, so do the confirmed entries.** -/
theorem InWrittenOrder.pairwise_height {ascending : Bool} {direction : Direction}
    {confirmed pending : List HistoryEntry}
    (inOrder : source.InWrittenOrder key ascending direction confirmed pending)
    (rising : ((source.ledger.indexDeltas key).map (·.height)).Pairwise (· ≤ ·)) :
    (oriented ascending (confirmed.map (·.height))).Pairwise (· ≤ ·) := by
  have heights : (confirmed.map (·.height)).Sublist
      (oriented ascending ((source.ledger.indexDeltas key).map (·.height))) := by
    have met := inOrder.met.map Prod.snd
    rw [List.map_map, List.map_map] at met
    have changes := (unseen_sublist [] (source.indexChanges key ascending)).map (·.height)
    rw [oriented_map]
    rw [indexChanges, List.map_map] at changes
    exact met.trans changes
  exact rising.sublist (sublist_oriented_iff.mp heights)

/-- **The history follows the order in which the changes of a key are written down**, in either
order and direction and on pages of any size: it rises in height where they do. -/
theorem listTransactions_inWrittenOrder {network : Network} {snapshot : LedgerSnapshot}
    (loaded : Ledger.ofSnapshot network snapshot = .ok source.ledger) {address : String}
    (resolved : source.network.resolve address = .ok key) (ascending : Bool)
    (direction : Direction) :
    source.ledger.indexDeltas key = snapshot.deltasOf network key ∧
    ∃ confirmed pending,
      source.Shows address key ascending direction
        (if ascending then confirmed ++ pending else pending ++ confirmed) ∧
      source.InWrittenOrder key ascending direction confirmed pending ∧
      (((snapshot.deltasOf network key).map (·.height)).Pairwise (· ≤ ·) →
        (oriented ascending (confirmed.map (·.height))).Pairwise (· ≤ ·)) := by
  have written := (Ledger.represents_of_ofSnapshot loaded key).deltas
  have inOrder := source.inWrittenOrder key ascending direction
  refine ⟨written, _, _, ?_, inOrder, fun rising => inOrder.pairwise_height (written ▸ rising)⟩
  rw [← listedHistory_eq]
  exact shows_listedHistory resolved ascending direction

end Source

/-! ## Two entries of one address -/

section Two

variable (first second : IndexDelta)

/-- A snapshot with two entries of one address and a change in each of them. -/
def LedgerSnapshot.ofTwo : LedgerSnapshot where
  tipHeight := 1000
  blocks := [.ofOutputs [], { Block.ofOutputs [] with height := 20 }]
  addresses := [⟨AddressKey.onesAddress, [first], [], []⟩,
    ⟨AddressKey.onesAddress, [second], [], []⟩]

/-- A source that reads the ledger of such a snapshot. -/
def Source.ofTwo : Source where
  ledger := {
    tipHeight := 1000
    blocks := [.ofOutputs [], { Block.ofOutputs [] with height := 20 }]
    addresses := [(.ones, { deltas := [first, second] })] }
  clock := .frozen

theorem Ledger.ofSnapshot_ofTwo :
    ofSnapshot {} (.ofTwo first second) = .ok (Source.ofTwo first second).ledger := by
  have entries := resolveEach_map AddressEntry.address
    (fun delta => ⟨AddressKey.onesAddress, [delta], [], []⟩)
    (fun _ => Network.resolve_onesAddress) [first, second]
  have quiet : resolveEach {} PendingEntry.address [] = .ok [] := rfl
  have loaded : ofSnapshot {} (.ofTwo first second) = .ok _ := ofSnapshot_eq_ok entries quiet
  rw [loaded]
  simp [Source.ofTwo, gather, List.eraseDups_cons, LedgerSnapshot.ofTwo]

end Two

namespace Source

/-- A change in an earlier block. -/
def older : IndexDelta := ⟨.filled 1, 10, false, 500⟩

/-- A change in a later block. -/
def newer : IndexDelta := ⟨.filled 2, 20, false, 700⟩

/-- The older change is written down first, and shown first. -/
theorem listTransactions_inWrittenOrder_ofTwo :
    ∃ confirmed pending,
      (Source.ofTwo older newer).Shows AddressKey.onesAddress .ones true .any
        (confirmed ++ pending) ∧
      (confirmed.map (·.height)).Pairwise (· ≤ ·) := by
  obtain ⟨written, confirmed, pending, shows, _, rises⟩ :=
    listTransactions_inWrittenOrder (Ledger.ofSnapshot_ofTwo older newer)
      Network.resolve_onesAddress true .any
  refine ⟨confirmed, pending, shows, rises ?_⟩
  rw [← written]
  decide +kernel

/-- The changes in their entries, the newer one first. -/
def newerFirst : Source := .ofTwo newer older

/-- The entries of these changes, in the order in which they are written down. -/
def newerFirstEntries : List HistoryEntry :=
  [⟨.filled 2, 20, 700, .received, none⟩, ⟨.filled 1, 10, 500, .received, none⟩]

/-- **A newer change that is written down in front of an older one is listed in front of it.**  The
changes of the loaded key do not rise in height, and neither do the entries of either order, which
are all confirmed and fit on one page. -/
theorem newer_listed_first :
    Ledger.ofSnapshot {} (.ofTwo newer older) = .ok newerFirst.ledger ∧
    ¬ ((newerFirst.ledger.indexDeltas .ones).map (·.height)).Pairwise (· ≤ ·) ∧
    ∀ ascending, ∃ page, newerFirst.AllPages AddressKey.onesAddress { ascending } [page] ∧
      (∀ entry ∈ page.entries, isConfirmedHeight entry.height = true) ∧
      ¬ (oriented ascending (page.entries.map (·.height))).Pairwise (· ≤ ·) := by
  refine ⟨Ledger.ofSnapshot_ofTwo newer older, by decide +kernel, fun ascending => ?_⟩
  have history : newerFirst.history .ones ascending .any =
      .ok (oriented ascending newerFirstEntries) := by
    cases ascending <;> exact Answer.eq_ok_of_toOption (by decide +kernel)
  have readable : ∀ entry ∈ newerFirstEntries,
      (newerFirst.ledger.readBlock entry.height).toOption.isSome = true := by
    decide +kernel
  have confirmed : ∀ ascending, ∀ entry ∈ (newerFirst.shownPage
      (oriented ascending newerFirstEntries) { ascending }).entries,
        isConfirmedHeight entry.height = true := by
    decide +kernel
  have falls : ∀ ascending, ¬ (oriented ascending ((newerFirst.shownPage
      (oriented ascending newerFirstEntries) { ascending }).entries.map
        (·.height))).Pairwise (· ≤ ·) := by
    decide +kernel
  have shown : newerFirst.AllPages AddressKey.onesAddress { ascending }
      [newerFirst.shownPage (oriented ascending newerFirstEntries) { ascending }] := by
    refine allPages_singleton Network.resolve_onesAddress history (show 1 ≤ 10 by decide)
      (show 10 ≤ maxHistoryPageSize by decide) (fun entry member _ => ?_) rfl ?_
    · obtain ⟨block, found⟩ :=
        Option.isSome_iff_exists.mp (readable entry (mem_oriented.mp member))
      exact ⟨block, Answer.eq_ok_of_toOption found⟩
    · cases ascending <;> decide
  exact ⟨_, shown, confirmed ascending, falls ascending⟩

end Source

end CoinLedger
