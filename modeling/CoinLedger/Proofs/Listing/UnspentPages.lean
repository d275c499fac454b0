import CoinLedger.Proofs.BlockLedger
import CoinLedger.Proofs.Listing.Paged
import CoinLedger.Proofs.Listing.Unspent
import CoinLedger.Proofs.Loading

/-!
# Pages of unspent outputs

A listing from the newest output on walks back from a cursor, the newest unspent output of the key.
When no two unspent outputs of the key are the same output, the cursor stands at the end of the
index (`upToCursor_newest`), so a page shows the outputs of its window in either order
(`unspentWindow_eq`).  When their locks can be looked up as well, the pages together show the whole
index, each output once and marked with what the mempool and its lock say when it is looked at
(`exists_paged_listUnspent`, `listUnspent_pages`).
-/

set_option autoImplicit false

namespace CoinLedger

namespace Ledger

/-- The newest one of distinct outputs is the last one, so all of them stand up to it. -/
theorem upToCursor_newest {outputs : List UnspentOutput}
    (distinct : (outputs.map (·.outpoint)).Nodup) :
    upToCursor (outputs.getLast?.map (·.outpoint)) outputs = outputs := by
  cases newest : outputs.getLast? with
  | none => rfl
  | some last =>
      obtain ⟨front, rfl⟩ := List.getLast?_eq_some_iff.mp newest
      have alone : ∀ output ∈ front, output.outpoint ≠ last.outpoint := by
        intro output member same
        rw [List.map_append, List.nodup_append] at distinct
        exact distinct.2.2 _ (List.mem_map_of_mem member) _ (by simp) same
      have absent : front.findIdx? (·.outpoint = last.outpoint) = none := by
        simpa [List.findIdx?_eq_none_iff] using alone
      have position : (front ++ [last]).findIdx? (·.outpoint = last.outpoint) =
          some front.length := by
        simp [List.findIdx?_append, absent]
      have all : (front ++ [last]).take (front.length + 1) = front ++ [last] :=
        List.take_of_length_le (by simp)
      simp [upToCursor, position, all]

end Ledger

/-- What a page of unspent outputs tells. -/
def UnspentPage.face (page : UnspentPage) : PageFace UnspentEntry where
  count := page.count
  pages := page.pages
  page := page.page
  items := page.entries

namespace Source

variable {source : Source} {key : AddressKey}

/-- An unspent output as it is listed at a time: spendable when its lock was found and has expired.
-/
def listedEntry (source : Source) (time : Int64) (key : AddressKey) (output : UnspentOutput) :
    UnspentEntry :=
  source.unspentEntry output !source.foundUnlocked time key output

theorem Listed.eq_listedEntry {time : Int64} {output : UnspentOutput} {entry : UnspentEntry}
    (listed : source.Listed time key output entry) :
    source.listedEntry time key output = entry := by
  obtain ⟨locked, found, rfl⟩ := listed
  rw [listedEntry, foundUnlocked, found]
  simp

theorem listed_listedEntry {time : Int64} {output : UnspentOutput}
    (answered : source.Answered key output) :
    source.Listed time key output (source.listedEntry time key output) := by
  obtain ⟨locked, found⟩ := answered.isTimeLocked time
  have listed : source.Listed time key output (source.unspentEntry output locked) :=
    ⟨locked, found, rfl⟩
  exact listed.eq_listedEntry ▸ listed

/-- Outputs whose locks can be looked up are all listed. -/
theorem markAnswer_of_answered {looks : List (UnspentOutput × Nat)}
    (answered : ∀ look ∈ looks, source.Answered key look.1) :
    ∃ entries, source.markAnswer key looks = .ok entries := by
  induction looks with
  | nil => exact ⟨[], rfl⟩
  | cons look rest ih =>
      obtain ⟨locked, found⟩ :=
        (answered look List.mem_cons_self).isTimeLocked (source.referenceTime look.2)
      obtain ⟨entries, later⟩ :=
        ih fun other member => answered other (List.mem_cons_of_mem _ member)
      rw [markAnswer, found, later]
      exact ⟨_, rfl⟩

section Distinct

variable (distinct : ((source.ledger.unspent key).map (·.outpoint)).Nodup)

include distinct

/-- The window of a page selects from the whole index, in either order. -/
theorem unspentWindow_eq (window : Window) (ascending : Bool) :
    source.unspentWindow key window ascending =
      window.select (oriented ascending (source.ledger.unspent key)) := by
  cases ascending with
  | true => rfl
  | false =>
      rw [unspentWindow, if_neg Bool.false_ne_true, Ledger.unspentSliceBack, Ledger.newestUnspent,
        Ledger.upToCursor_newest distinct]
      rfl

section Answered

variable (answered : ∀ output ∈ source.ledger.unspent key, source.Answered key output)

include answered

/-- A page of unspent outputs is the page of the index, with an entry in place of each output. -/
theorem sameFace_listUnspent {address : String}
    (resolved : source.network.resolve address = .ok key) (query : UnspentQuery)
    (least : 1 ≤ query.pageSize) (most : query.pageSize ≤ maxUnspentPageSize) (session : Session) :
    SameFace
      (source.ListedBetween session ((source.listUnspent address query).runIn session).2 key)
      (pageAnswer .noUnspentOutputs query.pageSize
        (oriented query.ascending (source.ledger.unspent key)) query.page)
      (((source.listUnspent address query).runIn session).1.map UnspentPage.face) := by
  have value : ((source.listUnspent address query).runIn session).1 =
      source.unspentPage address query session.timeReads :=
    listUnspent_runIn address query session
  have count : (source.ledger.unspent key).length = source.ledger.unspentCount key := rfl
  rw [unspentPage, checkPageSize_eq_ok least most, resolved] at value
  dsimp only [Except.bind, bind] at value
  rw [pageAnswer, length_oriented, count]
  generalize run : (source.listUnspent address query).runIn session = outcome at value
  obtain ⟨answer, after⟩ := outcome
  by_cases none : source.ledger.unspentCount key = 0
  · rw [if_pos none] at value
    rw [if_pos none, value]
    exact .error _
  · rw [if_neg none] at value
    rw [if_neg none]
    cases checked : checkPageNumber query.page
      (pageCount (source.ledger.unspentCount key) query.pageSize) with
    | error error =>
        rw [checked] at value
        rw [value]
        exact .error error
    | ok _ =>
        have lookups : ∀ look ∈ source.windowLooks key query session.timeReads,
            source.Answered key look.1 := by
          intro look member
          have selected := mem_of_mem_withReads member
          rw [unspentWindow_eq distinct] at selected
          exact answered _ (mem_oriented.mp (mem_of_mem_select selected))
        obtain ⟨entries, marked⟩ := markAnswer_of_answered lookups
        rw [checked, marked] at value
        simp only [pure, Except.pure] at value
        cases value
        obtain ⟨_, same, shows⟩ := listedBetween_of_listUnspent run
        cases resolved.symm.trans same
        rw [unspentWindow_eq distinct] at shows
        simp only [Except.map, UnspentPage.face, pageFace, length_oriented, count]
        exact .ok _ _ _ shows

/-- **The pages of the unspent outputs of a key show its index**, whatever the sessions in which
they are asked for; each output is marked as it is when it is looked at. -/
theorem exists_paged_listUnspent {address : String}
    (resolved : source.network.resolve address = .ok key) {query : UnspentQuery}
    (least : 1 ≤ query.pageSize) (most : query.pageSize ≤ maxUnspentPageSize)
    (sessions : Nat → Session) :
    ∃ entries,
      List.Forall₂
        (fun output entry => ∃ page, source.ListedBetween (sessions page)
          ((source.listUnspent address { query with page }).runIn (sessions page)).2 key output
          entry)
        (oriented query.ascending (source.ledger.unspent key)) entries ∧
      Paged
        (fun page =>
          (((source.listUnspent address { query with page }).runIn (sessions page)).1).map
          UnspentPage.face)
        .noUnspentOutputs query.pageSize entries := by
  have paged : Paged
      (pageAnswer .noUnspentOutputs query.pageSize
        (oriented query.ascending (source.ledger.unspent key)))
      .noUnspentOutputs query.pageSize (oriented query.ascending (source.ledger.unspent key)) :=
    paged_of_pageAnswer least nofun nofun fun _ => rfl
  refine paged.exists_related fun page => ?_
  have same := sameFace_listUnspent distinct answered resolved { query with page } least most
    (sessions page)
  exact same.imp fun _ _ listed => ⟨page, listed⟩

/-- Where the reference time stands still, the pages show the outputs as they are listed at it. -/
theorem paged_listUnspent {time : Int64} (stands : source.StandsAt time) {address : String}
    (resolved : source.network.resolve address = .ok key) {query : UnspentQuery}
    (least : 1 ≤ query.pageSize) (most : query.pageSize ≤ maxUnspentPageSize)
    (sessions : Nat → Session) :
    Paged
      (fun page => (((source.listUnspent address { query with page }).runIn (sessions page)).1).map
        UnspentPage.face)
      .noUnspentOutputs query.pageSize
      (oriented query.ascending
        ((source.ledger.unspent key).map (source.listedEntry time key))) := by
  obtain ⟨entries, listed, paged⟩ :=
    exists_paged_listUnspent distinct answered resolved least most sessions
  have agree : ∀ output entry,
      (∃ page, source.ListedBetween (sessions page)
        ((source.listUnspent address { query with page }).runIn (sessions page)).2 key output
          entry) →
      source.listedEntry time key output = id entry := by
    rintro output entry ⟨_, reads, _, _, listed⟩
    rw [stands reads] at listed
    exact listed.eq_listedEntry
  have same := map_eq_of_forall₂ agree listed
  rw [List.map_id] at same
  rw [oriented_map, same]
  exact paged

end Answered

end Distinct

/-- **The pages of the unspent outputs of a key show them by height, transaction and position**,
each once and oldest or newest first, marked with whether the mempool spends them and whether their
lock has expired when they are looked at.  Where the reference time stands still, all pages mark an
output in the same way. -/
theorem listUnspent_pages {network : Network} {snapshot : LedgerSnapshot}
    (loaded : Ledger.ofSnapshot network snapshot = .ok source.ledger) {address : String}
    (resolved : source.network.resolve address = .ok key)
    (distinct : ((snapshot.unspentOf network key).map (·.outpoint)).Nodup)
    (answered : ∀ output ∈ snapshot.unspentOf network key, source.Answered key output) :
    ∃ sorted,
      IndexOf UnspentOutput.UpTo UnspentOutput.place (snapshot.unspentOf network key) sorted ∧
      (∀ query : UnspentQuery, 1 ≤ query.pageSize → query.pageSize ≤ maxUnspentPageSize →
        ∀ sessions : Nat → Session, ∃ entries,
          List.Forall₂
            (fun output entry => ∃ page, source.ListedBetween (sessions page)
              ((source.listUnspent address { query with page }).runIn (sessions page)).2 key output
                entry)
            (oriented query.ascending sorted) entries ∧
          Paged
            (fun page =>
              (((source.listUnspent address { query with page }).runIn (sessions page)).1).map
                UnspentPage.face)
            .noUnspentOutputs query.pageSize entries) ∧
      ∀ time, source.StandsAt time →
        ∃ entries, List.Forall₂ (source.Listed time key) sorted entries ∧
          ∀ query : UnspentQuery, 1 ≤ query.pageSize → query.pageSize ≤ maxUnspentPageSize →
            ∀ sessions : Nat → Session,
              Paged
                (fun page =>
                  (((source.listUnspent address { query with page }).runIn (sessions page)).1).map
                    UnspentPage.face)
                .noUnspentOutputs query.pageSize (oriented query.ascending entries) := by
  have indexes := Ledger.indexOf_unspent loaded key
  have listable : ∀ output ∈ source.ledger.unspent key, source.Answered key output :=
    fun output member => answered output (indexes.permuted.mem_iff.mp member)
  have apart : ((source.ledger.unspent key).map (·.outpoint)).Nodup :=
    (indexes.permuted.map _).nodup_iff.mpr distinct
  refine ⟨source.ledger.unspent key, indexes, ?_, ?_⟩
  · intro query least most sessions
    exact exists_paged_listUnspent apart listable resolved least most sessions
  · intro time stands
    refine ⟨(source.ledger.unspent key).map (source.listedEntry time key), ?_, ?_⟩
    · rw [List.forall₂_map_right_iff, List.forall₂_same]
      exact fun output member => listed_listedEntry (listable output member)
    · intro query least most sessions
      exact paged_listUnspent apart listable stands resolved least most sessions
/-- A block with a plain output and a locked one in different transactions. -/
def halfLocked : Block where
  height := 10
  hash := default
  time := 0
  transactions := [⟨.filled 1, [⟨500, Script.payTo .ones⟩]⟩,
    ⟨.filled 2, [⟨300, Script.lockScript 5000 ++ Script.payTo .ones⟩]⟩]

/-- The outputs of the block, the later one first. -/
def halfLockedEntry : AddressEntry where
  address := AddressKey.onesAddress
  deltas := []
  unspent := [⟨.filled 2, 0, 300, 10⟩, ⟨.filled 1, 0, 500, 10⟩]
  deposits := []

/-- The lock of each output is found in its own transaction; that of the later one lies ahead. -/
theorem isTimeLocked_halfLocked :
    ∀ output ∈ halfLockedEntry.unspent,
      (ofEntry halfLocked halfLockedEntry).isTimeLocked 0 output.height output.txid .ones =
        .ok (output.txid = .filled 2) := by
  intro output member
  rcases List.mem_pair.mp member with rfl | rfl
  · exact Answer.eq_ok_of_toOption (by decide +kernel)
  · exact Answer.eq_ok_of_toOption (by decide +kernel)

/-- The outputs of the block, newest first and one on a page. -/
theorem listUnspent_pages_halfLocked :
    ∃ sorted entries,
      IndexOf UnspentOutput.UpTo UnspentOutput.place halfLockedEntry.unspent sorted ∧
      List.Forall₂ ((ofEntry halfLocked halfLockedEntry).Listed Clock.defaultUnixTime .ones) sorted
        entries ∧
      Paged
        (fun page => (((listUnspent (.ofEntry halfLocked halfLockedEntry) AddressKey.onesAddress
          { page, pageSize := 1 }).runIn {}).1).map UnspentPage.face)
        .noUnspentOutputs 1 entries.reverse := by
  have own : LedgerSnapshot.unspentOf (.ofEntry halfLocked halfLockedEntry) {} .ones =
      halfLockedEntry.unspent :=
    LedgerSnapshot.unspentOf_ofEntry rfl
  have loaded := Ledger.ofSnapshot_ofEntry halfLocked halfLockedEntry rfl
  have stands : (ofEntry halfLocked halfLockedEntry).StandsAt Clock.defaultUnixTime :=
    .of_clock fun _ => rfl
  obtain ⟨sorted, indexes, _, standing⟩ :=
    listUnspent_pages loaded Network.resolve_onesAddress (by rw [own]; decide +kernel)
      fun output member =>
        answered_of_isTimeLocked (isTimeLocked_halfLocked output (own ▸ member))
  obtain ⟨entries, listed, shows⟩ := standing _ stands
  exact ⟨sorted, entries, own ▸ indexes, listed,
    shows { pageSize := 1 } (by decide) (by decide) fun _ => {}⟩

end Source

end CoinLedger
