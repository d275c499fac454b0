import CoinLedger.Proofs.BlockCache
import CoinLedger.Proofs.Ledger.Indexes
import CoinLedger.Proofs.Listing.UnspentPages

/-!
# Block reads of a page

A listing of unspent outputs reads the block of every output through a cache of its own, and the
session counts the reads that reach the ledger.  The reads of one output after the other are those
of a row of heights (`Session.Reads.append`), in the order in which a page shows them
(`markUnspent_reads`).  The index is sorted by height, so in either order equal heights stand side
by side (`adjacent_unspentWindow`), and a page reads each block from the ledger once
(`listUnspent_blockReads`), whatever the cache has room for.
-/

set_option autoImplicit false

namespace CoinLedger

/-! ## Counted reads -/

/-- From one session to another a query read the blocks of some heights, one after the other through
its cache, and counted those that reached the ledger. -/
structure Session.Reads (source : Source) (before : Session) (heights : List Int32)
    (after : Session) : Prop where
  cache : after.cache = BlockCache.readAll source.ledger.readBlock heights before.cache
  counted : after.blockReads + before.cache.sourceReads =
    before.blockReads + after.cache.sourceReads

theorem Session.Reads.append {source : Source} {before middle after : Session}
    {first second : List Int32} (reads : before.Reads source first middle)
    (later : middle.Reads source second after) :
    before.Reads source (first ++ second) after where
  cache := by rw [later.cache, reads.cache, BlockCache.readAll_append]
  counted := by
    have one := reads.counted
    have other := later.counted
    omega

namespace Source

variable {source : Source} {key : AddressKey}

theorem reads_afterCachedRead (height : Int32) (session : Session) :
    session.Reads source [height]
      (afterCachedRead session (session.cache.read source.ledger.readBlock height).2) where
  cache := rfl
  counted := by
    have grows : session.cache.sourceReads ≤
        (session.cache.read source.ledger.readBlock height).2.sourceReads :=
      BlockCache.sourceReads_le_read height session.cache
    simp only [afterCachedRead]
    omega

/-- Looking at an output reads no block. -/
theorem reads_isLockedNow (output : Option TxOutput) (session : Session) :
    session.Reads source [] ((source.isLockedNow output).run session).2 := by
  cases output with
  | none => exact ⟨rfl, rfl⟩
  | some output =>
      unfold isLockedNow askReferenceTime
      cases source.ledger.medianTimePast <;> exact ⟨rfl, rfl⟩

/-- A lock is decided with one read. -/
theorem checkTimeLockCached_reads {height : Int32} {txid : Txid} {session after : Session}
    {locked : Bool}
    (decided : (source.checkTimeLockCached height txid key).runIn session = (.ok locked, after)) :
    session.Reads source [height] after := by
  obtain ⟨block, middle, read, decided⟩ := Query.runIn_bind_eq_ok.mp decided
  obtain ⟨output, _, decided⟩ := Query.runIn_ofAnswer_bind_eq_ok decided
  have left : afterCachedRead session (session.cache.read source.ledger.readBlock height).2 =
      middle := congrArg Prod.snd read
  have last : ((source.isLockedNow output).run middle).2 = after := congrArg Prod.snd decided
  have reads : session.Reads source [height] middle := left ▸ reads_afterCachedRead height session
  exact last ▸ reads.append (reads_isLockedNow output middle)

/-- **Outputs are marked with one read each**, in their order. -/
theorem markUnspent_reads {outputs : List UnspentOutput} {session after : Session}
    {entries : List UnspentEntry}
    (marked : (source.markUnspent key outputs).runIn session = (.ok entries, after)) :
    session.Reads source (outputs.map (·.height)) after := by
  induction outputs generalizing session entries with
  | nil =>
      cases marked
      exact ⟨rfl, rfl⟩
  | cons output rest ih =>
      obtain ⟨locked, middle, decided, marked⟩ := Query.runIn_bind_eq_ok.mp marked
      obtain ⟨others, last, later, done⟩ := Query.runIn_bind_eq_ok.mp marked
      obtain ⟨_, rfl⟩ := Query.runIn_ofAnswer_eq_ok done
      exact (checkTimeLockCached_reads decided).append (ih later)

/-! ## The window of a page -/

theorem upToCursor_sublist (cursor : Option OutPoint) (outputs : List UnspentOutput) :
    (Ledger.upToCursor cursor outputs).Sublist outputs := by
  cases cursor with
  | none => exact List.Sublist.refl outputs
  | some last =>
      rw [Ledger.upToCursor]
      split
      · exact List.take_sublist _ outputs
      · exact List.Sublist.refl outputs

/-- A page shows outputs of the index in the order asked for. -/
theorem unspentWindow_sublist (source : Source) (key : AddressKey) (window : Window)
    (ascending : Bool) :
    (source.unspentWindow key window ascending).Sublist
      (oriented ascending (source.ledger.unspent key)) := by
  cases ascending with
  | true => exact (List.take_sublist _ _).trans (List.drop_sublist _ _)
  | false =>
      have back := (upToCursor_sublist (source.ledger.newestUnspent key)
        (source.ledger.unspent key)).reverse
      exact (List.take_sublist _ _).trans ((List.drop_sublist _ _).trans back)

/-- A page with room for all outputs shows them. -/
theorem unspentWindow_of_le {pageSize : Nat} (room : source.ledger.unspentCount key ≤ pageSize) :
    source.unspentWindow key (pageWindow (source.ledger.unspentCount key) 1 pageSize) true =
      source.ledger.unspent key := by
  refine (select_pageWindow (source.ledger.unspent key) 1 pageSize).trans ?_
  rw [Nat.sub_self, Nat.zero_mul, List.drop_zero]
  exact List.take_of_length_le room

section Loaded

variable {network : Network} {snapshot : LedgerSnapshot}
  (loaded : Ledger.ofSnapshot network snapshot = .ok source.ledger)

include loaded

/-- The index of unspent outputs does not fall in height. -/
theorem pairwise_height_unspent (key : AddressKey) :
    ((source.ledger.unspent key).map (·.height)).Pairwise (· ≤ ·) := by
  rw [List.pairwise_map]
  refine (Ledger.indexOf_unspent loaded key).ordered.imp fun inOrder => ?_
  rcases inOrder with below | ⟨same, _⟩
  · exact Int32.le_of_lt below
  · exact Int32.le_of_eq same

/-- **In either order, the outputs of one height stand side by side on a page.** -/
theorem adjacent_unspentWindow (key : AddressKey) (window : Window) (ascending : Bool) :
    Adjacent ((source.unspentWindow key window ascending).map (·.height)) := by
  have ordered := pairwise_height_unspent loaded key
  have shown := (source.unspentWindow_sublist key window ascending).map (·.height)
  rw [← oriented_map] at shown
  cases ascending with
  | true => exact adjacent_of_pairwise Int32.le_antisymm (ordered.sublist shown)
  | false =>
      exact adjacent_of_pairwise (fun after before => Int32.le_antisymm before after)
        ((List.pairwise_reverse.mpr ordered).sublist shown)

end Loaded

section Listed

variable {before after : Session} {output : UnspentOutput} {entry : UnspentEntry}

theorem ListedBetween.height_eq (listed : source.ListedBetween before after key output entry) :
    entry.height = output.height := by
  obtain ⟨_, _, _, listed⟩ := listed
  exact congrArg UnspentOutput.height listed.output_eq

/-- The block of an output that is listed was found. -/
theorem ListedBetween.finds (listed : source.ListedBetween before after key output entry) :
    BlockCache.finds source.ledger.readBlock output.height = true := by
  obtain ⟨_, _, _, locked, decided, _⟩ := listed
  obtain ⟨found, looked, _⟩ := Answer.map_eq_ok.mp decided
  obtain ⟨block, read, _⟩ := Answer.bind_eq_ok.mp looked
  exact BlockCache.finds_of_eq_ok read

end Listed

/-! ## Pages -/

/-- A page whose outputs can be marked is answered. -/
theorem unspentPage_of_marked {address : String} {query : UnspentQuery} {reads : Nat}
    (resolved : source.network.resolve address = .ok key) (least : 1 ≤ query.pageSize)
    (most : query.pageSize ≤ maxUnspentPageSize) (nonempty : source.ledger.unspentCount key ≠ 0)
    (first : 1 ≤ query.page)
    (last : query.page ≤ pageCount (source.ledger.unspentCount key) query.pageSize)
    {entries : List UnspentEntry}
    (marked : source.markAnswer key (source.windowLooks key query reads) = .ok entries) :
    ∃ page, source.unspentPage address query reads = .ok page ∧ page.entries = entries := by
  rw [unspentPage, checkPageSize_eq_ok least most, resolved]
  dsimp only [Except.bind, bind]
  rw [if_neg nonempty, checkPageNumber_eq_ok first last, marked]
  exact ⟨_, rfl, rfl⟩

/-- A page that is answered reads the blocks of its outputs in their order, beginning with an empty
cache. -/
theorem listUnspent_reads {address : String} {query : UnspentQuery} {session after : Session}
    {page : UnspentPage}
    (answered : (source.listUnspent address query).runIn session = (.ok page, after)) :
    ∃ key window, List.Forall₂ (source.ListedBetween session after key)
        (source.unspentWindow key window query.ascending) page.entries ∧
      ({ session with cache := .ofCapacity unspentCacheSize } : Session).Reads source
        ((source.unspentWindow key window query.ascending).map (·.height)) after := by
  obtain ⟨key, resolved, marked⟩ := marked_of_listUnspent answered
  obtain ⟨_, same, listed⟩ := listedBetween_of_listUnspent answered
  cases resolved.symm.trans same
  exact ⟨key, _, listed, markUnspent_reads marked⟩

/-- **A page of unspent outputs reads each block once.**  The blocks that are read from the ledger
are as many as the distinct heights on the page, also when they are more than the cache keeps. -/
theorem listUnspent_blockReads {network : Network} {snapshot : LedgerSnapshot}
    (loaded : Ledger.ofSnapshot network snapshot = .ok source.ledger) {address : String}
    {query : UnspentQuery} {session after : Session} {page : UnspentPage}
    (answered : (source.listUnspent address query).runIn session = (.ok page, after)) :
    after.blockReads =
      session.blockReads + (page.entries.map (·.height)).eraseDups.length := by
  obtain ⟨key, window, listed, reads⟩ := listUnspent_reads answered
  have adjacent := adjacent_unspentWindow loaded key window query.ascending
  rw [map_eq_of_forall₂ (fun _ _ lists => lists.height_eq.symm) listed] at reads adjacent
  have found : ∀ height ∈ page.entries.map (·.height),
      BlockCache.finds source.ledger.readBlock height = true := by
    rw [List.forall_mem_map]
    intro entry shown
    obtain ⟨output, _, lists⟩ := exists_related_of_mem listed shown
    exact lists.height_eq ▸ lists.finds
  have counted := reads.counted
  rw [reads.cache, BlockCache.sourceReads_of_adjacent adjacent found] at counted
  exact counted

/-- A block of a height, whose transaction pays nothing. -/
def rung (height : Nat) : Block :=
  { Block.ofOutputs [] with height := Int32.ofNat height }

/-- An output that is written down for each of three hundred heights, the highest one first. -/
def ladder : LedgerSnapshot where
  tipHeight := 1000
  blocks := (List.range 300).map rung
  addresses := [⟨AddressKey.onesAddress, [],
    (List.range 300).reverse.map fun height => ⟨default, 0, 5, Int32.ofNat height⟩, []⟩]

theorem unspentOf_ladder :
    ladder.unspentOf {} .ones =
      (List.range 300).reverse.map fun height => ⟨default, 0, 5, Int32.ofNat height⟩ := by
  have known : Network.keyOf? {} AddressKey.onesAddress = some .ones :=
    Network.keyOf?_eq_some Network.resolve_onesAddress
  simp [LedgerSnapshot.unspentOf, LedgerSnapshot.entriesOf, ladder, known]

theorem nodup_heights_ladder : ((ladder.unspentOf {} .ones).map (·.height)).Nodup := by
  rw [unspentOf_ladder, List.map_map]
  refine List.Nodup.map_on (fun left first right second same => ?_)
    (List.nodup_reverse.mpr List.nodup_range)
  have small : ∀ height ∈ (List.range 300).reverse, height < 2 ^ 31 := by
    intro height member
    have below := List.mem_range.mp (List.mem_reverse.mp member)
    omega
  have numbers := congrArg Int32.toInt same
  rw [Function.comp_apply, Function.comp_apply, Int32.toInt_ofNat_of_lt (small left first),
    Int32.toInt_ofNat_of_lt (small right second)] at numbers
  exact Int.ofNat_inj.mp numbers

/-- The lock of every output of the ladder can be looked up. -/
theorem answered_ladder (blocks : source.ledger.blocks = ladder.blocks) {output : UnspentOutput}
    (written : output ∈ ladder.unspentOf {} .ones) : source.Answered .ones output := by
  rw [unspentOf_ladder] at written
  obtain ⟨height, listed, rfl⟩ := List.mem_map.mp written
  have reads := source.ledger.readsLast_readBlock (Int32.ofNat height)
  rw [blocks] at reads
  generalize answered : source.ledger.readBlock (Int32.ofNat height) = answer at reads
  cases reads with
  | found before after split =>
      have member : _ ∈ ladder.blocks := split ▸ List.mem_append_right before List.mem_cons_self
      obtain ⟨number, _, rfl⟩ := List.mem_map.mp member
      refine ⟨none, ?_⟩
      rw [lockOutput, answered]
      rfl
  | missing absent =>
      exact absurd rfl (absent _ (List.mem_map_of_mem (List.mem_reverse.mp listed)))

/-- The page of the whole ladder, oldest first. -/
theorem unspentPage_ladder (source : Source)
    (loaded : Ledger.ofSnapshot {} ladder = .ok source.ledger)
    (resolved : source.network.resolve AddressKey.onesAddress = .ok .ones) :
    ∃ page, source.unspentPage AddressKey.onesAddress { pageSize := 1000, ascending := true } 0 =
        .ok page ∧
      (page.entries.map (·.height)).eraseDups.length = 300 := by
  have written := (Ledger.indexOf_unspent loaded .ones).permuted
  have count : source.ledger.unspentCount .ones = 300 := by
    rw [Ledger.unspentCount, written.length_eq, unspentOf_ladder, List.length_map,
      List.length_reverse, List.length_range]
  have answered : ∀ output ∈ source.ledger.unspent .ones, source.Answered .ones output :=
    fun output member =>
      answered_ladder (Ledger.blocks_pending_ofSnapshot loaded).1 (written.mem_iff.mp member)
  have window : source.unspentWindow .ones (pageWindow (source.ledger.unspentCount .ones) 1 1000)
      true = source.ledger.unspent .ones :=
    unspentWindow_of_le (count ▸ by decide)
  have lookups : ∀ look ∈ source.windowLooks .ones { pageSize := 1000, ascending := true } 0,
      source.Answered .ones look.1 :=
    fun look member => answered _ (window ▸ mem_of_mem_withReads member)
  obtain ⟨entries, marked⟩ := markAnswer_of_answered lookups
  obtain ⟨page, shown, rfl⟩ :=
    unspentPage_of_marked resolved (by decide) (by decide) (count ▸ by decide) (Nat.le_refl 1)
      (count ▸ by decide) marked
  have heights : page.entries.map (·.height) = (source.ledger.unspent .ones).map (·.height) := by
    have outputs : (source.windowLooks .ones { pageSize := 1000, ascending := true } 0).map (·.1) =
        source.ledger.unspent .ones := (map_fst_withReads _ _ _).trans window
    rw [← outputs, List.map_map]
    exact (map_eq_of_forall₂ (fun _ _ lists => (congrArg UnspentOutput.height lists.output_eq).symm)
      (listed_of_markAnswer marked)).symm
  have distinct : ((source.ledger.unspent .ones).map (·.height)).Nodup :=
    (written.map _).nodup_iff.mpr nodup_heights_ladder
  refine ⟨page, shown, ?_⟩
  rw [heights, (eraseDups_perm_of_nodup distinct).length_eq, List.length_map]
  exact count

/-- The blocks of three hundred outputs are read once each. -/
theorem listUnspent_blockReads_ladder :
    ∃ (source : Source) (page : UnspentPage) (after : Session),
      Ledger.ofSnapshot {} ladder = .ok source.ledger ∧
      (source.listUnspent AddressKey.onesAddress { pageSize := 1000, ascending := true }).runIn {} =
        (.ok page, after) ∧
      unspentCacheSize < after.blockReads ∧ after.blockReads = 300 := by
  have loaded : Ledger.ofSnapshot {} ladder = .ok _ :=
    Ledger.ofSnapshot_eq_ok (Ledger.resolveEach_singleton _ rfl) rfl
  generalize Ledger.mk _ _ _ _ _ _ _ = ledger at loaded
  obtain ⟨page, shown, distinct⟩ :=
    unspentPage_ladder { ledger, clock := .frozen } loaded Network.resolve_onesAddress
  rw [← listUnspent_runIn _ _ {}] at shown
  generalize answered : Query.runIn _ _ = outcome at shown
  obtain ⟨_, after⟩ := outcome
  cases shown
  have reads := listUnspent_blockReads loaded answered
  rw [distinct] at reads
  exact ⟨_, page, after, loaded, answered, by rw [reads]; decide, reads⟩

end Source

end CoinLedger
