import CoinLedger.Proofs.Balance.Spelling
import CoinLedger.Proofs.BlockLedger
import CoinLedger.Proofs.Listing.Deposits

/-!
# Indexes of loaded ledgers

Loading fails exactly when an address of the snapshot does not resolve, with the error of the first
one (`exists_error_ofSnapshot_iff`).  Otherwise the indexes of a key hold what the entries of the
key have written down, and nothing else: the unspent outputs by height, transaction and position,
the deposits by time and transaction, the changes as they are written (`represents_of_ofSnapshot`).
The block of a height is the last one (`readsLast_readBlock`).

A slice of an index is a run of its entries.  From an anchor on, or back from it, the deposits are
cut where the anchor divides them, because the index is sorted by time.
-/

set_option autoImplicit false

namespace CoinLedger

open Std

/-! ## Slices -/

/-- The run of up to `limit` items from the position `offset` on. -/
def IsRun {α : Type} (items : List α) (offset limit : Nat) (run : List α) : Prop :=
  ∀ position, run[position]? = if position < limit then items[offset + position]? else none

theorem isRun_slice {α : Type} (items : List α) (offset limit : Nat) :
    IsRun items offset limit ((items.drop offset).take limit) := by
  intro position
  rw [List.getElem?_take, List.getElem?_drop]

namespace Deposit

variable {deposits : List Deposit}

/-- The deposits behind those up to a time lie after it. -/
theorem InTime.lt_of_mem_dropWhile (inTime : InTime deposits) {time : Int64} {deposit : Deposit}
    (member : deposit ∈ deposits.dropWhile (·.timestamp ≤ time)) : time < deposit.timestamp := by
  have later : deposits.dropWhile (·.timestamp ≤ time) =
      deposits.filter fun deposit => !decide (deposit.timestamp ≤ time) := by
    refine dropWhile_eq_filter (inTime.imp fun ordered before => ?_)
    simp only [decide_eq_true_eq] at before ⊢
    exact Int64.le_trans ordered before
  rw [later] at member
  simpa [Int64.not_le] using (List.mem_filter.mp member).2

end Deposit

/-- The deposits are those before a time and those from it on, and slices from that time on are runs
of the later ones. -/
def SlicesFrom (deposits : List Deposit) (time : Int64) (slice : Nat → Nat → List Deposit) : Prop :=
  ∃ before after, deposits = before ++ after ∧
    (∀ deposit ∈ before, deposit.timestamp < time) ∧
    (∀ deposit ∈ after, time ≤ deposit.timestamp) ∧
    ∀ offset limit, IsRun after offset limit (slice offset limit)

/-- The deposits are those up to a time and those after it, and slices back from that time are runs
of the earlier ones, the last one first. -/
def SlicesBackFrom (deposits : List Deposit) (time : Int64) (slice : Nat → Nat → List Deposit) :
    Prop :=
  ∃ before after, deposits = before ++ after ∧
    (∀ deposit ∈ before, deposit.timestamp ≤ time) ∧
    (∀ deposit ∈ after, time < deposit.timestamp) ∧
    ∀ offset limit, IsRun before.reverse offset limit (slice offset limit)

namespace Ledger

open Deposit

variable {ledger : Ledger} {key : AddressKey}

theorem slicesFrom_depositSlice (inTime : InTime (ledger.deposits key)) (time : Int64) :
    SlicesFrom (ledger.deposits key) time (ledger.depositSlice key time) := by
  refine ⟨(ledger.deposits key).takeWhile (·.timestamp < time), _,
    List.takeWhile_append_dropWhile.symm, ?_, ?_, fun offset limit => ?_⟩
  · intro deposit member
    rw [inTime.takeWhile_before] at member
    exact of_decide_eq_true (List.mem_filter.mp member).2
  · intro deposit member
    rw [inTime.dropWhile_before] at member
    exact of_decide_eq_true (List.mem_filter.mp member).2
  · exact isRun_slice _ offset limit

theorem slicesBackFrom_depositSliceBack (inTime : InTime (ledger.deposits key)) (time : Int64) :
    SlicesBackFrom (ledger.deposits key) time (ledger.depositSliceBack key time) := by
  refine ⟨(ledger.deposits key).takeWhile (·.timestamp ≤ time), _,
    List.takeWhile_append_dropWhile.symm, ?_, ?_, fun offset limit => ?_⟩
  · intro deposit member
    rw [inTime.takeWhile_upTo] at member
    exact of_decide_eq_true (List.mem_filter.mp member).2
  · intro deposit member
    exact inTime.lt_of_mem_dropWhile member
  · exact isRun_slice _ offset limit

end Ledger

/-! ## Blocks -/

/-- The answer to a read of a height: the last of the blocks of that height. -/
inductive ReadsLast (blocks : List Block) (height : Int32) : Answer Block → Prop
  | found (before after : List Block) {block : Block} : blocks = before ++ block :: after →
      block.height = height → (∀ later ∈ after, later.height ≠ height) →
      ReadsLast blocks height (.ok block)
  | missing : (∀ block ∈ blocks, block.height ≠ height) →
      ReadsLast blocks height (.error (.blockNotFound height))

theorem Ledger.readsLast_readBlock (ledger : Ledger) (height : Int32) :
    ReadsLast ledger.blocks height (ledger.readBlock height) := by
  unfold readBlock
  split
  next block found =>
    obtain ⟨own, later, earlier, split, others⟩ := List.find?_eq_some_iff_append.mp found
    refine .found earlier.reverse later.reverse ?_ (of_decide_eq_true own) ?_
    · rw [← List.reverse_reverse ledger.blocks, split]
      simp
    · intro other member
      simpa using others other (List.mem_reverse.mp member)
  next none =>
    refine .missing fun block member => ?_
    simpa using List.find?_eq_none.mp none block (List.mem_reverse.mpr member)

/-! ## Loading -/

namespace LedgerSnapshot

/-- The texts of all addresses, those of the confirmed records before those of the mempool. -/
def addressTexts (snapshot : LedgerSnapshot) : List String :=
  snapshot.addresses.map (·.address) ++ snapshot.mempool.deltas.map (·.address)

/-- The changes of a key, as they are written down. -/
def deltasOf (snapshot : LedgerSnapshot) (network : Network) (key : AddressKey) : List IndexDelta :=
  (snapshot.entriesOf network key).flatMap (·.deltas)

/-- The pending changes of a key, as they are written down. -/
def pendingOf (snapshot : LedgerSnapshot) (network : Network) (key : AddressKey) :
    List PendingDelta :=
  (snapshot.mempool.deltas.filter fun entry => network.keyOf? entry.address = some key).map
    (·.delta)

end LedgerSnapshot

/-- The indexes of a key hold what a snapshot has written down under the key. -/
structure Represents (snapshot : LedgerSnapshot) (network : Network) (ledger : Ledger)
    (key : AddressKey) : Prop where
  unspent : IndexOf UnspentOutput.UpTo UnspentOutput.place (snapshot.unspentOf network key)
    (ledger.unspent key)
  deposits : IndexOf Deposit.UpTo Deposit.place (snapshot.depositsOf network key)
    (ledger.deposits key)
  deltas : ledger.indexDeltas key = snapshot.deltasOf network key
  pending : ledger.pendingDeltas key = snapshot.pendingOf network key
  unspentSlice : ∀ offset limit,
    IsRun (ledger.unspent key) offset limit (ledger.unspentSlice key offset limit)
  depositSlice : ∀ time, SlicesFrom (ledger.deposits key) time (ledger.depositSlice key time)
  depositSliceBack : ∀ time,
    SlicesBackFrom (ledger.deposits key) time (ledger.depositSliceBack key time)

namespace Ledger

variable {network : Network} {snapshot : LedgerSnapshot}

/-- Items are resolved one after the other, up to the first one whose address does not resolve. -/
theorem resolveEach_cases {α : Type} (network : Network) (address : α → String) (items : List α) :
    (∃ resolved, resolveEach network address items = .ok resolved ∧
      ∀ text ∈ items.map address, network.keyOf? text ≠ none) ∨
    ∃ text, (items.map address).find? (network.keyOf? · = none) = some text ∧
      resolveEach network address items = .error (.invalidAddress text) := by
  induction items with
  | nil => exact .inl ⟨[], rfl, by simp⟩
  | cons item rest ih =>
      rw [resolveEach]
      rcases network.resolve_cases (address item) with ⟨key, resolved, known⟩ | ⟨fails, unknown⟩
      · rw [resolved]
        rcases ih with ⟨others, resolves, all⟩ | ⟨text, first, fails⟩
        · rw [resolves]
          refine .inl ⟨_, rfl, ?_⟩
          simpa [known] using all
        · rw [fails]
          refine .inr ⟨text, ?_, rfl⟩
          simpa [known] using first
      · rw [fails]
        exact .inr ⟨address item, by simp [unknown], rfl⟩

/-- A snapshot is loaded, or else the first address that does not resolve is the error. -/
theorem ofSnapshot_cases (network : Network) (snapshot : LedgerSnapshot) :
    (∃ ledger, ofSnapshot network snapshot = .ok ledger ∧
      ∀ text ∈ snapshot.addressTexts, network.keyOf? text ≠ none) ∨
    ∃ text, snapshot.addressTexts.find? (network.keyOf? · = none) = some text ∧
      ofSnapshot network snapshot = .error (.invalidAddress text) := by
  rw [ofSnapshot, LedgerSnapshot.addressTexts, List.find?_append]
  rcases resolveEach_cases network AddressEntry.address snapshot.addresses with
    ⟨entries, resolves, all⟩ | ⟨text, first, fails⟩
  · rw [resolves]
    have none : (snapshot.addresses.map AddressEntry.address).find? (network.keyOf? · = none) =
        none := by
      simpa using all
    rw [none, Option.none_or]
    rcases resolveEach_cases network PendingEntry.address snapshot.mempool.deltas with
      ⟨pending, resolves, others⟩ | ⟨text, first, fails⟩
    · rw [resolves]
      refine .inl ⟨_, rfl, fun text member => ?_⟩
      rcases List.mem_append.mp member with member | member
      · exact all text member
      · exact others text member
    · rw [fails]
      exact .inr ⟨text, first, rfl⟩
  · rw [fails, first]
    exact .inr ⟨text, rfl, rfl⟩

/-- **Loading fails exactly when an address does not resolve.** -/
theorem exists_error_ofSnapshot_iff :
    (∃ error, ofSnapshot network snapshot = .error error) ↔
      ∃ text ∈ snapshot.addressTexts, network.keyOf? text = none := by
  rcases ofSnapshot_cases network snapshot with ⟨ledger, loaded, all⟩ | ⟨text, first, fails⟩
  · rw [loaded]
    constructor
    · exact nofun
    · rintro ⟨text, member, unknown⟩
      exact absurd unknown (all text member)
  · rw [fails]
    constructor
    · intro _
      exact ⟨text, List.mem_of_find?_eq_some first, by simpa using List.find?_some first⟩
    · intro _
      exact ⟨_, rfl⟩

/-- What loading takes from a snapshot beside the confirmed records. -/
theorem blocks_pending_ofSnapshot {ledger : Ledger}
    (loaded : ofSnapshot network snapshot = .ok ledger) :
    ledger.blocks = snapshot.blocks ∧
      ∀ key, ledger.pendingDeltas key = snapshot.pendingOf network key := by
  rw [ofSnapshot] at loaded
  split at loaded
  · cases loaded
  next entries _ =>
    split at loaded
    · cases loaded
    next pending resolves =>
      cases loaded
      refine ⟨rfl, fun key => ?_⟩
      rw [LedgerSnapshot.pendingOf, ← map_filter_resolveEach resolves key, pendingDeltas]
      simp only [List.filter_map, List.map_map]
      rfl

/-- **A loaded ledger holds under each key what the snapshot has written down under it.** -/
theorem represents_of_ofSnapshot {ledger : Ledger}
    (loaded : ofSnapshot network snapshot = .ok ledger) (key : AddressKey) :
    Represents snapshot network ledger key where
  unspent := indexOf_unspent loaded key
  deposits := indexOf_deposits loaded key
  deltas := by
    rw [indexDeltas, records_ofSnapshot loaded]
    rfl
  pending := (blocks_pending_ofSnapshot loaded).2 key
  unspentSlice := isRun_slice (ledger.unspent key)
  depositSlice := slicesFrom_depositSlice (Deposit.inTime_of_indexOf (indexOf_deposits loaded key))
  depositSliceBack :=
    slicesBackFrom_depositSliceBack (Deposit.inTime_of_indexOf (indexOf_deposits loaded key))

/-- **Loading builds sorted indexes without loss.**  It fails exactly when an address does not
resolve, with the error of the first one.  Otherwise each key has in its indexes what is written
down under it, and each height has the last of its blocks. -/
theorem ofSnapshot_indexes (network : Network) (snapshot : LedgerSnapshot) :
    ((∃ error, ofSnapshot network snapshot = .error error) ↔
      ∃ text ∈ snapshot.addressTexts, network.keyOf? text = none) ∧
    (∀ error, ofSnapshot network snapshot = .error error →
      ∃ text, snapshot.addressTexts.find? (network.keyOf? · = none) = some text ∧
        error = .invalidAddress text) ∧
    ∀ ledger, ofSnapshot network snapshot = .ok ledger →
      (∀ key, Represents snapshot network ledger key) ∧
        ∀ height, ReadsLast snapshot.blocks height (ledger.readBlock height) := by
  refine ⟨exists_error_ofSnapshot_iff, fun error failed => ?_, fun ledger loaded => ⟨?_, ?_⟩⟩
  · rcases ofSnapshot_cases network snapshot with ⟨_, loaded, _⟩ | ⟨text, first, fails⟩
    · cases loaded.symm.trans failed
    · cases fails.symm.trans failed
      exact ⟨text, first, rfl⟩
  · exact represents_of_ofSnapshot loaded
  · intro height
    rw [← (blocks_pending_ofSnapshot loaded).1]
    exact ledger.readsLast_readBlock height

/-- Two entries of one key, the later output first and a blank in front of the second address, and
two blocks of one height. -/
def scattered : LedgerSnapshot where
  tipHeight := 1000
  blocks := [.ofOutputs [], .paying [5]]
  addresses := [
    ⟨AddressKey.onesAddress, [], [⟨.filled 2, 0, 7, 12⟩], []⟩,
    ⟨" " ++ AddressKey.onesAddress, [], [⟨.filled 1, 0, 5, 11⟩], []⟩]

theorem keyOf?_scattered :
    ∀ entry ∈ scattered.addresses, Network.keyOf? {} entry.address = some .ones := by
  have known : Network.keyOf? {} AddressKey.onesAddress = some .ones :=
    Network.keyOf?_eq_some Network.resolve_onesAddress
  have blank : Network.keyOf? {} (" " ++ AddressKey.onesAddress) = some .ones :=
    (Network.keyOf?_eq_of_trim (by decide +kernel)).trans known
  simp [scattered, known, blank]

/-- Both entries are found under their key, and the height has the second block. -/
theorem ofSnapshot_indexes_scattered :
    ∃ ledger, ofSnapshot {} scattered = .ok ledger ∧
      scattered.unspentOf {} .ones = [⟨.filled 2, 0, 7, 12⟩, ⟨.filled 1, 0, 5, 11⟩] ∧
      Represents scattered {} ledger .ones ∧
      ReadsLast scattered.blocks 10 (ledger.readBlock 10) := by
  obtain ⟨fails_iff, _, indexes⟩ := ofSnapshot_indexes {} scattered
  have resolves : ∀ text ∈ scattered.addressTexts, Network.keyOf? {} text ≠ none := by
    intro text member
    rw [LedgerSnapshot.addressTexts, show scattered.mempool.deltas = [] from rfl, List.map_nil,
      List.append_nil] at member
    obtain ⟨entry, listed, rfl⟩ := List.mem_map.mp member
    rw [keyOf?_scattered entry listed]
    exact nofun
  cases loaded : ofSnapshot {} scattered with
  | error error =>
      obtain ⟨text, member, unknown⟩ := fails_iff.mp ⟨error, loaded⟩
      exact absurd unknown (resolves text member)
  | ok ledger =>
      obtain ⟨represents, reads⟩ := indexes ledger loaded
      have entries : scattered.entriesOf {} .ones = scattered.addresses :=
        List.filter_eq_self.mpr fun entry member => decide_eq_true (keyOf?_scattered entry member)
      refine ⟨ledger, rfl, ?_, represents .ones, reads 10⟩
      rw [LedgerSnapshot.unspentOf, entries]
      rfl

end Ledger

end CoinLedger
