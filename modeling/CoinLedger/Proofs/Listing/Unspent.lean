import CoinLedger.Listing.Unspent
import CoinLedger.Proofs.CachedQuery
import CoinLedger.Proofs.Related

/-!
# Listed unspent outputs

The answer to a page of unspent outputs depends on one thing of the session in which it is asked
for, how often the time of day was asked for before (`listUnspent_runIn`): the page shows the
outputs of its window, each marked with the lock that the ledger answers for it at the time at which
it is looked at (`listedBetween_of_listUnspent`).
-/

set_option autoImplicit false

namespace CoinLedger

/-- The output that an entry of a page shows. -/
def UnspentEntry.output (entry : UnspentEntry) : UnspentOutput :=
  ⟨entry.txid, entry.index, entry.value, entry.height⟩

namespace Source

variable {source : Source}

/-- An unspent output as it is listed, given whether it is locked. -/
def unspentEntry (source : Source) (output : UnspentOutput) (locked : Bool) : UnspentEntry where
  txid := output.txid
  index := output.outputIndex
  value := output.amount
  height := output.height
  inMempool := source.ledger.isSpent output.outpoint
  spendable := !locked

/-- The entry shows the output, marked with the lock that the ledger answers for it at a time. -/
def Listed (source : Source) (time : Int64) (key : AddressKey) (output : UnspentOutput)
    (entry : UnspentEntry) : Prop :=
  ∃ locked, source.isTimeLocked time output.height output.txid key = .ok locked ∧
    entry = source.unspentEntry output locked

section Listed

variable {time : Int64} {key : AddressKey} {output : UnspentOutput} {entry : UnspentEntry}

theorem Listed.output_eq (listed : source.Listed time key output entry) :
    entry.output = output := by
  obtain ⟨_, _, rfl⟩ := listed
  rfl

theorem Listed.spendable_iff (listed : source.Listed time key output entry) :
    entry.spendable = true ↔
      source.isTimeLocked time output.height output.txid key = .ok false := by
  obtain ⟨locked, found, rfl⟩ := listed
  rw [found]
  cases locked <;> simp [unspentEntry]

end Listed

/-- The entries of some outputs, each looked at after some readings of the time of day, or the error
of the first lookup that fails. -/
def markAnswer (source : Source) (key : AddressKey) :
    List (UnspentOutput × Nat) → Answer (List UnspentEntry)
  | [] => .ok []
  | (output, reads) :: rest => do
    let locked ← source.isTimeLocked (source.referenceTime reads) output.height output.txid key
    return source.unspentEntry output locked :: (← source.markAnswer key rest)

theorem markUnspent_answers (key : AddressKey) (outputs : List UnspentOutput) :
    Query.Answers source (source.markUnspent key outputs)
      (outputs.map (source.outputReads key)).sum
      fun reads => source.markAnswer key (withReads (source.outputReads key) reads outputs) := by
  induction outputs with
  | nil => exact Query.answers_pure []
  | cons output rest ih =>
      have asked : source.timeReads output.height output.txid key +
          ((rest.map (source.outputReads key)).sum + 0) =
            ((output :: rest).map (source.outputReads key)).sum := by
        simp [outputReads]
      exact ((checkTimeLockCached_answers output.height output.txid key).bind fun locked =>
        ih.bind fun entries => Query.answers_pure _).congr asked fun _ => rfl

/-- **Every output is listed once, in order.** -/
theorem listed_of_markAnswer {key : AddressKey} {looks : List (UnspentOutput × Nat)}
    {entries : List UnspentEntry} (marked : source.markAnswer key looks = .ok entries) :
    List.Forall₂
      (fun look entry => source.Listed (source.referenceTime look.2) key look.1 entry)
      looks entries := by
  induction looks generalizing entries with
  | nil =>
      cases marked
      exact List.Forall₂.nil
  | cons look rest ih =>
      obtain ⟨locked, found, marked⟩ := Answer.bind_eq_ok.mp marked
      obtain ⟨others, later, marked⟩ := Answer.bind_eq_ok.mp marked
      cases marked
      exact List.Forall₂.cons ⟨locked, found, rfl⟩ (ih later)

/-! ## Pages -/

/-- The outputs of a page, each with the readings of the time of day before it is looked at. -/
def windowLooks (source : Source) (key : AddressKey) (query : UnspentQuery) (reads : Nat) :
    List (UnspentOutput × Nat) :=
  withReads (source.outputReads key) reads
    (source.unspentWindow key
      (pageWindow (source.ledger.unspentCount key) query.page query.pageSize) query.ascending)

/-- The page of unspent outputs that is asked for, or why there is none, when the time of day was
asked for the given number of times before. -/
def unspentPage (source : Source) (address : String) (query : UnspentQuery) (reads : Nat) :
    Answer UnspentPage := do
  checkPageSize query.pageSize maxUnspentPageSize
  let key ← source.network.resolve address
  let count := source.ledger.unspentCount key
  if count = 0 then throw .noUnspentOutputs
  let pages := pageCount count query.pageSize
  checkPageNumber query.page pages
  let entries ← source.markAnswer key (source.windowLooks key query reads)
  return {
    count, pages, page := query.page, blockHeight := source.ledger.tipHeight, address
    script := Script.payTo key, entries }

/-- **A page depends on the time of the session alone.** -/
theorem listUnspent_runIn (address : String) (query : UnspentQuery) (session : Session) :
    ((source.listUnspent address query).runIn session).1 =
      source.unspentPage address query session.timeReads := by
  rw [listUnspent, unspentPage, Query.fst_ofAnswer_bind]
  refine bind_congr fun _ => ?_
  rw [Query.fst_ofAnswer_bind]
  refine bind_congr fun key => ?_
  by_cases none : source.ledger.unspentCount key = 0
  · rw [if_pos none, if_pos none]
    rfl
  · rw [if_neg none, if_neg none]
    refine (Query.fst_ofAnswer_bind _ _ _).trans (bind_congr fun _ => ?_)
    rw [Query.fst_useCache_bind
      ((markUnspent_answers key _).bind fun entries => Query.answers_pure _) session,
      if_pos (by decide)]
    rfl

/-- A page that is answered marks the outputs of its window, beginning with an empty cache. -/
theorem marked_of_listUnspent {address : String} {query : UnspentQuery} {session after : Session}
    {page : UnspentPage}
    (answered : (source.listUnspent address query).runIn session = (.ok page, after)) :
    ∃ key, source.network.resolve address = .ok key ∧
      (source.markUnspent key (source.unspentWindow key
        (pageWindow (source.ledger.unspentCount key) query.page query.pageSize)
        query.ascending)).runIn { session with cache := .ofCapacity unspentCacheSize } =
          (.ok page.entries, after) := by
  rw [listUnspent] at answered
  obtain ⟨_, _, answered⟩ := Query.runIn_ofAnswer_bind_eq_ok answered
  obtain ⟨key, resolved, answered⟩ := Query.runIn_ofAnswer_bind_eq_ok answered
  by_cases none : source.ledger.unspentCount key = 0
  · rw [if_pos none] at answered
    cases answered
  · rw [if_neg none] at answered
    obtain ⟨_, _, answered⟩ := Query.runIn_ofAnswer_bind_eq_ok answered
    obtain ⟨_, _, started, answered⟩ := Query.runIn_bind_eq_ok.mp answered
    cases started
    obtain ⟨entries, _, marked, done⟩ := Query.runIn_bind_eq_ok.mp answered
    cases done
    exact ⟨key, resolved, marked⟩

/-- The entry shows the output as it is listed at a reading of the time of day between two
sessions. -/
def ListedBetween (source : Source) (before after : Session) (key : AddressKey)
    (output : UnspentOutput) (entry : UnspentEntry) : Prop :=
  ∃ reads, before.timeReads ≤ reads ∧ reads + source.outputReads key output ≤ after.timeReads ∧
    source.Listed (source.referenceTime reads) key output entry

/-- **A page shows the outputs of its window**, each once and in order, marked with their locks at
the readings of the time of day while it is asked for. -/
theorem listedBetween_of_listUnspent {address : String} {query : UnspentQuery}
    {session after : Session} {page : UnspentPage}
    (answered : (source.listUnspent address query).runIn session = (.ok page, after)) :
    ∃ key, source.network.resolve address = .ok key ∧
      List.Forall₂ (source.ListedBetween session after key)
        (source.unspentWindow key
          (pageWindow (source.ledger.unspentCount key) query.page query.pageSize) query.ascending)
        page.entries := by
  obtain ⟨key, resolved, marked⟩ := marked_of_listUnspent answered
  have faithful : (BlockCache.ofCapacity unspentCacheSize).Faithful source.ledger.readBlock :=
    BlockCache.faithful_ofCapacity unspentCacheSize
  obtain ⟨entries, asked⟩ := (markUnspent_answers key _).eq_ok faithful marked
  refine ⟨key, resolved, ?_⟩
  unfold ListedBetween
  rw [asked]
  exact forall₂_of_withReads (listed_of_markAnswer entries)

end Source

end CoinLedger
