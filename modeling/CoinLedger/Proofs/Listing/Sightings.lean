import CoinLedger.Listing.History
import CoinLedger.Proofs.Answer
import CoinLedger.Proofs.Distinct
import CoinLedger.Proofs.Total

/-!
# Entries of changes

The history sums up changes by transaction.  The entry of a transaction stands where its first
change stands among the first changes of all transactions (`firsts`), and shows its height and its
time; its amount is the total of all changes of the transaction (`summary`).  Adding one change
keeps it so (`add_summaries`), and so all changes do, one after the other, as long as every sum on
the way is an amount (`foldlM_add_eq_ok_iff`).  Pending changes are summed up in the order of their
times, and those of one time in their own order (`stablySorted_sortByTimestamp`).
-/

set_option autoImplicit false

namespace CoinLedger

open Amount

/-- A change of the value of a key, as its history sees it. -/
structure Change where
  txid : Txid
  height : Int32
  amount : Int64
  time : Option Int64
  deriving DecidableEq, Repr

namespace Change

/-- A confirmed change; its time is that of its block. -/
def ofIndex (delta : IndexDelta) : Change := ⟨delta.txid, delta.height, delta.amount, none⟩

/-- A pending change. -/
def ofPending (delta : PendingDelta) : Change :=
  ⟨delta.txid, mempoolHeight, delta.amount, some delta.timestamp⟩

/-- The total of the changes of a transaction. -/
def totalFor (changes : List Change) (txid : Txid) : Int :=
  total ((changes.filter (·.txid = txid)).map (·.amount))

theorem totalFor_perm {left right : List Change} (permuted : left.Perm right) (txid : Txid) :
    totalFor left txid = totalFor right txid :=
  total_perm ((permuted.filter _).map _)

theorem totalFor_append (left right : List Change) (txid : Txid) :
    totalFor (left ++ right) txid = totalFor left txid + totalFor right txid := by
  simp [totalFor]

theorem totalFor_singleton (change : Change) (txid : Txid) :
    totalFor [change] txid = if change.txid = txid then change.amount.toInt else 0 := by
  by_cases own : change.txid = txid <;> simp [totalFor, own]

theorem totalFor_eq_zero {changes : List Change} {txid : Txid}
    (absent : txid ∉ changes.map (·.txid)) : totalFor changes txid = 0 :=
  total_filter_eq_zero absent (·.amount)

/-! ## First sightings -/

/-- The changes whose transaction was not seen before them. -/
def unseen (seen : List Txid) : List Change → List Change
  | [] => []
  | change :: rest =>
    if change.txid ∈ seen then unseen seen rest
    else change :: unseen (change.txid :: seen) rest

/-- The first change of each transaction, in the order of the changes. -/
def firsts (changes : List Change) : List Change :=
  unseen [] changes

theorem unseen_append (seen : List Txid) (changes : List Change) (change : Change) :
    unseen seen (changes ++ [change]) = unseen seen changes ++
      if change.txid ∈ seen ∨ change.txid ∈ changes.map (·.txid) then [] else [change] := by
  induction changes generalizing seen with
  | nil => by_cases known : change.txid ∈ seen <;> simp [unseen, known]
  | cons first rest ih =>
      rw [List.cons_append, unseen, unseen, ih, ih]
      by_cases known : first.txid ∈ seen
      · have same : change.txid ∈ seen ∨ change.txid ∈ (first :: rest).map (·.txid) ↔
            change.txid ∈ seen ∨ change.txid ∈ rest.map (·.txid) := by
          rw [List.map_cons, List.mem_cons]
          constructor
          · rintro (old | same | later)
            · exact .inl old
            · exact .inl (same ▸ known)
            · exact .inr later
          · rintro (old | later)
            · exact .inl old
            · exact .inr (.inr later)
        simp only [if_pos known, same]
      · simp only [if_neg known, List.map_cons, List.mem_cons, List.cons_append, or_assoc,
          or_left_comm]

theorem firsts_append (changes : List Change) (change : Change) :
    firsts (changes ++ [change]) = firsts changes ++
      if change.txid ∈ changes.map (·.txid) then [] else [change] := by
  simp [firsts, unseen_append]

theorem unseen_sublist (seen : List Txid) (changes : List Change) :
    (unseen seen changes).Sublist changes := by
  induction changes generalizing seen with
  | nil => exact .slnil
  | cons change rest ih =>
      rw [unseen]
      split
      · exact (ih seen).cons change
      · exact (ih (change.txid :: seen)).cons_cons change

theorem mem_of_mem_firsts {change : Change} {changes : List Change}
    (first : change ∈ firsts changes) : change ∈ changes :=
  (unseen_sublist [] changes).subset first

/-- **The first changes are one for each distinct transaction.** -/
theorem map_txid_firsts (changes : List Change) :
    (firsts changes).map (·.txid) = (changes.map (·.txid)).eraseDups := by
  induction changes using List.reverseRecOn with
  | nil => rfl
  | append_singleton changes change ih =>
      rw [firsts_append, List.map_append, List.map_append, List.map_singleton, eraseDups_concat, ih]
      split <;> rfl

/-- The totals of all transactions come to the total of all changes. -/
theorem sum_totalFor_firsts (changes : List Change) :
    ((firsts changes).map fun first => totalFor changes first.txid).sum =
      total (changes.map (·.amount)) := by
  have groups : (firsts changes).map (fun first => totalFor changes first.txid) =
      (changes.map (·.txid)).eraseDups.map (totalFor changes) := by
    rw [← map_txid_firsts, List.map_map]
    rfl
  rw [groups]
  exact sum_totals_by_key Change.txid Change.amount (nodup_eraseDups _) fun change member =>
    List.mem_eraseDups.mpr (List.mem_map_of_mem member)

end Change

namespace Change

/-- Every sum that is formed when the changes of each transaction are added up is an amount. -/
def Summable (changes : List Change) : Prop :=
  ∀ txid, SumsInRange 0 ((changes.filter (·.txid = txid)).map (·.amount))

/-- All sums are amounts when the sizes of all changes add up to one. -/
theorem Summable.of_small {changes : List Change}
    (small : (changes.map fun change => change.amount.toInt.natAbs).sum < 2 ^ 63) :
    Summable changes := fun _ =>
  .of_small (List.filter_sublist.map _) (by rwa [List.map_map])

theorem Summable.total_inRange {changes : List Change} (fits : Summable changes) (txid : Txid) :
    InRange (totalFor changes txid) := by
  have last := (fits txid).total_inRange
  rwa [Int.zero_add] at last

/-- One more change adds one more sum, that of its transaction. -/
theorem summable_concat_iff {changes : List Change} {change : Change} :
    Summable (changes ++ [change]) ↔
      Summable changes ∧ InRange (totalFor (changes ++ [change]) change.txid) := by
  have own : ∀ txid, (((changes ++ [change]).filter (·.txid = txid)).map (·.amount)) =
      ((changes.filter (·.txid = txid)).map (·.amount)) ++
        if change.txid = txid then [change.amount] else [] := by
    intro txid
    by_cases same : change.txid = txid <;> simp [same]
  constructor
  · intro fits
    refine ⟨fun txid => ?_, fits.total_inRange change.txid⟩
    have more := fits txid
    rw [own] at more
    exact more.of_leading (List.prefix_append _ _)
  · rintro ⟨before, last⟩ txid
    rw [totalFor, own, if_pos rfl] at last
    rw [own]
    by_cases same : change.txid = txid
    · subst same
      rw [if_pos rfl]
      exact SumsInRange.concat_iff.mpr ⟨before _, by rwa [Int.zero_add]⟩
    · rw [if_neg same, List.append_nil]
      exact before txid

end Change

namespace HistoryEntry

open Change

/-- Adds a change to its entry, or a new entry behind the others. -/
def add (change : Change) (entries : List HistoryEntry) : Answer (List HistoryEntry) :=
  addChange change.txid change.height change.amount change.time entries

/-- The entry of the first change of a transaction, with the total of all its changes. -/
def summary (changes : List Change) (first : Change) : HistoryEntry where
  txid := first.txid
  height := first.height
  amount := Int64.ofInt (totalFor changes first.txid)
  direction := .any
  time := first.time

/-- One entry for each transaction, in the order of first sighting. -/
def summaries (changes : List Change) : List HistoryEntry :=
  (firsts changes).map (summary changes)

theorem add_of_not_mem {change : Change} {entries : List HistoryEntry}
    (absent : change.txid ∉ entries.map (·.txid)) :
    add change entries =
      .ok (entries ++ [⟨change.txid, change.height, change.amount, .any, change.time⟩]) := by
  induction entries with
  | nil => rfl
  | cons entry rest ih =>
      rw [List.map_cons, List.mem_cons, not_or] at absent
      rw [add, addChange, if_neg (Ne.symm absent.1)]
      exact congrArg (Except.map (entry :: ·)) (ih absent.2)

theorem add_of_mem {change : Change} {entries : List HistoryEntry} {sum : Int}
    (distinct : (entries.map (·.txid)).Nodup) (present : change.txid ∈ entries.map (·.txid))
    (exact : ∀ entry ∈ entries, entry.txid = change.txid →
      entry.amount.toInt + change.amount.toInt = sum) :
    add change entries = (ofExact sum).map fun amount => entries.map fun entry =>
      if entry.txid = change.txid then { entry with amount } else entry := by
  induction entries with
  | nil => cases present
  | cons entry rest ih =>
      obtain ⟨alone, distinct⟩ : entry.txid ∉ rest.map (·.txid) ∧ (rest.map (·.txid)).Nodup :=
        List.nodup_cons.mp distinct
      rw [add, addChange]
      by_cases own : entry.txid = change.txid
      · have others : ∀ amount, rest.map (fun entry =>
            if entry.txid = change.txid then { entry with amount } else entry) = rest := by
          intro amount
          refine (List.map_congr_left fun other member => if_neg fun same => ?_).trans
            (List.map_id rest)
          have listed : other.txid ∈ rest.map (·.txid) := List.mem_map_of_mem member
          exact alone (own.trans same.symm ▸ listed)
        rw [if_pos own, Amount.add, exact entry List.mem_cons_self own]
        simp only [List.map_cons, if_pos own, others]
      · rw [if_neg own]
        have later : change.txid ∈ rest.map (·.txid) :=
          (List.mem_cons.mp present).resolve_left (Ne.symm own)
        have goes := ih distinct later fun other member =>
          exact other (List.mem_cons_of_mem _ member)
        rw [add] at goes
        rw [goes]
        simp only [List.map_cons, if_neg own]
        cases ofExact sum <;> rfl

section Summaries

variable {changes : List Change} {change : Change}

theorem map_txid_summaries (changes : List Change) :
    (summaries changes).map (·.txid) = (changes.map (·.txid)).eraseDups := by
  rw [summaries, List.map_map, ← map_txid_firsts]
  rfl

theorem totalFor_concat (changes : List Change) (change : Change) (txid : Txid) :
    totalFor (changes ++ [change]) txid =
      totalFor changes txid + if change.txid = txid then change.amount.toInt else 0 := by
  rw [totalFor_append, totalFor_singleton]

/-- A change leaves the entries of the other transactions as they are. -/
theorem summary_concat_of_ne {first : Change} (other : first.txid ≠ change.txid) :
    summary (changes ++ [change]) first = summary changes first := by
  rw [summary, summary, totalFor_concat, if_neg (Ne.symm other), Int.add_zero]

/-- A change of a transaction that has an entry adds to the total of that entry. -/
theorem add_summaries_of_mem (fits : Summable changes)
    (known : change.txid ∈ changes.map (·.txid)) :
    add change (summaries changes) =
      if InRange (totalFor (changes ++ [change]) change.txid) then
        .ok (summaries (changes ++ [change]))
      else .error .stopped := by
  have distinct : ((summaries changes).map (·.txid)).Nodup :=
    map_txid_summaries changes ▸ nodup_eraseDups _
  have present : change.txid ∈ (summaries changes).map (·.txid) :=
    map_txid_summaries changes ▸ List.mem_eraseDups.mpr known
  have exact : ∀ entry ∈ summaries changes, entry.txid = change.txid →
      entry.amount.toInt + change.amount.toInt = totalFor (changes ++ [change]) change.txid := by
    intro entry member own
    obtain ⟨first, _, rfl⟩ := List.mem_map.mp member
    have same : first.txid = change.txid := own
    rw [totalFor_concat, if_pos rfl, summary, same, toInt_ofInt_of_inRange (fits.total_inRange _)]
  rw [add_of_mem distinct present exact, ofExact]
  split
  · refine congrArg Except.ok ?_
    rw [summaries, summaries, firsts_append, if_pos known, List.append_nil]
    dsimp only
    rw [List.map_map]
    refine List.map_congr_left fun first _ => ?_
    by_cases own : first.txid = change.txid
    · simp [summary, own]
    · rw [summary_concat_of_ne own]
      exact if_neg own
  · rfl

/-- The first change of a transaction makes a new entry behind the others. -/
theorem add_summaries_of_not_mem (unknown : change.txid ∉ changes.map (·.txid)) :
    add change (summaries changes) = .ok (summaries (changes ++ [change])) := by
  have apart : ∀ first ∈ firsts changes, first.txid ≠ change.txid := fun first member same =>
    unknown (same ▸ List.mem_map_of_mem (mem_of_mem_firsts member))
  have entry : summary (changes ++ [change]) change =
      ⟨change.txid, change.height, change.amount, .any, change.time⟩ := by
    rw [summary, totalFor_concat, if_pos rfl, totalFor_eq_zero unknown, Int.zero_add,
      Int64.ofInt_toInt]
  have absent : change.txid ∉ (summaries changes).map (·.txid) := fun listed =>
    unknown (List.mem_eraseDups.mp (map_txid_summaries changes ▸ listed))
  rw [add_of_not_mem absent, summaries.eq_1 (changes ++ [change]), firsts_append, if_neg unknown,
    List.map_append, List.map_singleton, entry, summaries,
    List.map_congr_left fun first member => summary_concat_of_ne (apart first member)]

/-- **Adding a change to the entries of changes gives those of all of them**, if the new sum is an
amount. -/
theorem add_summaries (fits : Summable changes) (change : Change) :
    add change (summaries changes) =
      if InRange (totalFor (changes ++ [change]) change.txid) then
        .ok (summaries (changes ++ [change]))
      else .error .stopped := by
  by_cases known : change.txid ∈ changes.map (·.txid)
  · exact add_summaries_of_mem fits known
  · have alone : totalFor (changes ++ [change]) change.txid = change.amount.toInt := by
      rw [totalFor_concat, if_pos rfl, totalFor_eq_zero known, Int.zero_add]
    rw [add_summaries_of_not_mem known, alone, if_pos (inRange_toInt _)]

end Summaries

/-- **Changes that are added one after the other give the entries of their first changes**, and they
can be added when every sum on the way is an amount. -/
theorem foldlM_add_eq_ok_iff {changes : List Change} {entries : List HistoryEntry} :
    changes.foldlM (fun entries change => add change entries) [] = .ok entries ↔
      Summable changes ∧ entries = summaries changes := by
  induction changes using List.reverseRecOn generalizing entries with
  | nil =>
      constructor
      · intro same
        cases same
        exact ⟨.of_small (by decide), rfl⟩
      · rintro ⟨_, rfl⟩
        rfl
  | append_singleton changes change ih =>
      rw [List.foldlM_append, Answer.bind_eq_ok, summable_concat_iff]
      constructor
      · rintro ⟨before, first, last⟩
        obtain ⟨fits, rfl⟩ := ih.mp first
        obtain ⟨after, added, last⟩ := Answer.bind_eq_ok.mp last
        cases last
        dsimp only at added
        rw [add_summaries fits] at added
        split at added
        next sumFits => exact ⟨⟨fits, sumFits⟩, (Except.ok.inj added).symm⟩
        next => cases added
      · rintro ⟨⟨fits, sumFits⟩, rfl⟩
        refine ⟨_, ih.mpr ⟨fits, rfl⟩, ?_⟩
        rw [List.foldlM_cons, add_summaries fits, if_pos sumFits]
        rfl

/-- The entries of changes with their directions. -/
def directedSummaries (changes : List Change) : List HistoryEntry :=
  (firsts changes).map fun first => (summary changes first).directed

theorem ofConfirmed_eq_ok_iff {deltas : List IndexDelta} {entries : List HistoryEntry} :
    ofConfirmed deltas = .ok entries ↔
      Summable (deltas.map ofIndex) ∧ entries = directedSummaries (deltas.map ofIndex) := by
  have added : ofConfirmed deltas =
      ((deltas.map ofIndex).foldlM (fun entries change => add change entries) []).map
        (List.map directed) := by
    rw [List.foldlM_map]
    rfl
  rw [added, Answer.map_eq_ok]
  simp only [foldlM_add_eq_ok_iff, and_assoc, exists_and_left]
  refine and_congr_right fun _ => ?_
  rw [exists_eq_left, summaries, List.map_map, directedSummaries]
  exact eq_comm

theorem ofPending_eq_ok_iff {deltas : List PendingDelta} {entries : List HistoryEntry} :
    ofPending deltas = .ok entries ↔
      Summable (deltas.map .ofPending) ∧ entries = directedSummaries (deltas.map .ofPending) := by
  have added : ofPending deltas =
      ((deltas.map .ofPending).foldlM (fun entries change => add change entries) []).map
        (List.map directed) := by
    rw [List.foldlM_map]
    rfl
  rw [added, Answer.map_eq_ok]
  simp only [foldlM_add_eq_ok_iff, and_assoc, exists_and_left]
  refine and_congr_right fun _ => ?_
  rw [exists_eq_left, summaries, List.map_map, directedSummaries]
  exact eq_comm

end HistoryEntry

/-! ## The order of pending changes -/

/-- The changes in the order of their times, those of one time in their own order. -/
structure StablySorted (deltas sorted : List PendingDelta) : Prop where
  permuted : sorted.Perm deltas
  ordered : sorted.Pairwise fun earlier later => earlier.timestamp ≤ later.timestamp
  stable : ∀ time, sorted.filter (·.timestamp = time) = deltas.filter (·.timestamp = time)

theorem stablySorted_sortByTimestamp (deltas : List PendingDelta) :
    StablySorted deltas (sortByTimestamp deltas) := by
  have trans : ∀ first second third : PendingDelta,
      decide (first.timestamp ≤ second.timestamp) = true →
        decide (second.timestamp ≤ third.timestamp) = true →
          decide (first.timestamp ≤ third.timestamp) = true := by
    simp only [decide_eq_true_eq]
    exact fun _ _ _ => Int64.le_trans
  have total : ∀ first second : PendingDelta,
      (decide (first.timestamp ≤ second.timestamp) ||
        decide (second.timestamp ≤ first.timestamp)) = true := by
    simp only [Bool.or_eq_true, decide_eq_true_eq]
    exact fun _ _ => Int64.le_total _ _
  have permuted : (sortByTimestamp deltas).Perm deltas := List.mergeSort_perm deltas _
  refine ⟨permuted, (List.pairwise_mergeSort trans total deltas).imp of_decide_eq_true, ?_⟩
  intro time
  -- The changes of one time are sorted as they stand, so the sort keeps them as they stand.
  have level : (deltas.filter (·.timestamp = time)).Pairwise fun earlier later =>
      decide (earlier.timestamp ≤ later.timestamp) = true := by
    refine List.pairwise_of_forall_mem_list fun earlier first later second => ?_
    have early := of_decide_eq_true (List.mem_filter.mp first).2
    have late := of_decide_eq_true (List.mem_filter.mp second).2
    rw [early, late]
    exact decide_eq_true (Int64.le_refl time)
  have kept := (List.sublist_mergeSort trans total level List.filter_sublist).filter
    (·.timestamp = time)
  rw [List.filter_filter] at kept
  simp only [Bool.and_self] at kept
  exact (kept.eq_of_length (permuted.symm.filter _).length_eq).symm

theorem StablySorted.filter {deltas sorted : List PendingDelta}
    (stably : StablySorted deltas sorted) (keeps : PendingDelta → Bool) :
    StablySorted (deltas.filter keeps) (sorted.filter keeps) where
  permuted := stably.permuted.filter keeps
  ordered := stably.ordered.filter keeps
  stable time := by
    rw [List.filter_comm, stably.stable, List.filter_comm]

end CoinLedger
