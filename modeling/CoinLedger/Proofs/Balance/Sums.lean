import CoinLedger.Balance
import CoinLedger.Proofs.Answer
import CoinLedger.Proofs.Order
import CoinLedger.Proofs.Total

/-!
# Sums by transaction

Sums by transaction are kept in the order of the hashes.  They hold pending changes when each
transaction that has a change has its exact total, and no other transaction has a sum (`Holds`).
Adding a change keeps this (`Holds.add`), so the sums of a list of changes hold it, in whatever
order it is (`Holds.unique`), and the values come to the total of all changes (`Holds.sum_values`).
The changes can be added as long as every sum on the way is an amount (`Holds.exists_addEach`).
-/

set_option autoImplicit false

namespace CoinLedger

open Std Amount

namespace TxidSums

/-- The transactions stand in the order of their hashes, none of them twice. -/
def Sorted (sums : TxidSums) : Prop :=
  sums.Pairwise fun earlier later => compare earlier.1 later.1 = .lt

theorem ne_of_compare {left right : Txid} (unequal : compare left right ≠ .eq) : left ≠ right := by
  rintro rfl
  exact unequal compare_self

theorem lookup_cons (txid : Txid) (entry : Txid × Int64) (rest : TxidSums) :
    List.lookup txid (entry :: rest) =
      if txid = entry.1 then some entry.2 else rest.lookup txid := by
  rw [List.lookup_cons]
  by_cases own : txid = entry.1
  · rw [if_pos own, beq_iff_eq.mpr own]
  · rw [if_neg own, beq_eq_false_iff_ne.mpr own]

theorem lookup_eq_none_of_before {txid : Txid} {sums : TxidSums}
    (before : ∀ entry ∈ sums, compare txid entry.1 = .lt) : sums.lookup txid = none := by
  refine List.lookup_eq_none_iff.mpr fun entry member => ?_
  have distinct : txid ≠ entry.1 := ne_of_compare (by rw [before entry member]; decide)
  simpa using distinct

/-- The sums with a new sum of one transaction. -/
def put (txid : Txid) (sum : Int64) : TxidSums → TxidSums
  | [] => [(txid, sum)]
  | entry :: rest =>
    match compare txid entry.1 with
    | .lt => (txid, sum) :: entry :: rest
    | .eq => (entry.1, sum) :: rest
    | .gt => entry :: put txid sum rest

/-- The transactions after one are those that had a sum, and that one. -/
theorem mem_keys_put {txid other : Txid} {sum : Int64} {sums : TxidSums} :
    other ∈ (put txid sum sums).map Prod.fst ↔ other = txid ∨ other ∈ sums.map Prod.fst := by
  induction sums with
  | nil => simp [put]
  | cons entry rest ih =>
      rw [put]
      cases compared : compare txid entry.1 with
      | lt => simp
      | eq =>
          have same : txid = entry.1 := LawfulEqOrd.eq_of_compare compared
          simp [same]
      | gt =>
          simp only [List.map_cons, List.mem_cons, ih]
          tauto

theorem Sorted.put {sums : TxidSums} (sorted : sums.Sorted) (txid : Txid) (sum : Int64) :
    (sums.put txid sum).Sorted := by
  induction sums with
  | nil => exact List.pairwise_singleton _ _
  | cons entry rest ih =>
      obtain ⟨first, later⟩ := List.pairwise_cons.mp sorted
      rw [TxidSums.put]
      cases compared : compare txid entry.1 with
      | lt =>
          refine List.pairwise_cons.mpr ⟨fun other member => ?_, sorted⟩
          rcases List.mem_cons.mp member with rfl | member
          · exact compared
          · exact TransCmp.lt_trans compared (first other member)
      | eq => exact List.pairwise_cons.mpr ⟨first, later⟩
      | gt =>
          refine List.pairwise_cons.mpr ⟨fun other member => ?_, ih later⟩
          rcases mem_keys_put.mp (List.mem_map_of_mem member) with same | old
          · rw [same]
            exact OrientedCmp.lt_of_gt compared
          · obtain ⟨kept, listed, same⟩ := List.mem_map.mp old
            exact same ▸ first kept listed

/-- A new sum of a transaction changes no other sum. -/
theorem lookup_put (txid : Txid) (sum : Int64) (sums : TxidSums) (other : Txid) :
    (sums.put txid sum).lookup other = if other = txid then some sum else sums.lookup other := by
  induction sums with
  | nil => rw [put, lookup_cons, List.lookup_nil]
  | cons entry rest ih =>
      rw [put]
      cases compared : compare txid entry.1 with
      | lt => rw [lookup_cons]
      | eq =>
          have same : txid = entry.1 := LawfulEqOrd.eq_of_compare compared
          simp only [lookup_cons, same]
          split <;> rfl
      | gt =>
          have distinct : txid ≠ entry.1 := ne_of_compare (by rw [compared]; decide)
          simp only [lookup_cons, ih]
          by_cases own : other = txid
          · simp [own, distinct]
          · simp [own]

/-- **Adding to the sum of a transaction puts the new sum in its place**, if that is an amount. -/
theorem add_eq {sums : TxidSums} (sorted : sums.Sorted) (txid : Txid) (amount : Int64) :
    sums.add txid amount =
      (Amount.add ((sums.lookup txid).getD 0) amount).map (put txid · sums) := by
  have alone : Amount.add 0 amount = .ok amount := add_eq_ok_iff.mpr (Int.zero_add _).symm
  induction sums with
  | nil =>
      rw [add, List.lookup_nil, Option.getD_none, alone]
      rfl
  | cons entry rest ih =>
      obtain ⟨first, later⟩ := List.pairwise_cons.mp sorted
      rw [add, lookup_cons]
      simp only [put]
      cases compared : compare txid entry.1 with
      | lt =>
          have absent : List.lookup txid (entry :: rest) = none := by
            refine lookup_eq_none_of_before fun kept member => ?_
            rcases List.mem_cons.mp member with rfl | member
            · exact compared
            · exact TransCmp.lt_trans compared (first kept member)
          rw [← lookup_cons, absent, Option.getD_none, alone]
          rfl
      | eq => rw [if_pos (LawfulEqOrd.eq_of_compare compared), Option.getD_some]
      | gt =>
          have distinct : txid ≠ entry.1 := ne_of_compare (by rw [compared]; decide)
          rw [if_neg distinct]
          dsimp only
          rw [ih later]
          cases Amount.add ((rest.lookup txid).getD 0) amount <;> rfl

/-- A transaction has one sum. -/
theorem Sorted.mem_iff {sums : TxidSums} (sorted : sums.Sorted) {txid : Txid} {sum : Int64} :
    (txid, sum) ∈ sums ↔ sums.lookup txid = some sum := by
  induction sums with
  | nil => simp
  | cons entry rest ih =>
      obtain ⟨first, later⟩ := List.pairwise_cons.mp sorted
      rw [List.mem_cons, ih later, lookup_cons]
      by_cases own : txid = entry.1
      · have absent : rest.lookup txid = none :=
          lookup_eq_none_of_before fun other member => own ▸ first other member
        rw [if_pos own, absent, Option.some_inj, Prod.ext_iff]
        exact ⟨fun found => (found.resolve_right nofun).2.symm, fun same => .inl ⟨own, same.symm⟩⟩
      · rw [if_neg own, Prod.ext_iff]
        exact ⟨fun found => found.resolve_left fun same => own same.1, .inr⟩

theorem Sorted.nodup {sums : TxidSums} (sorted : sums.Sorted) : (sums.map Prod.fst).Nodup := by
  refine List.pairwise_map.mpr (sorted.imp fun {earlier later} before => ?_)
  exact ne_of_compare (by rw [before]; decide)

/-- Sorted sums that agree on every transaction are the same. -/
theorem Sorted.ext {left right : TxidSums} (sortedLeft : left.Sorted) (sortedRight : right.Sorted)
    (agree : ∀ txid, left.lookup txid = right.lookup txid) : left = right := by
  have permuted : left.Perm right := by
    refine (List.perm_ext_iff_of_nodup (.of_map _ sortedLeft.nodup)
      (.of_map _ sortedRight.nodup)).mpr fun entry => ?_
    rw [← Prod.mk.eta (p := entry), sortedLeft.mem_iff, sortedRight.mem_iff, agree]
  refine List.Perm.eq_of_pairwise (fun first second _ _ before after => ?_) sortedLeft sortedRight
    permuted
  exact absurd after (OrientedCmp.not_lt_of_lt before)

/-! ## The sums of changes -/

/-- The total of the changes of a transaction. -/
def totalFor (deltas : List PendingDelta) (txid : Txid) : Int :=
  total ((deltas.filter (·.txid = txid)).map (·.amount))

theorem totalFor_eq_zero {deltas : List PendingDelta} {txid : Txid}
    (absent : txid ∉ deltas.map (·.txid)) : totalFor deltas txid = 0 :=
  total_filter_eq_zero absent (·.amount)

/-- What the sum of a transaction should be: none without a change. -/
def sumOf? (deltas : List PendingDelta) (txid : Txid) : Option Int :=
  if txid ∈ deltas.map (·.txid) then some (totalFor deltas txid) else none

/-- The sums are the exact ones of the changes. -/
structure Holds (deltas : List PendingDelta) (sums : TxidSums) : Prop where
  sorted : sums.Sorted
  lookup : ∀ txid, (sums.lookup txid).map Int64.toInt = sumOf? deltas txid

theorem holds_nil : Holds [] [] := ⟨List.Pairwise.nil, fun _ => rfl⟩

/-- The sum of a transaction is its exact total, zero without a change. -/
theorem Holds.toInt_lookup {deltas : List PendingDelta} {sums : TxidSums}
    (holds : Holds deltas sums) (txid : Txid) :
    ((sums.lookup txid).getD 0).toInt = totalFor deltas txid := by
  have exact := holds.lookup txid
  rw [sumOf?] at exact
  split at exact
  next =>
    obtain ⟨sum, found, same⟩ := Option.map_eq_some_iff.mp exact
    rw [found]
    exact same
  next absent =>
    rw [Option.map_eq_none_iff.mp exact]
    exact (totalFor_eq_zero absent).symm

/-- **Adding a change keeps the sums those of the changes.** -/
theorem Holds.add {deltas : List PendingDelta} {sums after : TxidSums} (holds : Holds deltas sums)
    {delta : PendingDelta} (added : sums.add delta.txid delta.amount = .ok after) :
    Holds (deltas ++ [delta]) after := by
  rw [add_eq holds.sorted] at added
  obtain ⟨sum, found, rfl⟩ := Answer.map_eq_ok.mp added
  have exact := add_eq_ok_iff.mp found
  rw [holds.toInt_lookup] at exact
  refine ⟨holds.sorted.put delta.txid sum, fun txid => ?_⟩
  rw [lookup_put]
  by_cases own : txid = delta.txid
  · have more : totalFor (deltas ++ [delta]) delta.txid =
        totalFor deltas delta.txid + delta.amount.toInt := by
      simp [totalFor]
    have present : delta.txid ∈ (deltas ++ [delta]).map (·.txid) := by simp
    rw [if_pos own, own, sumOf?, if_pos present, more, ← exact]
    rfl
  · rw [if_neg own, holds.lookup]
    simp [sumOf?, totalFor, own, Ne.symm own]

/-- The sums of changes that are added one after the other, if each of them is an amount. -/
def addEach (deltas : List PendingDelta) (sums : TxidSums) : Answer TxidSums :=
  deltas.foldlM (fun sums delta => sums.add delta.txid delta.amount) sums

theorem Holds.addEach {before deltas : List PendingDelta} {sums after : TxidSums}
    (holds : Holds before sums) (added : TxidSums.addEach deltas sums = .ok after) :
    Holds (before ++ deltas) after := by
  induction deltas generalizing before sums with
  | nil =>
      cases added
      rwa [List.append_nil]
  | cons delta rest ih =>
      obtain ⟨middle, first, later⟩ := Answer.bind_eq_ok.mp added
      have goesOn := ih (holds.add first) later
      rwa [List.append_assoc] at goesOn

/-- **Changes can be added when every sum of a transaction on the way is an amount.** -/
theorem Holds.exists_addEach {before deltas : List PendingDelta} {sums : TxidSums}
    (holds : Holds before sums)
    (fits : ∀ txid, SumsInRange (totalFor before txid)
      ((deltas.filter (·.txid = txid)).map (·.amount))) :
    ∃ after, TxidSums.addEach deltas sums = .ok after := by
  induction deltas generalizing before sums with
  | nil => exact ⟨sums, rfl⟩
  | cons delta rest ih =>
      have own := fits delta.txid
      simp only [List.filter_cons, decide_true, if_true, List.map_cons] at own
      have sumFits := own.tail.start_inRange
      obtain ⟨middle, added⟩ : ∃ middle, sums.add delta.txid delta.amount = .ok middle := by
        rw [add_eq holds.sorted, Amount.add, holds.toInt_lookup, ofExact_of_inRange sumFits]
        exact ⟨_, rfl⟩
      have later : ∀ txid, SumsInRange (totalFor (before ++ [delta]) txid)
          ((rest.filter (·.txid = txid)).map (·.amount)) := by
        intro txid
        have other := fits txid
        by_cases same : delta.txid = txid
        · simp only [List.filter_cons, same, decide_true, if_true, List.map_cons] at other
          simpa [totalFor, same] using other.tail
        · simp only [List.filter_cons, same, decide_false, Bool.false_eq_true, if_false] at other
          simpa [totalFor, same] using other
      obtain ⟨after, goes⟩ := ih (holds.add added) later
      exact ⟨after, Answer.bind_eq_ok.mpr ⟨middle, added, goes⟩⟩

/-- **The sums do not depend on the order of the changes.** -/
theorem Holds.unique {deltas others : List PendingDelta} {left right : TxidSums}
    (holds : Holds deltas left) (same : Holds others right) (permuted : deltas.Perm others) :
    left = right := by
  refine holds.sorted.ext same.sorted fun txid => ?_
  refine Option.map_injective (fun _ _ => Int64.toInt_inj.mp) ?_
  rw [holds.lookup, same.lookup, sumOf?, sumOf?, totalFor, totalFor,
    total_perm ((permuted.filter _).map _)]
  simp only [(permuted.map _).mem_iff]

/-- The transactions with a sum are those with a change. -/
theorem Holds.mem_keys {deltas : List PendingDelta} {sums : TxidSums} (holds : Holds deltas sums)
    {txid : Txid} : txid ∈ sums.map Prod.fst ↔ ∃ delta ∈ deltas, delta.txid = txid := by
  have listed : txid ∈ sums.map Prod.fst ↔ ((sums.lookup txid).map Int64.toInt).isSome := by
    simp [Option.isSome_iff_exists, ← holds.sorted.mem_iff]
  rw [listed]
  simp [holds.lookup, sumOf?]

theorem Holds.value {deltas : List PendingDelta} {sums : TxidSums} (holds : Holds deltas sums)
    {txid : Txid} {sum : Int64} (member : (txid, sum) ∈ sums) :
    sum.toInt = totalFor deltas txid := by
  have exact := holds.toInt_lookup txid
  rwa [holds.sorted.mem_iff.mp member] at exact

/-- **The sums of all transactions come to the total of all changes.** -/
theorem Holds.sum_values {deltas : List PendingDelta} {sums : TxidSums}
    (holds : Holds deltas sums) :
    (sums.map fun entry => entry.2.toInt).sum = total (deltas.map (·.amount)) := by
  have values : sums.map (fun entry => entry.2.toInt) =
      (sums.map Prod.fst).map (totalFor deltas) := by
    rw [List.map_map]
    exact List.map_congr_left fun entry member => holds.value member
  rw [values]
  exact sum_totals_by_key (·.txid) (·.amount) holds.sorted.nodup fun delta member =>
    holds.mem_keys.mpr ⟨delta, member, rfl⟩

end TxidSums

end CoinLedger
