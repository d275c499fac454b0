import CoinLedger.Proofs.Order
import CoinLedger.Proofs.Selection.Payment
import CoinLedger.Selection.Policy
import Mathlib.Algebra.Order.BigOperators.Group.Finset
import Mathlib.Algebra.Order.Ring.Int
import Mathlib.Data.Finset.Max

/-!
# The pool of a minimal selection

The pool is sorted with the largest output first and holds no output twice (`mergePool_inOrder`,
`distinct_mergePool`).  It holds the largest of the outputs that were seen, up to a count, when
every output that it lacks is no larger than each of its first ones up to the count.  Then no choice
of so many seen outputs is worth more than as many from the front of the pool
(`worth_le_worth_take`): that is why a walk along the pool finds the smallest payment.
-/

set_option autoImplicit false

namespace CoinLedger

open Std

namespace UnspentOutput

/-! ## The order of the pool -/

instance : TransCmp largestFirst :=
  have amounts : TransCmp (compareOn amount) := inferInstance
  have : TransCmp fun left right : UnspentOutput => compare right.amount left.amount :=
    amounts.opposite
  inferInstanceAs (TransCmp (compareLex _ _))

/-- The outputs stand with the largest one first. -/
def InOrder (outputs : List UnspentOutput) : Prop :=
  outputs.Pairwise fun left right => (largestFirst left right).isLE = true

theorem inOrder_mergeSort (outputs : List UnspentOutput) :
    InOrder (outputs.mergeSort fun left right => (largestFirst left right).isLE) := by
  refine List.pairwise_mergeSort (fun _ _ _ => TransCmp.isLE_trans) ?_ outputs
  intro left right
  rw [show largestFirst right left = (largestFirst left right).swap from OrientedCmp.eq_swap]
  cases largestFirst left right <;> rfl

theorem amount_le_of_isLE {left right : UnspentOutput}
    (ordered : (largestFirst left right).isLE = true) : right.amount.toInt ≤ left.amount.toInt := by
  have first : (compare right.amount left.amount).isLE = true :=
    Ordering.isLE_left_of_isLE_then ordered
  exact Int64.le_iff_toInt_le.mp (isLE_compare.mp first)

theorem outpoint_eq_of_eq {left right : UnspentOutput} (equal : largestFirst left right = .eq) :
    left.outpoint = right.outpoint :=
  LawfulEqOrd.eq_of_compare (Ordering.then_eq_eq.mp equal).2

/-! ## Repeats -/

theorem dropRepeats_cons_cases (output : UnspentOutput) (rest : List UnspentOutput) :
    (dropRepeats rest = [] ∧ dropRepeats (output :: rest) = [output]) ∨
      ∃ next others, dropRepeats rest = next :: others ∧
        ((output.outpoint = next.outpoint ∧ dropRepeats (output :: rest) = output :: others) ∨
          (output.outpoint ≠ next.outpoint ∧
            dropRepeats (output :: rest) = output :: next :: others)) := by
  rw [dropRepeats]
  cases dropRepeats rest with
  | nil => exact .inl ⟨rfl, rfl⟩
  | cons next others =>
      refine .inr ⟨next, others, rfl, ?_⟩
      by_cases same : output.outpoint = next.outpoint
      · exact .inl ⟨same, if_pos same⟩
      · exact .inr ⟨same, if_neg same⟩

theorem dropRepeats_sublist (outputs : List UnspentOutput) :
    (dropRepeats outputs).Sublist outputs := by
  induction outputs with
  | nil => exact List.Sublist.refl _
  | cons output rest ih =>
      rcases dropRepeats_cons_cases output rest with
        ⟨_, kept⟩ | ⟨next, others, tail, ⟨_, kept⟩ | ⟨_, kept⟩⟩
      · rw [kept]
        exact List.singleton_sublist.mpr List.mem_cons_self
      · rw [tail] at ih
        rw [kept]
        exact ((List.sublist_cons_self next others).trans ih).cons_cons output
      · rw [tail] at ih
        rw [kept]
        exact ih.cons_cons output

/-- An output that is dropped is still there once. -/
theorem exists_mem_dropRepeats {outputs : List UnspentOutput} {output : UnspentOutput}
    (member : output ∈ outputs) :
    ∃ kept ∈ dropRepeats outputs, kept.outpoint = output.outpoint := by
  induction outputs with
  | nil => cases member
  | cons first rest ih =>
      rcases dropRepeats_cons_cases first rest with
        ⟨empty, kept⟩ | ⟨next, others, tail, ⟨same, kept⟩ | ⟨_, kept⟩⟩
      all_goals
        rw [kept]
        rcases List.mem_cons.mp member with rfl | member
        · exact ⟨output, List.mem_cons_self, rfl⟩
        obtain ⟨found, inside, equal⟩ := ih member
      · rw [empty] at inside
        cases inside
      · rw [tail] at inside
        rcases List.mem_cons.mp inside with rfl | inside
        · exact ⟨first, List.mem_cons_self, same.trans equal⟩
        · exact ⟨found, List.mem_cons_of_mem _ inside, equal⟩
      · rw [tail] at inside
        exact ⟨found, List.mem_cons_of_mem _ inside, equal⟩

/-- Among entries that are the same for the same output, sorting puts the repeats side by side. -/
theorem distinct_dropRepeats {outputs : List UnspentOutput} (ordered : InOrder outputs)
    (consistent : Consistent outputs) : Distinct (dropRepeats outputs) := by
  induction outputs with
  | nil => exact List.nodup_nil
  | cons output rest ih =>
      obtain ⟨before, orderedRest⟩ := List.pairwise_cons.mp ordered
      have later := ih orderedRest (consistent.subset (List.subset_cons_self output rest))
      have sublist := dropRepeats_sublist rest
      rcases dropRepeats_cons_cases output rest with
        ⟨_, kept⟩ | ⟨next, others, tail, ⟨same, kept⟩ | ⟨different, kept⟩⟩
      · rw [kept]
        exact List.nodup_singleton _
      · rw [tail] at later
        rw [kept, Distinct, List.map_cons, same]
        exact later
      · rw [tail] at later sublist
        rw [kept, Distinct, List.map_cons]
        refine List.nodup_cons.mpr ⟨fun listed => ?_, later⟩
        obtain ⟨found, member, equal⟩ := List.mem_map.mp listed
        rcases List.mem_cons.mp member with rfl | member
        · exact different equal.symm
        -- the repeat stands behind `next`, so `next` compares equal to it
        have inside := sublist.subset (List.mem_cons_of_mem next member)
        obtain rfl : found = output :=
          consistent found (List.mem_cons_of_mem _ inside) output List.mem_cons_self equal
        have forth := before next (sublist.subset List.mem_cons_self)
        have back := (List.pairwise_cons.mp (orderedRest.sublist sublist)).1 found member
        exact different (outpoint_eq_of_eq (OrientedCmp.isLE_antisymm forth back))

end UnspentOutput

open UnspentOutput

/-! ## Merging a slice into the pool -/

namespace Policy

theorem mergePool_inOrder (pool fresh : List UnspentOutput) : InOrder (mergePool pool fresh) :=
  List.Pairwise.sublist (dropRepeats_sublist _) (inOrder_mergeSort _)

theorem mergePool_subset (pool fresh : List UnspentOutput) :
    mergePool pool fresh ⊆ pool ++ fresh := fun _ member =>
  List.mem_mergeSort.mp ((dropRepeats_sublist _).subset member)

variable {pool fresh : List UnspentOutput}

theorem mem_mergePool (consistent : Consistent (pool ++ fresh)) {output : UnspentOutput}
    (member : output ∈ pool ++ fresh) : output ∈ mergePool pool fresh := by
  obtain ⟨kept, inside, equal⟩ := exists_mem_dropRepeats (List.mem_mergeSort.mpr member)
  obtain rfl : kept = output :=
    consistent kept (mergePool_subset pool fresh inside) output member equal
  exact inside

theorem distinct_mergePool (consistent : Consistent (pool ++ fresh)) :
    Distinct (mergePool pool fresh) :=
  distinct_dropRepeats (inOrder_mergeSort _) (consistent.subset fun _ => List.mem_mergeSort.mp)

end Policy

/-! ## The largest outputs -/

/-- Every seen output is in the pool or no larger than each of the first ones up to the count. -/
def HoldsLargest (count : Nat) (pool seen : List UnspentOutput) : Prop :=
  ∀ output ∈ seen, output ∈ pool ∨
    count ≤ pool.length ∧ ∀ first ∈ pool.take count, output.amount.toInt ≤ first.amount.toInt

theorem HoldsLargest.of_subset {pool seen : List UnspentOutput} (subset : seen ⊆ pool)
    (count : Nat) : HoldsLargest count pool seen :=
  fun _ member => .inl (subset member)

/-- Cutting an ordered pool off behind the count loses none of the largest outputs. -/
theorem HoldsLargest.take {count length : Nat} {pool seen : List UnspentOutput}
    (holds : HoldsLargest count pool seen) (ordered : InOrder pool) (most : count ≤ length) :
    HoldsLargest count (pool.take length) seen := by
  intro output member
  rw [List.take_take, Nat.min_eq_left most, List.length_take]
  rcases holds output member with pooled | ⟨enough, below⟩
  · have split := ordered
    rw [InOrder, ← List.take_append_drop length pool] at split
    rw [← List.take_append_drop length pool] at pooled
    rcases List.mem_append.mp pooled with kept | behind
    · exact .inl kept
    · have long : length < pool.length := by
        have := List.length_pos_of_mem behind
        rw [List.length_drop] at this
        omega
      refine .inr ⟨by omega, fun first inside => ?_⟩
      have front := List.take_subset_take_left pool most inside
      exact amount_le_of_isLE ((List.pairwise_append.mp split).2.2 first front output behind)
  · exact .inr ⟨Nat.le_min.mpr ⟨most, enough⟩, below⟩

/-- Merging a slice into a pool adds its outputs to those that were seen. -/
theorem HoldsLargest.merge {count : Nat} {pool fresh seen : List UnspentOutput}
    (holds : HoldsLargest count pool seen) (distinct : Distinct pool)
    (consistent : Consistent (pool ++ fresh)) :
    HoldsLargest count (Policy.mergePool pool fresh) (seen ++ fresh) := by
  intro output member
  rcases List.mem_append.mp member with old | new
  · rcases holds output old with pooled | ⟨enough, below⟩
    · exact .inl (Policy.mem_mergePool consistent (List.mem_append_left _ pooled))
    · have merged : pool.take count ⊆ Policy.mergePool pool fresh := fun first inside =>
        Policy.mem_mergePool consistent (List.mem_append_left _ (List.mem_of_mem_take inside))
      have once := (distinct.sublist (List.take_sublist count pool))
      have length := List.length_take_of_le enough
      refine .inr ⟨length ▸ once.length_le merged, fun first inside => ?_⟩
      -- were `first` smaller, the `count` larger ones would all stand in front of it
      by_contra smaller
      obtain ⟨position, before, rfl⟩ := List.getElem_of_mem inside
      rw [List.length_take] at before
      rw [List.getElem_take] at smaller
      have front : pool.take count ⊆ (Policy.mergePool pool fresh).take position := by
        intro larger listed
        have found := merged listed
        rw [← List.take_append_drop position (Policy.mergePool pool fresh)] at found
        refine (List.mem_append.mp found).resolve_right fun behind => ?_
        have tail := (Policy.mergePool_inOrder pool fresh).sublist (List.drop_sublist position _)
        rw [List.drop_eq_getElem_cons (by omega)] at behind tail
        rcases List.mem_cons.mp behind with rfl | behind
        · exact smaller (below _ listed)
        · exact smaller ((below larger listed).trans
            (amount_le_of_isLE ((List.pairwise_cons.mp tail).1 larger behind)))
      have := once.length_le front
      rw [length, List.length_take] at this
      omega
  · exact .inl (Policy.mem_mergePool consistent (List.mem_append_right _ new))

/-- Of two choices of equally many outputs the one is worth no more than the other when exchanging
outputs of the one for outputs of the other never loses. -/
theorem worth_le_of_exchange {chosen other : List UnspentOutput} (chosenOnce : chosen.Nodup)
    (otherOnce : other.Nodup) (lengths : chosen.length = other.length)
    (exchange : ∀ left ∈ chosen, left ∉ other → ∀ right ∈ other, right ∉ chosen →
      left.amount.toInt ≤ right.amount.toInt) :
    worth chosen ≤ worth other := by
  rw [worth, worth, ← List.sum_toFinset _ chosenOnce, ← List.sum_toFinset _ otherOnce,
    ← Finset.sum_sdiff_le_sum_sdiff]
  have cards : (chosen.toFinset \ other.toFinset).card =
      (other.toFinset \ chosen.toFinset).card := by
    rw [Finset.card_sdiff_comm]
    rw [List.toFinset_card_of_nodup chosenOnce, List.toFinset_card_of_nodup otherOnce, lengths]
  rcases (other.toFinset \ chosen.toFinset).eq_empty_or_nonempty with empty | nonempty
  · rw [empty, Finset.card_empty, Finset.card_eq_zero] at cards
    rw [empty, cards]
  · obtain ⟨least, member, below⟩ :=
      Finset.exists_min_image _ (fun output => output.amount.toInt) nonempty
    rw [Finset.mem_sdiff, List.mem_toFinset, List.mem_toFinset] at member
    calc ∑ output ∈ chosen.toFinset \ other.toFinset, output.amount.toInt
        ≤ (chosen.toFinset \ other.toFinset).card • least.amount.toInt := by
          refine Finset.sum_le_card_nsmul _ _ _ fun left inside => ?_
          rw [Finset.mem_sdiff, List.mem_toFinset, List.mem_toFinset] at inside
          exact exchange left inside.1 inside.2 least member.1 member.2
      _ = (other.toFinset \ chosen.toFinset).card • least.amount.toInt := by rw [cards]
      _ ≤ ∑ output ∈ other.toFinset \ chosen.toFinset, output.amount.toInt :=
          Finset.card_nsmul_le_sum _ _ _ below

/-- **The front of a pool with the largest outputs is worth most.** -/
theorem worth_le_worth_take {count : Nat} {pool seen chosen : List UnspentOutput}
    (ordered : InOrder pool) (distinctPool : Distinct pool) (holds : HoldsLargest count pool seen)
    (subset : chosen ⊆ seen) (distinct : Distinct chosen) (most : chosen.length ≤ count) :
    chosen.length ≤ pool.length ∧ worth chosen ≤ worth (pool.take chosen.length) := by
  have enough : chosen.length ≤ pool.length := by
    by_cases inside : chosen ⊆ pool
    · exact distinct.length_le inside
    · simp only [List.subset_def, not_forall] at inside
      obtain ⟨output, member, outside⟩ := inside
      exact most.trans ((holds output (subset member)).resolve_left outside).1
  refine ⟨enough, worth_le_of_exchange distinct.nodup
    (distinctPool.sublist (List.take_sublist _ _)).nodup (List.length_take_of_le enough).symm ?_⟩
  intro left member outside right inside _
  rcases holds left (subset member) with pooled | ⟨_, below⟩
  · rw [← List.take_append_drop chosen.length pool] at pooled
    have behind := (List.mem_append.mp pooled).resolve_left outside
    have split := ordered
    rw [InOrder, ← List.take_append_drop chosen.length pool] at split
    exact amount_le_of_isLE ((List.pairwise_append.mp split).2.2 right inside left behind)
  · exact below right (List.take_subset_take_left _ most inside)

end CoinLedger
