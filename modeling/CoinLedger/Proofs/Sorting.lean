import Mathlib.Data.List.Basic

/-!
# Stable sorting

An index holds its items in an order, and items at one place of the order stand as they were written
down (`IndexOf`).  The sort of an index does that (`indexOf_mergeSort`), and what is picked from an
index is sorted in the same way (`IndexOf.filter`).

A condition that holds on a first part of a list cuts the list in two: the items in front are those
that meet the condition, and the others follow (`takeWhile_eq_filter`, `dropWhile_eq_filter`).
-/

set_option autoImplicit false

namespace CoinLedger

open Std

variable {α : Type}

section Index

variable {β : Type} [DecidableEq β] {upTo : α → α → Prop} {place : α → β}

/-- The index of items that are written down: the same items in order, those at one place as they
are written. -/
structure IndexOf (upTo : α → α → Prop) (place : α → β) (written index : List α) : Prop where
  permuted : index.Perm written
  ordered : index.Pairwise upTo
  stable : ∀ item, index.filter (fun other => place other = place item) =
    written.filter fun other => place other = place item

/-- **The sort of an index sorts stably**, when its comparison tells what comes up to what and what
stands at one place. -/
theorem indexOf_mergeSort {order : α → α → Ordering} [TransCmp order]
    (isLE_iff : ∀ left right, (order left right).isLE = true ↔ upTo left right)
    (eq_iff : ∀ left right, order left right = .eq ↔ place right = place left)
    (items : List α) :
    IndexOf upTo place items (items.mergeSort fun left right => (order left right).isLE) := by
  have trans : ∀ first second third : α, (order first second).isLE = true →
      (order second third).isLE = true → (order first third).isLE = true :=
    fun _ _ _ => TransCmp.isLE_trans
  have total : ∀ first second : α,
      ((order first second).isLE || (order second first).isLE) = true := by
    intro first second
    rw [show order second first = (order first second).swap from OrientedCmp.eq_swap]
    cases order first second <;> rfl
  have ordered := (List.pairwise_mergeSort trans total items).imp (isLE_iff _ _).mp
  refine ⟨List.mergeSort_perm _ _, ordered, fun item => ?_⟩
  -- The items of one place are sorted as they stand, so the sort keeps them as they stand.
  have level : (items.filter fun other => place other = place item).Pairwise
      fun earlier later => (order earlier later).isLE = true := by
    refine List.pairwise_of_forall_mem_list fun earlier first later second => ?_
    have early : order item earlier = .eq :=
      (eq_iff _ _).mpr (of_decide_eq_true (List.mem_filter.mp first).2)
    have late : order item later = .eq :=
      (eq_iff _ _).mpr (of_decide_eq_true (List.mem_filter.mp second).2)
    rw [TransCmp.eq_trans (OrientedCmp.eq_symm early) late]
    rfl
  have kept := (List.sublist_mergeSort trans total level List.filter_sublist).filter
    fun other => place other = place item
  rw [List.filter_filter] at kept
  simp only [Bool.and_self] at kept
  exact (kept.eq_of_length ((List.mergeSort_perm items _).filter _).length_eq.symm).symm

theorem IndexOf.filter {written index : List α} (indexes : IndexOf upTo place written index)
    (keeps : α → Bool) : IndexOf upTo place (written.filter keeps) (index.filter keeps) where
  permuted := indexes.permuted.filter keeps
  ordered := indexes.ordered.filter keeps
  stable item := by
    rw [List.filter_comm, indexes.stable, List.filter_comm]

end Index

/-! ## First parts -/

section FirstPart

variable {holds : α → Bool}

theorem takeWhile_eq_filter {items : List α}
    (first : items.Pairwise fun earlier later => holds later = true → holds earlier = true) :
    items.takeWhile holds = items.filter holds := by
  induction items with
  | nil => rfl
  | cons item rest ih =>
      obtain ⟨front, first⟩ := List.pairwise_cons.mp first
      by_cases here : holds item = true
      · simp [here, ih first]
      · have none : ∀ other ∈ rest, ¬ holds other = true := fun other member there =>
          here (front other member there)
        simpa [here] using none

theorem dropWhile_eq_filter {items : List α}
    (first : items.Pairwise fun earlier later => holds later = true → holds earlier = true) :
    items.dropWhile holds = items.filter fun item => !holds item := by
  induction items with
  | nil => rfl
  | cons item rest ih =>
      obtain ⟨front, first⟩ := List.pairwise_cons.mp first
      by_cases here : holds item = true
      · simp [here, ih first]
      · have none : ∀ other ∈ rest, ¬ holds other = true := fun other member there =>
          here (front other member there)
        have all : rest.filter (fun other => !holds other) = rest :=
          List.filter_eq_self.mpr fun other member => by simpa using none other member
        simp [here, all]

end FirstPart

end CoinLedger
