import Mathlib.Algebra.BigOperators.Group.Finset.Basic
import Mathlib.Algebra.Ring.Int.Defs

/-!
# Distinct items

The distinct items of a list stand in the order of first appearance.  They are the same ones for
every order of the list (`eraseDups_perm`), and stand the other way round in the reversed list when
equal items are side by side (`eraseDups_reverse`).  A sum over the list is one over its distinct
items, each as often as it occurs (`sum_map_eq_sum_count`).  Equal items of an ordered list are side
by side (`adjacent_of_pairwise`).
-/

set_option autoImplicit false

namespace CoinLedger

variable {α : Type} [DecidableEq α]

theorem nodup_eraseDups (items : List α) : items.eraseDups.Nodup := by
  induction bound : items.length using Nat.strong_induction_on generalizing items with
  | _ length ih =>
      cases items with
      | nil => exact List.nodup_nil
      | cons item rest =>
          rw [List.eraseDups_cons, List.nodup_cons, List.mem_eraseDups]
          refine ⟨by simp, ih _ ?_ _ rfl⟩
          rw [← bound]
          exact Nat.lt_succ_of_le (List.length_filter_le _ rest)

/-- An item behind others is a new one, unless it is among them. -/
theorem eraseDups_concat (items : List α) (item : α) :
    (items ++ [item]).eraseDups = items.eraseDups ++ if item ∈ items then [] else [item] := by
  rw [List.eraseDups_append]
  by_cases known : item ∈ items <;> simp [List.removeAll, List.eraseDups_cons, known]

theorem eraseDups_perm {left right : List α} (permuted : left.Perm right) :
    left.eraseDups.Perm right.eraseDups :=
  (List.perm_ext_iff_of_nodup (nodup_eraseDups left) (nodup_eraseDups right)).mpr fun item => by
    rw [List.mem_eraseDups, List.mem_eraseDups, permuted.mem_iff]

/-- Items that are distinct already all stay. -/
theorem eraseDups_perm_of_nodup {items : List α} (distinct : items.Nodup) :
    items.eraseDups.Perm items :=
  (List.perm_ext_iff_of_nodup (nodup_eraseDups items) distinct).mpr fun _ => List.mem_eraseDups

/-- Equal items stand side by side: an item that stands once more behind another one does so right
behind it. -/
def Adjacent : List α → Prop
  | [] => True
  | item :: rest => (item ∈ rest → rest.head? = some item) ∧ Adjacent rest

instance decidableAdjacent : (items : List α) → Decidable (Adjacent items)
  | [] => isTrue trivial
  | item :: rest =>
    have := decidableAdjacent rest
    inferInstanceAs (Decidable ((item ∈ rest → rest.head? = some item) ∧ Adjacent rest))

omit [DecidableEq α] in
/-- Without its last item a row still has equal items side by side, and a last item that stands in
front of itself does so right in front of itself. -/
theorem Adjacent.of_concat {items : List α} {item : α} (adjacent : Adjacent (items ++ [item])) :
    Adjacent items ∧ (item ∈ items → items.getLast? = some item) := by
  induction items with
  | nil => exact ⟨trivial, nofun⟩
  | cons first rest ih =>
      obtain ⟨next, later⟩ := adjacent
      obtain ⟨tail, last⟩ := ih later
      cases rest with
      | nil =>
          refine ⟨⟨nofun, tail⟩, fun member => ?_⟩
          rw [List.mem_singleton.mp member]
          rfl
      | cons second others =>
          refine ⟨⟨fun again => next (List.mem_append_left _ again), tail⟩, fun member => ?_⟩
          rw [List.getLast?_cons_cons]
          rcases List.mem_cons.mp member with rfl | member
          · have same : some second = some item := next (by simp)
            cases same
            exact last List.mem_cons_self
          · exact last member

omit [DecidableEq α] in
/-- **Equal items of an ordered list stand side by side.** -/
theorem adjacent_of_pairwise {upTo : α → α → Prop}
    (antisymm : ∀ {left right}, upTo left right → upTo right left → left = right) {items : List α}
    (ordered : items.Pairwise upTo) : Adjacent items := by
  induction ordered with
  | nil => trivial
  | @cons item rest before ordered ih =>
      refine ⟨fun again => ?_, ih⟩
      cases rest with
      | nil => cases again
      | cons next others =>
          rcases List.mem_cons.mp again with rfl | behind
          · rfl
          · have after := (List.pairwise_cons.mp ordered).1 item behind
            rw [antisymm after (before next List.mem_cons_self)]
            rfl

/-- An item in front of an equal one adds nothing. -/
theorem eraseDups_cons_cons_self (item : α) (rest : List α) :
    (item :: item :: rest).eraseDups = (item :: rest).eraseDups := by
  rw [List.eraseDups_cons, List.eraseDups_cons, List.filter_cons_of_neg (by simp)]

/-- **Where equal items stand side by side, the first ones against the order are the first ones in
order, turned round.** -/
theorem eraseDups_reverse {items : List α} (adjacent : Adjacent items) :
    items.reverse.eraseDups = items.eraseDups.reverse := by
  induction items with
  | nil => rfl
  | cons item rest ih =>
      obtain ⟨next, later⟩ := adjacent
      rw [List.reverse_cons, eraseDups_concat, ih later]
      by_cases again : item ∈ rest
      · obtain ⟨others, rfl⟩ := List.head?_eq_some_iff.mp (next again)
        rw [if_pos (List.mem_reverse.mpr again), List.append_nil, eraseDups_cons_cons_self]
      · have kept : rest.filter (fun other => !other == item) = rest :=
          List.filter_eq_self.mpr fun other member => by
            simpa using fun same : other = item => again (same ▸ member)
        rw [if_neg (mt List.mem_reverse.mp again), List.eraseDups_cons, kept, List.reverse_cons]

/-- A sum over some items, taken over the distinct ones, each as often as it occurs. -/
theorem sum_map_eq_sum_count (items : List α) (value : α → Int) :
    (items.map value).sum =
      (items.eraseDups.map fun item => items.count item * value item).sum := by
  have same : items.eraseDups.toFinset = items.toFinset := by
    ext item
    simp
  rw [Finset.sum_list_map_count, ← List.sum_toFinset _ (nodup_eraseDups items), same]
  simp

end CoinLedger
