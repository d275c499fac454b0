import CoinLedger.Proofs.Amount
import Mathlib.Algebra.BigOperators.Group.Finset.Basic
import Mathlib.Algebra.BigOperators.Group.Finset.Piecewise
import Mathlib.Algebra.BigOperators.Group.List.Basic
import Mathlib.Algebra.GroupWithZero.Nat
import Mathlib.Algebra.Order.BigOperators.Group.List
import Mathlib.Algebra.Order.Group.Nat
import Mathlib.Algebra.Ring.Int.Defs

/-!
# Exact totals

The total of some amounts is their sum in whole numbers.  Amounts that are added up one after the
other come to their total as long as every sum on the way is an amount (`SumsInRange`).  Totals of
groups add up to the total of all items, however the items are grouped by a key
(`sum_totals_by_key`).
-/

set_option autoImplicit false

namespace CoinLedger.Amount

/-- The exact sum of amounts. -/
def total (amounts : List Int64) : Int :=
  (amounts.map Int64.toInt).sum

@[simp] theorem total_nil : total [] = 0 := rfl

@[simp] theorem total_cons (amount : Int64) (amounts : List Int64) :
    total (amount :: amounts) = amount.toInt + total amounts := rfl

@[simp] theorem total_append (left right : List Int64) :
    total (left ++ right) = total left + total right := by
  simp [total]

theorem total_perm {left right : List Int64} (permuted : left.Perm right) :
    total left = total right :=
  (permuted.map _).sum_eq

theorem total_nonneg {amounts : List Int64} (each : ∀ amount ∈ amounts, 0 ≤ amount) :
    0 ≤ total amounts := by
  induction amounts with
  | nil => exact Int.le_refl 0
  | cons amount rest ih =>
      have first : 0 ≤ amount.toInt := Int64.le_iff_toInt_le.mp (each amount List.mem_cons_self)
      have later := ih fun other member => each other (List.mem_cons_of_mem _ member)
      rw [total_cons]
      omega

/-- Some of the amounts come to no more than all of them when none is negative. -/
theorem total_le_of_sublist {part whole : List Int64} (sublist : part.Sublist whole)
    (each : ∀ amount ∈ whole, 0 ≤ amount) : total part ≤ total whole := by
  refine (sublist.map _).sum_le_sum fun value member => ?_
  obtain ⟨amount, listed, rfl⟩ := List.mem_map.mp member
  exact Int64.le_iff_toInt_le.mp (each amount listed)

theorem natAbs_total_le (amounts : List Int64) :
    (total amounts).natAbs ≤ (amounts.map fun amount => amount.toInt.natAbs).sum := by
  induction amounts with
  | nil => exact Nat.le_refl 0
  | cons amount rest ih =>
      exact (Int.natAbs_add_le _ _).trans (Nat.add_le_add_left ih amount.toInt.natAbs)

/-! ## Sums on the way -/

/-- Every sum on the way from a start through the amounts, one after the other, is an amount. -/
def SumsInRange (start : Int) (amounts : List Int64) : Prop :=
  ∀ front, front <+: amounts → InRange (start + total front)

namespace SumsInRange

variable {start : Int} {amount : Int64} {amounts rest : List Int64}

theorem start_inRange (fits : SumsInRange start amounts) : InRange start := by
  have first := fits [] List.nil_prefix
  rwa [total_nil, Int.add_zero] at first

theorem total_inRange (fits : SumsInRange start amounts) : InRange (start + total amounts) :=
  fits amounts List.prefix_rfl

theorem tail (fits : SumsInRange start (amount :: rest)) :
    SumsInRange (start + amount.toInt) rest := by
  intro front leads
  have longer := fits (amount :: front) (List.cons_prefix_cons.mpr ⟨rfl, leads⟩)
  rwa [total_cons, ← Int.add_assoc] at longer

theorem of_leading {front : List Int64} (fits : SumsInRange start amounts)
    (leads : front <+: amounts) : SumsInRange start front :=
  fun part first => fits part (first.trans leads)

/-- All sums on the way through some of the amounts are amounts when even the sizes of all of them
add up to one. -/
theorem of_small {part : List Int64} (sublist : part.Sublist amounts)
    (small : (amounts.map fun amount => amount.toInt.natAbs).sum < 2 ^ 63) :
    SumsInRange 0 part := by
  intro front leads
  have least : Int64.minValue.toInt = -2 ^ 63 := by decide
  have greatest : Int64.maxValue.toInt = 2 ^ 63 - 1 := by decide
  have bound := (natAbs_total_le front).trans
    (((leads.sublist.trans sublist).map fun amount => amount.toInt.natAbs).sum_le_sum
      fun _ _ => Nat.zero_le _)
  rw [InRange, least, greatest]
  omega

/-- Behind the first amounts the sums on the way start from their total. -/
theorem drop {front : List Int64} (fits : SumsInRange start (front ++ rest)) :
    SumsInRange (start + total front) rest := by
  induction front generalizing start with
  | nil => simpa using fits
  | cons amount front ih =>
      rw [total_cons, ← Int.add_assoc]
      exact ih fits.tail

/-- One more amount adds one more sum. -/
theorem concat_iff : SumsInRange start (amounts ++ [amount]) ↔
    SumsInRange start amounts ∧ InRange (start + total (amounts ++ [amount])) := by
  constructor
  · intro fits
    exact ⟨fits.of_leading (List.prefix_append _ _), fits.total_inRange⟩
  · rintro ⟨before, last⟩ front leads
    rcases List.prefix_concat_iff.mp leads with rfl | first
    · exact last
    · exact before front first

end SumsInRange

/-- The total of some of the amounts is an amount when even the sizes of all of them add up to one.
-/
theorem inRange_total_of_sublist {part whole : List Int64} (sublist : part.Sublist whole)
    (small : (whole.map fun amount => amount.toInt.natAbs).sum < 2 ^ 63) :
    InRange (total part) := by
  have last := (SumsInRange.of_small sublist small).total_inRange
  rwa [Int.zero_add] at last

instance (start : Int) (amounts : List Int64) : Decidable (SumsInRange start amounts) :=
  decidable_of_iff (∀ front ∈ amounts.inits, InRange (start + total front)) <| by
    simp only [List.mem_inits, SumsInRange]

theorem pos_ofInt_iff {value : Int} (fits : InRange value) : 0 < Int64.ofInt value ↔ 0 < value := by
  rw [Int64.lt_iff_toInt_lt, toInt_ofInt_of_inRange fits]
  rfl

section Items

variable {α β κ : Type}

theorem total_flatMap (amounts : α → List Int64) (items : List α) :
    total (items.flatMap amounts) = (items.map fun item => total (amounts item)).sum := by
  induction items with
  | nil => rfl
  | cons item rest ih => simp [ih]

theorem total_filter_add_total_filter_not (counts : α → Bool) (amount : α → Int64)
    (items : List α) :
    total ((items.filter counts).map amount) +
        total ((items.filter fun item => !counts item).map amount) =
      total (items.map amount) := by
  rw [← total_append, ← List.map_append]
  exact total_perm ((List.filter_append_perm counts items).map amount)

/-- The total of a group without items is zero. -/
theorem total_filter_eq_zero [DecidableEq κ] {key : α → κ} {items : List α} {group : κ}
    (absent : group ∉ items.map key) (amount : α → Int64) :
    total ((items.filter (key · = group)).map amount) = 0 := by
  have none : items.filter (key · = group) = [] :=
    List.filter_eq_nil_iff.mpr fun item member same =>
      absent (of_decide_eq_true same ▸ List.mem_map_of_mem member)
  rw [none]
  rfl

/-- **The totals of the groups of a key add up to the total of all items**, when every key that
occurs is listed once. -/
theorem sum_totals_by_key [DecidableEq κ] (key : α → κ) (amount : α → Int64) {keys : List κ}
    (distinct : keys.Nodup) {items : List α} (covered : ∀ item ∈ items, key item ∈ keys) :
    (keys.map fun group => total ((items.filter (key · = group)).map amount)).sum =
      total (items.map amount) := by
  induction items with
  | nil => simp
  | cons item rest ih =>
      have later := ih fun other member => covered other (List.mem_cons_of_mem _ member)
      -- The first item counts in the group of its own key alone.
      have split : ∀ group,
          total (((item :: rest).filter (key · = group)).map amount) =
            (if key item = group then (amount item).toInt else 0) +
              total ((rest.filter (key · = group)).map amount) := by
        intro group
        by_cases own : key item = group <;> simp [own]
      have once : (keys.map fun group => if key item = group then (amount item).toInt else 0).sum =
          (amount item).toInt := by
        rw [← List.sum_toFinset _ distinct, Finset.sum_ite_eq,
          if_pos (List.mem_toFinset.mpr (covered item List.mem_cons_self))]
      simp only [split, List.sum_map_add, once, later, List.map_cons, total_cons]

end Items

end CoinLedger.Amount
