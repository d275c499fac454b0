import CoinLedger.Proofs.Amount
import CoinLedger.Proofs.Selection.Fee
import CoinLedger.Selection.Solution
import Mathlib.Algebra.Order.BigOperators.Group.List
import Mathlib.Algebra.Order.Ring.Int
import Mathlib.Data.List.Nodup
import Mathlib.Data.List.Perm.Subperm

/-!
# Payments in exact numbers

A list of outputs pays an amount when it is not empty and its exact total is at least the amount and
the fee for as many inputs.  A payment from given outputs is such a list of distinct ones among
them.  The sums along a list are exact when the total of every first part of it and the charge for
as many inputs are amounts (`ExactSums`), and its numbers are exact when moreover 64 bits hold the
size of the transaction and, where a first part pays, the change is an amount (`ExactNumbers`).  The
numbers among given outputs are exact when this holds of every list of distinct ones.
-/

set_option autoImplicit false

namespace CoinLedger

namespace UnspentOutput

/-- The exact sum of the amounts. -/
def worth (outputs : List UnspentOutput) : Int :=
  (outputs.map fun output => output.amount.toInt).sum

@[simp] theorem worth_nil : worth [] = 0 := rfl

@[simp] theorem worth_append (left right : List UnspentOutput) :
    worth (left ++ right) = worth left + worth right := by
  simp [worth]

@[simp] theorem worth_singleton (output : UnspentOutput) :
    worth [output] = output.amount.toInt := by
  simp [worth]

/-- No output is listed twice. -/
def Distinct (outputs : List UnspentOutput) : Prop :=
  (outputs.map outpoint).Nodup

instance (outputs : List UnspentOutput) : Decidable (Distinct outputs) :=
  inferInstanceAs (Decidable (List.Nodup _))

theorem Distinct.nodup {outputs : List UnspentOutput} (distinct : Distinct outputs) :
    outputs.Nodup :=
  List.Nodup.of_map outpoint distinct

theorem Distinct.sublist {part outputs : List UnspentOutput} (distinct : Distinct outputs)
    (sublist : part.Sublist outputs) : Distinct part :=
  List.Nodup.sublist (sublist.map outpoint) distinct

/-- Distinct outputs are no more than those that they are chosen from. -/
theorem Distinct.length_le {chosen outputs : List UnspentOutput} (distinct : Distinct chosen)
    (subset : chosen ⊆ outputs) : chosen.length ≤ outputs.length :=
  (List.subperm_of_subset distinct.nodup subset).length_le

/-- Entries of one output are one entry. -/
def Consistent (outputs : List UnspentOutput) : Prop :=
  ∀ left ∈ outputs, ∀ right ∈ outputs, left.outpoint = right.outpoint → left = right

theorem Consistent.subset {part outputs : List UnspentOutput} (consistent : Consistent outputs)
    (subset : part ⊆ outputs) : Consistent part :=
  fun left first right second => consistent left (subset first) right (subset second)

theorem Distinct.consistent {outputs : List UnspentOutput} (distinct : Distinct outputs) :
    Consistent outputs :=
  fun _ first _ second => List.inj_on_of_nodup_map distinct first second

end UnspentOutput

open UnspentOutput

/-- The outputs are worth the amount and the fee for spending them. -/
def Pays (schedule : FeeSchedule) (amount : Int64) (outputs : List UnspentOutput) : Prop :=
  outputs ≠ [] ∧
    amount.toInt + (schedule.feeForInputs outputs.length).toInt ≤ worth outputs

instance (schedule : FeeSchedule) (amount : Int64) (outputs : List UnspentOutput) :
    Decidable (Pays schedule amount outputs) :=
  inferInstanceAs (Decidable (_ ∧ _))

/-- Distinct ones of the usable outputs that pay the amount. -/
structure Payment (schedule : FeeSchedule) (amount : Int64) (usable chosen : List UnspentOutput) :
    Prop where
  distinct : Distinct chosen
  usable : chosen ⊆ usable
  pays : Pays schedule amount chosen

theorem Payment.mono {schedule : FeeSchedule} {amount : Int64}
    {usable more chosen : List UnspentOutput} (payment : Payment schedule amount usable chosen)
    (subset : usable ⊆ more) : Payment schedule amount more chosen :=
  ⟨payment.distinct, List.Subset.trans payment.usable subset, payment.pays⟩

/-- The sum of the outputs and that of the amount and the fee for them are amounts. -/
structure ExactSums (schedule : FeeSchedule) (amount : Int64) (outputs : List UnspentOutput) :
    Prop where
  total : Amount.InRange (worth outputs)
  charge : outputs ≠ [] →
    Amount.InRange (amount.toInt + (schedule.feeForInputs outputs.length).toInt)

/-- No number that is formed for a set of outputs leaves its range.  The change is told where the
outputs pay, before and after the fee. -/
structure ExactNumbers (schedule : FeeSchedule) (amount : Int64) (outputs : List UnspentOutput) :
    Prop extends ExactSums schedule amount outputs where
  size : outputs ≠ [] → schedule.sizeFits outputs.length = true
  change : Pays schedule amount outputs →
    Amount.InRange (worth outputs - amount.toInt) ∧
      Amount.InRange
        (worth outputs - amount.toInt - (schedule.feeForInputs outputs.length).toInt)

/-- No sum that is formed on the way along the outputs leaves its range. -/
def SumsAlong (schedule : FeeSchedule) (amount : Int64) (outputs : List UnspentOutput) : Prop :=
  ∀ part, part <+: outputs → ExactSums schedule amount part

/-- No number that is formed on the way along the outputs leaves its range. -/
def ExactAlong (schedule : FeeSchedule) (amount : Int64) (outputs : List UnspentOutput) : Prop :=
  ∀ part, part <+: outputs → ExactNumbers schedule amount part

/-- No number that is formed for distinct ones of the outputs leaves its range. -/
def ExactAmong (schedule : FeeSchedule) (amount : Int64) (outputs : List UnspentOutput) : Prop :=
  ∀ chosen ⊆ outputs, Distinct chosen → ExactNumbers schedule amount chosen

section Exact

variable {schedule : FeeSchedule} {amount : Int64}

theorem SumsAlong.of_leading {part outputs : List UnspentOutput}
    (sums : SumsAlong schedule amount outputs) (first : part <+: outputs) :
    SumsAlong schedule amount part :=
  fun shorter member => sums shorter (member.trans first)

theorem ExactAlong.sums {outputs : List UnspentOutput}
    (exact : ExactAlong schedule amount outputs) :
    SumsAlong schedule amount outputs :=
  fun part first => (exact part first).toExactSums

theorem ExactAlong.of_leading {part outputs : List UnspentOutput}
    (exact : ExactAlong schedule amount outputs) (first : part <+: outputs) :
    ExactAlong schedule amount part :=
  fun shorter member => exact shorter (member.trans first)

theorem ExactAmong.along {chosen outputs : List UnspentOutput}
    (exact : ExactAmong schedule amount outputs) (subset : chosen ⊆ outputs)
    (distinct : Distinct chosen) : ExactAlong schedule amount chosen :=
  fun part first =>
    exact part (List.Subset.trans first.subset subset) (distinct.sublist first.sublist)

theorem ExactAmong.subset {part outputs : List UnspentOutput}
    (exact : ExactAmong schedule amount outputs) (subset : part ⊆ outputs) :
    ExactAmong schedule amount part :=
  fun chosen within => exact chosen (List.Subset.trans within subset)

/-- Distinct ones of outputs that lower no sum are worth no more than all of them. -/
theorem UnspentOutput.worth_le_worth {chosen outputs : List UnspentOutput}
    (nonneg : ∀ output ∈ outputs, 0 ≤ output.amount.toInt) (subset : chosen ⊆ outputs)
    (distinct : Distinct chosen) : worth chosen ≤ worth outputs := by
  obtain ⟨sorted, permuted, sublist⟩ := List.subperm_of_subset distinct.nodup subset
  calc worth chosen = worth sorted := (permuted.map _).sum_eq.symm
    _ ≤ worth outputs := by
        refine (sublist.map _).sum_le_sum fun value member => ?_
        obtain ⟨output, listed, rfl⟩ := List.mem_map.mp member
        exact nonneg output listed

/-- Outputs that lower no sum have no payment when all of them are worth less than the amount with
any charge for as many inputs or fewer. -/
theorem not_payment_of_worth_lt {outputs : List UnspentOutput}
    (nonneg : ∀ output ∈ outputs, 0 ≤ output.amount.toInt)
    (short : ∀ count ≤ outputs.length,
      worth outputs < amount.toInt + (schedule.feeForInputs count).toInt) :
    ¬ ∃ chosen, Payment schedule amount outputs chosen := by
  rintro ⟨chosen, distinct, usable, _, pays⟩
  have less := short chosen.length (distinct.length_le usable)
  exact absurd (pays.trans (worth_le_worth nonneg usable distinct)) (Int.not_le.mpr less)

/-- Numbers for outputs that lower no sum are exact as soon as the largest ones are, and no fee is
negative. -/
theorem ExactAmong.of_nonneg {outputs : List UnspentOutput}
    (nonneg : ∀ output ∈ outputs, 0 ≤ output.amount.toInt) (requested : 0 ≤ amount.toInt)
    (most : worth outputs ≤ Int64.maxValue.toInt)
    (size : schedule.sizeFits outputs.length = true)
    (charges : ∀ count ≤ outputs.length, 0 ≤ (schedule.feeForInputs count).toInt ∧
      amount.toInt + (schedule.feeForInputs count).toInt ≤ Int64.maxValue.toInt) :
    ExactAmong schedule amount outputs := by
  intro chosen subset distinct
  have fewer := distinct.length_le subset
  have below := (worth_le_worth nonneg subset distinct).trans most
  have positive : 0 ≤ worth chosen := List.sum_nonneg fun value member => by
    obtain ⟨output, listed, rfl⟩ := List.mem_map.mp member
    exact nonneg output (subset listed)
  obtain ⟨fee, charge⟩ := charges chosen.length fewer
  have inRange : ∀ {value : Int}, 0 ≤ value → value ≤ Int64.maxValue.toInt →
      Amount.InRange value := fun least greatest => ⟨Int.le_trans (by decide) least, greatest⟩
  refine ⟨⟨inRange positive below, fun _ => inRange (by omega) charge⟩,
    fun _ => FeeSchedule.sizeFits_of_le fewer size, fun pays => ?_⟩
  have paid := pays.2
  exact ⟨inRange (by omega) (by omega), inRange (by omega) (by omega)⟩

end Exact

end CoinLedger
