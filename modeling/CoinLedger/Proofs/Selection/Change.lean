import CoinLedger.Proofs.BlockLedger
import CoinLedger.Proofs.Selection.Fee
import CoinLedger.Proofs.Selection.Walk
import CoinLedger.Selection

/-!
# Change at the limits of amounts

The total of selected outputs and the charge for them, the requested amount with the fee, are each
cut at the largest amount before they are compared, while the change is their exact difference, if
that is an amount.  So a request is covered as soon as the exact sum reaches the charge or the
largest amount (`covers_iff_worth`), and what is left over of a covered request is the cut total
less the charge; where that is no amount, the request is not settled (`settled_iff`).

It follows that a request is paid in exact numbers whenever an amount can hold the charge, and that
there is a change that is not negative exactly when amounts can hold the charge and the difference
(`change_of_covered`).  `Accounts` collects what this says of a solution, and the selection of any
outputs one after the other keeps such accounts (`selecting_change`).  A charge beyond the largest
amount is covered by outputs that do not pay it (`overcharge_covered`).
-/

set_option autoImplicit false

namespace CoinLedger.Solution

open UnspentOutput

variable {schedule : FeeSchedule} {added outputs : List UnspentOutput} {requested : Int64}

/-- The solution after outputs were selected one after the other. -/
def selecting (schedule : FeeSchedule) (added : List UnspentOutput) : Answer Solution :=
  added.foldlM (fun solution output => solution.addChecked schedule output) {}

/-- What outputs have to be worth to pay an amount and the fee for as many inputs. -/
def charge (schedule : FeeSchedule) (requested : Int64) (outputs : List UnspentOutput) : Int :=
  requested.toInt + (schedule.feeForInputs outputs.length).toInt

/-! ## Selecting outputs -/

/-- Outputs are added one after the other when the fee for all of them can be told. -/
theorem foldlM_addChecked_ofOutputs (sized : Sized schedule (addEach outputs added)) :
    added.foldlM (fun solution output => solution.addChecked schedule output)
        (ofOutputs schedule outputs) =
      (.ok (ofOutputs schedule (addEach outputs added)) : Answer Solution) := by
  induction added generalizing outputs with
  | nil => rfl
  | cons output rest ih =>
      have next : Sized schedule (addNew outputs output) := sized.of_leading (prefix_addEach _ rest)
      have before : Sized schedule outputs := next.of_leading (prefix_addNew outputs output)
      rw [List.foldlM_cons, addChecked_ofOutputs before, if_pos next]
      exact ih sized

/-- What is selected is each added output once. -/
theorem selecting_eq_ofOutputs (sized : Sized schedule (addEach [] added)) :
    selecting schedule added = .ok (ofOutputs schedule (addEach [] added)) :=
  foldlM_addChecked_ofOutputs sized

/-! ## Covered requests -/

theorem fee_ofOutputs (schedule : FeeSchedule) (nonempty : outputs ≠ []) :
    (ofOutputs schedule outputs).fee = schedule.feeForInputs outputs.length :=
  if_neg nonempty

theorem worth_nonneg (nonneg : ∀ output ∈ outputs, 0 ≤ output.amount.toInt) : 0 ≤ worth outputs :=
  List.sum_nonneg fun value member => by
    obtain ⟨output, listed, rfl⟩ := List.mem_map.mp member
    exact nonneg output listed

/-- The total of amounts that lower no sum is the exact sum, cut at the largest amount. -/
theorem toInt_clampedTotal_of_nonneg (nonneg : ∀ output ∈ outputs, 0 ≤ output.amount.toInt) :
    (clampedTotal outputs).toInt = min (worth outputs) Int64.maxValue.toInt := by
  induction outputs using List.reverseRecOn with
  | nil => rfl
  | append_singleton before output ih =>
      have before_nonneg : ∀ other ∈ before, 0 ≤ other.amount.toInt := fun other member =>
        nonneg other (List.mem_append_left _ member)
      have total := ih before_nonneg
      have least := nonneg output (by simp)
      have sum := worth_nonneg before_nonneg
      have lowest : Int64.minValue.toInt ≤ 0 := by decide
      have largest : 0 ≤ Int64.maxValue.toInt := by decide
      rw [clampedTotal, List.foldl_append, worth_append, worth_singleton]
      calc (Amount.addClamped (clampedTotal before) output.amount).toInt
          = min ((clampedTotal before).toInt + output.amount.toInt) Int64.maxValue.toInt :=
            Amount.toInt_addClamped_of_le (by omega)
        _ = min (worth before + output.amount.toInt) Int64.maxValue.toInt := by omega

section Covered

variable (least : 1 ≤ requested.toInt) (nonneg : ∀ output ∈ outputs, 0 ≤ output.amount.toInt)

include least nonneg

/-- **A request is covered as soon as the exact sum reaches the charge or the largest amount.** -/
theorem covers_iff_worth :
    Covers schedule requested outputs ↔
      outputs ≠ [] ∧
        min (charge schedule requested outputs) Int64.maxValue.toInt ≤ worth outputs := by
  unfold Covers covers
  cases outputs with
  | nil => simp [ofOutputs]
  | cons output rest =>
      have lowest := (schedule.feeForInputs (output :: rest).length).le_toInt
      have fee := fee_ofOutputs schedule (List.cons_ne_nil output rest)
      have reaches : Int64.minValue.toInt ≤
          requested.toInt + (schedule.feeForInputs (output :: rest).length).toInt := by
        rw [Int64.toInt_minValue]
        omega
      rw [Bool.and_eq_true, decide_eq_true_eq, Int64.le_iff_toInt_le, fee,
        Amount.toInt_addClamped_of_le reaches, ofOutputs, toInt_clampedTotal_of_nonneg nonneg,
        charge]
      simp only [List.isEmpty_cons, Bool.not_false, true_and, ne_eq, reduceCtorEq,
        not_false_eq_true]
      omega

/-- What is left over of a covered request is at least the largest amount less the charge. -/
theorem le_clampedTotal_sub_charge (covered : Covers schedule requested outputs) :
    min 0 (Int64.maxValue.toInt - charge schedule requested outputs) ≤
      (clampedTotal outputs).toInt - charge schedule requested outputs := by
  obtain ⟨-, reaches⟩ := (covers_iff_worth least nonneg).mp covered
  rw [toInt_clampedTotal_of_nonneg nonneg]
  omega

/-- **A covered request is settled exactly if an amount can hold what is left over.** -/
theorem settles_iff (most : requested.toInt ≤ Amount.maxRequest)
    (covered : Covers schedule requested outputs) :
    (ofOutputs schedule outputs).settles requested = true ↔
      (clampedTotal outputs).toInt - charge schedule requested outputs ≤
        Int64.maxValue.toInt := by
  have left := le_clampedTotal_sub_charge least nonneg covered
  have total := toInt_clampedTotal_of_nonneg nonneg
  have sum := worth_nonneg nonneg
  have highest := (schedule.feeForInputs outputs.length).toInt_lt
  have request : (Amount.maxRequest : Int) = 500000000000000000 := by decide
  rw [settles, fee_ofOutputs schedule ((covers_iff_worth least nonneg).mp covered).1, ofOutputs,
    Bool.and_eq_true, decide_eq_true_eq, decide_eq_true_eq, Amount.InRange, Amount.InRange]
  dsimp only
  rw [charge, Int64.toInt_maxValue] at *
  rw [Int64.toInt_minValue]
  omega

/-- The change of a covered request that is settled is what is left over. -/
theorem toInt_change (covered : Covers schedule requested outputs)
    (settles : (ofOutputs schedule outputs).settles requested = true) :
    ((ofOutputs schedule outputs).settle requested).change.toInt =
      (clampedTotal outputs).toInt - charge schedule requested outputs := by
  rw [toInt_change_of_settles settles,
    fee_ofOutputs schedule ((covers_iff_worth least nonneg).mp covered).1, charge, ← Int.sub_sub]
  rfl

/-- **A covered request is paid if an amount can hold the charge, and what is left over of it is not
negative in no other case.** -/
theorem change_of_covered (covered : Covers schedule requested outputs) :
    (charge schedule requested outputs ≤ Int64.maxValue.toInt →
      charge schedule requested outputs ≤ worth outputs) ∧
    (0 ≤ (clampedTotal outputs).toInt - charge schedule requested outputs ↔
      charge schedule requested outputs ≤ Int64.maxValue.toInt) := by
  obtain ⟨-, reaches⟩ := (covers_iff_worth least nonneg).mp covered
  have total := toInt_clampedTotal_of_nonneg nonneg
  omega

end Covered

/-- What the numbers of a solution say about a request, up to the limits of amounts. -/
structure Accounts (schedule : FeeSchedule) (requested : Int64) (chosen : Solution) : Prop where
  /-- No output is selected twice. -/
  distinct : Distinct chosen.outputs
  /-- The total is the exact sum, cut at the largest amount. -/
  total : chosen.total.toInt = min (worth chosen.outputs) Int64.maxValue.toInt
  /-- The request is covered as soon as the exact sum reaches the charge or the largest amount. -/
  covers_iff : chosen.covers requested = true ↔ chosen.outputs ≠ [] ∧
    min (charge schedule requested chosen.outputs) Int64.maxValue.toInt ≤ worth chosen.outputs
  /-- A covered charge that an amount can hold is paid in exact numbers. -/
  paid : chosen.covers requested = true →
    charge schedule requested chosen.outputs ≤ Int64.maxValue.toInt →
      charge schedule requested chosen.outputs ≤ worth chosen.outputs
  /-- A covered request is settled exactly if an amount can hold the difference to the charge. -/
  settled_iff : chosen.covers requested = true →
    ((∃ settled, chosen.settleChecked requested = .ok settled) ↔
      chosen.total.toInt - charge schedule requested chosen.outputs ≤ Int64.maxValue.toInt)
  /-- The change is the exact difference to the charge. -/
  change : chosen.covers requested = true → ∀ settled,
    chosen.settleChecked requested = .ok settled →
      settled.change.toInt = chosen.total.toInt - charge schedule requested chosen.outputs
  /-- There is a change that is not negative exactly if amounts can hold the charge and the
  difference. -/
  change_nonneg_iff : chosen.covers requested = true →
    ((∃ settled, chosen.settleChecked requested = .ok settled ∧ 0 ≤ settled.change.toInt) ↔
      charge schedule requested chosen.outputs ≤ Int64.maxValue.toInt ∧
        chosen.total.toInt - charge schedule requested chosen.outputs ≤ Int64.maxValue.toInt)

/-- Distinct outputs that lower no sum keep accounts. -/
theorem accounts_ofOutputs (least : 1 ≤ requested.toInt)
    (most : requested.toInt ≤ Amount.maxRequest) (distinct : Distinct outputs)
    (nonneg : ∀ output ∈ outputs, 0 ≤ output.amount.toInt) :
    Accounts schedule requested (ofOutputs schedule outputs) := by
  have settled_iff (covered : Covers schedule requested outputs) :
      (∃ settled, (ofOutputs schedule outputs).settleChecked requested = .ok settled) ↔
        (clampedTotal outputs).toInt - charge schedule requested outputs ≤
          Int64.maxValue.toInt := by
    rw [← settles_iff least nonneg most covered]
    simp only [settleChecked_eq_ok, exists_and_left, exists_eq', and_true]
  have change (covered : Covers schedule requested outputs) (settled : Solution)
      (found : (ofOutputs schedule outputs).settleChecked requested = .ok settled) :
      settled.change.toInt = (clampedTotal outputs).toInt - charge schedule requested outputs := by
    obtain ⟨settles, rfl⟩ := settleChecked_eq_ok.mp found
    exact toInt_change least nonneg covered settles
  refine {
    distinct
    total := toInt_clampedTotal_of_nonneg nonneg
    covers_iff := covers_iff_worth least nonneg
    paid := fun covered => (change_of_covered least nonneg covered).1
    settled_iff
    change
    change_nonneg_iff := fun covered => ?_ }
  have nonneg_iff := (change_of_covered least nonneg covered).2
  constructor
  · rintro ⟨settled, found, positive⟩
    rw [change covered settled found] at positive
    exact ⟨nonneg_iff.mp positive, (settled_iff covered).mp ⟨settled, found⟩⟩
  · rintro ⟨holds, left⟩
    obtain ⟨settled, found⟩ := (settled_iff covered).mpr left
    exact ⟨settled, found, (nonneg_iff.mpr holds).trans_eq (change covered settled found).symm⟩

/-- **Change of whatever outputs were selected**, for any numbers that amounts and schedules can be:
outputs are selected once each, a covered charge is paid unless no amount can hold it, and without
a change that is not negative no amount can hold the charge or what is left over. -/
theorem selecting_change (least : 1 ≤ requested.toInt) (most : requested.toInt ≤ Amount.maxRequest)
    (nonneg : ∀ output ∈ added, 0 ≤ output.amount.toInt)
    (sized : Sized schedule (addEach [] added)) :
    ∃ chosen, selecting schedule added = .ok chosen ∧ chosen.outputs = addEach [] added ∧
      Accounts schedule requested chosen := by
  have none : Distinct [] := List.nodup_nil
  refine ⟨_, selecting_eq_ofOutputs sized, rfl,
    accounts_ofOutputs least most (none.addEach added) fun output member => ?_⟩
  exact nonneg output (addEach_subset (List.nil_subset _) (List.Subset.refl _) member)

/-- Two outputs of the largest amount. -/
def largestOutputs : List UnspentOutput :=
  (Block.paying [Int64.maxValue, Int64.maxValue]).entriesTo .ones

/-- The total of two outputs of the largest amount is cut, and even the largest request leaves
change there. -/
theorem selecting_change_largest :
    ∃ chosen settled, selecting {} (largestOutputs ++ largestOutputs) = .ok chosen ∧
      chosen.covers 500000000000000000 = true ∧
      charge {} 500000000000000000 chosen.outputs ≤ worth chosen.outputs ∧
      chosen.settleChecked 500000000000000000 = .ok settled ∧ 0 ≤ settled.change.toInt := by
  have nonneg : ∀ output ∈ largestOutputs ++ largestOutputs, 0 ≤ output.amount.toInt := by
    decide +kernel
  obtain ⟨chosen, selected, outputs, accounts⟩ :
      ∃ chosen, selecting {} (largestOutputs ++ largestOutputs) = .ok chosen ∧
        chosen.outputs = addEach [] (largestOutputs ++ largestOutputs) ∧
        Accounts {} 500000000000000000 chosen :=
    selecting_change (by decide) (by decide) nonneg (by decide +kernel)
  have covered : chosen.covers 500000000000000000 = true := by
    rw [accounts.covers_iff, outputs]
    decide +kernel
  obtain ⟨settled, found, change⟩ : ∃ settled,
      chosen.settleChecked 500000000000000000 = .ok settled ∧ 0 ≤ settled.change.toInt := by
    rw [accounts.change_nonneg_iff covered, accounts.total, outputs]
    decide +kernel
  refine ⟨chosen, settled, selected, covered, accounts.paid covered ?_, found, change⟩
  rw [outputs]
  decide +kernel

/-- A schedule whose least fee is the largest amount. -/
def greediest : FeeSchedule :=
  { minFee := Int64.maxValue }

/-- A charge beyond the largest amount is covered by one output of that amount, which does not pay
it: the selection returns the output, with a negative change. -/
theorem overcharge_covered :
    greediest.size 1 < 2 ^ 64 ∧
    (∃ chosen settled, selecting greediest (largestOutputs.take 1) = .ok chosen ∧
      chosen.covers 1 = true ∧ worth chosen.outputs < charge greediest 1 chosen.outputs ∧
      chosen.settleChecked 1 = .ok settled ∧ settled.change = -1) ∧
    ∃ solution, (((Source.paying [Int64.maxValue]).select { fee := greediest } .seeded 0
        AddressKey.onesAddress { amount := 1 }).run {}).1 = .ok solution ∧
      solution.outputs.map UnspentOutput.amount = [Int64.maxValue] ∧ solution.change = -1 := by
  refine ⟨by decide +kernel, ?_, ?_⟩
  · exact ⟨_, _, selecting_eq_ofOutputs (by decide +kernel), by decide +kernel, by decide +kernel,
      settleChecked_eq_ok.mpr ⟨by decide +kernel, rfl⟩, by decide +kernel⟩
  have selected : ((((Source.paying [Int64.maxValue]).select { fee := greediest } .seeded 0
      AddressKey.onesAddress { amount := 1 }).run {}).1.toOption.map fun solution =>
        (solution.outputs.map UnspentOutput.amount, solution.change)) =
          some ([Int64.maxValue], -1) := by
    decide +kernel
  obtain ⟨solution, solved, shown⟩ := Option.map_eq_some_iff.mp selected
  exact ⟨solution, Answer.eq_ok_of_toOption solved, congrArg Prod.fst shown,
    congrArg Prod.snd shown⟩

end CoinLedger.Solution
