import CoinLedger.Proofs.Selection.Payment
import CoinLedger.Selection.Scan
import Mathlib.Data.List.Induction

/-!
# Walks

A solution that was never settled is determined by its outputs (`Solution.ofOutputs`), so a walk can
be followed on lists: it goes along its path, the outputs it starts from and after them each output
of the order that is not listed yet.  A walk that starts from outputs no first part of which covers
the request ends at the shortest first part of its path that covers it; without one it ends with the
whole path, unless time runs out or the fee for the next output cannot be told (`walk_walked`).

Along a path whose numbers are exact, covering the request is the same as paying it
(`covers_iff_pays`), every fee can be told, and what is left over can be told as well
(`settles_of_covers`).
-/

set_option autoImplicit false

namespace CoinLedger

namespace UnspentOutput

/-- The outputs with one more at the end, unless it is listed already. -/
def addNew (outputs : List UnspentOutput) (output : UnspentOutput) : List UnspentOutput :=
  if output.outpoint ∈ outputs.map outpoint then outputs else outputs ++ [output]

/-- The outputs with each of some more at the end that is not listed already. -/
def addEach (outputs more : List UnspentOutput) : List UnspentOutput :=
  more.foldl addNew outputs

@[simp] theorem addEach_nil (outputs : List UnspentOutput) : addEach outputs [] = outputs := rfl

@[simp] theorem addEach_cons (outputs : List UnspentOutput) (output : UnspentOutput)
    (rest : List UnspentOutput) :
    addEach outputs (output :: rest) = addEach (addNew outputs output) rest := rfl

theorem addNew_of_listed {outputs : List UnspentOutput} {output : UnspentOutput}
    (listed : output.outpoint ∈ outputs.map outpoint) : addNew outputs output = outputs :=
  if_pos listed

theorem addNew_of_new {outputs : List UnspentOutput} {output : UnspentOutput}
    (new : output.outpoint ∉ outputs.map outpoint) : addNew outputs output = outputs ++ [output] :=
  if_neg new

theorem prefix_addNew (outputs : List UnspentOutput) (output : UnspentOutput) :
    outputs <+: addNew outputs output := by
  unfold addNew
  split
  · exact List.prefix_rfl
  · exact List.prefix_append _ _

/-- A first part of outputs with one more is the whole or a first part of those before. -/
theorem eq_or_prefix_of_prefix_addNew {outputs part : List UnspentOutput} {output : UnspentOutput}
    (first : part <+: addNew outputs output) : part = addNew outputs output ∨ part <+: outputs := by
  by_cases listed : output.outpoint ∈ outputs.map outpoint
  · rw [addNew_of_listed listed] at first
    exact .inr first
  · rw [addNew_of_new listed] at first ⊢
    exact List.prefix_concat_iff.mp first

theorem prefix_addEach (outputs more : List UnspentOutput) : outputs <+: addEach outputs more := by
  induction more generalizing outputs with
  | nil => exact List.prefix_rfl
  | cons output rest ih => exact (prefix_addNew outputs output).trans (ih _)

theorem Distinct.addNew {outputs : List UnspentOutput} (distinct : Distinct outputs)
    (output : UnspentOutput) : Distinct (addNew outputs output) := by
  by_cases listed : output.outpoint ∈ outputs.map outpoint
  · rw [addNew_of_listed listed]
    exact distinct
  · rw [addNew_of_new listed, Distinct, List.map_append]
    exact List.nodup_append'.mpr
      ⟨distinct, List.nodup_singleton _, List.disjoint_singleton.mpr listed⟩

theorem Distinct.addEach {outputs : List UnspentOutput} (distinct : Distinct outputs)
    (more : List UnspentOutput) : Distinct (addEach outputs more) := by
  induction more generalizing outputs with
  | nil => exact distinct
  | cons output rest ih => exact ih (distinct.addNew output)

theorem addNew_subset {outputs within : List UnspentOutput} {output : UnspentOutput}
    (subset : outputs ⊆ within) (member : output ∈ within) : addNew outputs output ⊆ within := by
  unfold addNew
  split
  · exact subset
  · exact List.append_subset.mpr ⟨subset, List.cons_subset.mpr ⟨member, List.nil_subset _⟩⟩

theorem addEach_subset {outputs more within : List UnspentOutput} (subset : outputs ⊆ within)
    (others : more ⊆ within) : addEach outputs more ⊆ within := by
  induction more generalizing outputs with
  | nil => exact subset
  | cons output rest ih =>
      obtain ⟨member, others⟩ := List.cons_subset.mp others
      exact ih (addNew_subset subset member) others

/-- Outputs that are all new and distinct are added as they are. -/
theorem addEach_of_distinct {outputs more : List UnspentOutput}
    (distinct : Distinct (outputs ++ more)) : addEach outputs more = outputs ++ more := by
  induction more generalizing outputs with
  | nil => simp
  | cons output rest ih =>
      have new : output.outpoint ∉ outputs.map outpoint := by
        rw [Distinct, List.map_append, List.map_cons] at distinct
        intro listed
        exact (List.disjoint_of_nodup_append distinct) listed List.mem_cons_self
      rw [addEach_cons, addNew_of_new new, ih (by simpa using distinct)]
      simp

theorem addEach_append (outputs first second : List UnspentOutput) :
    addEach outputs (first ++ second) = addEach (addEach outputs first) second :=
  List.foldl_append

theorem mem_addNew {outputs : List UnspentOutput} {output : UnspentOutput} :
    output.outpoint ∈ (addNew outputs output).map outpoint := by
  by_cases listed : output.outpoint ∈ outputs.map outpoint
  · rw [addNew_of_listed listed]
    exact listed
  · rw [addNew_of_new listed]
    simp

/-- Every output that is added is listed afterwards. -/
theorem listed_addEach {more : List UnspentOutput} {output : UnspentOutput}
    (outputs : List UnspentOutput) (member : output ∈ more) :
    output.outpoint ∈ (addEach outputs more).map outpoint := by
  induction more generalizing outputs with
  | nil => cases member
  | cons first rest ih =>
      rcases List.mem_cons.mp member with rfl | member
      · exact ((prefix_addEach (addNew outputs output) rest).map _).subset mem_addNew
      · exact ih _ member

end UnspentOutput

open UnspentOutput

namespace Solution

variable {schedule : FeeSchedule} {amount : Int64}

/-- The sum of the amounts, held within the range of amounts at every output. -/
def clampedTotal (outputs : List UnspentOutput) : Int64 :=
  outputs.foldl (fun sum output => Amount.addClamped sum output.amount) 0

/-- The solution with given outputs before it is settled. -/
def ofOutputs (schedule : FeeSchedule) (outputs : List UnspentOutput) : Solution where
  outputs
  total := clampedTotal outputs
  fee := if outputs = [] then 0 else schedule.feeForInputs outputs.length

theorem add_ofOutputs (schedule : FeeSchedule) (outputs : List UnspentOutput)
    (output : UnspentOutput) :
    (ofOutputs schedule outputs).add schedule output =
      ofOutputs schedule (addNew outputs output) := by
  have contains_iff : (ofOutputs schedule outputs).contains output.outpoint = true ↔
      output.outpoint ∈ outputs.map outpoint := by
    simp [contains, ofOutputs]
  by_cases listed : output.outpoint ∈ outputs.map outpoint
  · rw [add, if_pos (contains_iff.mpr listed), addNew_of_listed listed]
  · rw [add, if_neg (contains_iff.not.mpr listed), addNew_of_new listed]
    simp [ofOutputs, clampedTotal, size]

/-- The fee of the outputs can be told. -/
def Sized (schedule : FeeSchedule) (outputs : List UnspentOutput) : Prop :=
  outputs ≠ [] → schedule.sizeFits outputs.length = true

instance (schedule : FeeSchedule) (outputs : List UnspentOutput) :
    Decidable (Sized schedule outputs) :=
  inferInstanceAs (Decidable (_ → _))

theorem sized_nil : Sized schedule [] := fun nonempty => absurd rfl nonempty

theorem Sized.of_leading {part outputs : List UnspentOutput} (sized : Sized schedule outputs)
    (first : part <+: outputs) : Sized schedule part := by
  intro nonempty
  have whole : outputs ≠ [] := fun empty => nonempty (List.prefix_nil.mp (empty ▸ first))
  exact FeeSchedule.sizeFits_of_le first.length_le (sized whole)

theorem sized_addNew_iff {outputs : List UnspentOutput} {output : UnspentOutput} :
    Sized schedule (addNew outputs output) ↔
      schedule.sizeFits (addNew outputs output).length = true := by
  have nonempty : addNew outputs output ≠ [] := by
    intro empty
    have listed := @mem_addNew outputs output
    rw [empty] at listed
    cases listed
  exact ⟨fun sized => sized nonempty, fun fits _ => fits⟩

/-- **One more output is selected when the fee for it can be told.** -/
theorem addChecked_ofOutputs {outputs : List UnspentOutput} (sized : Sized schedule outputs)
    (output : UnspentOutput) :
    (ofOutputs schedule outputs).addChecked schedule output =
      if Sized schedule (addNew outputs output) then
        .ok (ofOutputs schedule (addNew outputs output))
      else .error .stopped := by
  have contains_iff : (ofOutputs schedule outputs).contains output.outpoint = true ↔
      output.outpoint ∈ outputs.map outpoint := by
    simp [contains, ofOutputs]
  rw [addChecked, add_ofOutputs]
  by_cases listed : output.outpoint ∈ outputs.map outpoint
  · rw [if_pos (contains_iff.mpr listed), addNew_of_listed listed, if_pos sized]
  · have length : (addNew outputs output).length = (ofOutputs schedule outputs).size + 1 := by
      rw [addNew_of_new listed, List.length_append]
      rfl
    rw [if_neg (mt contains_iff.mp listed), FeeSchedule.feeChecked, ← length]
    simp only [sized_addNew_iff]
    split <;> rfl

/-- The solution of the outputs covers the request. -/
def Covers (schedule : FeeSchedule) (amount : Int64) (outputs : List UnspentOutput) : Prop :=
  (ofOutputs schedule outputs).covers amount = true

theorem not_covers_nil : ¬ Covers schedule amount [] := by
  simp [Covers, covers, ofOutputs]

/-- No first part of the outputs covers the request. -/
def Uncovered (schedule : FeeSchedule) (amount : Int64) (outputs : List UnspentOutput) : Prop :=
  ∀ part, part <+: outputs → ¬ Covers schedule amount part

theorem uncovered_nil : Uncovered schedule amount [] := fun _ first =>
  List.prefix_nil.mp first ▸ not_covers_nil

theorem Uncovered.addNew {outputs : List UnspentOutput} {output : UnspentOutput}
    (uncovered : Uncovered schedule amount outputs)
    (still : ¬ Covers schedule amount (addNew outputs output)) :
    Uncovered schedule amount (addNew outputs output) := by
  intro part first
  rcases eq_or_prefix_of_prefix_addNew first with rfl | first
  · exact still
  · exact uncovered part first

/-- The shortest first part of a path that covers the request. -/
structure FirstCover (schedule : FeeSchedule) (amount : Int64) (path chosen : List UnspentOutput) :
    Prop where
  first : chosen <+: path
  covers : Covers schedule amount chosen
  shortest : ∀ part, part <+: chosen → Covers schedule amount part → part = chosen

theorem Uncovered.firstCover {outputs path : List UnspentOutput} {output : UnspentOutput}
    (uncovered : Uncovered schedule amount outputs)
    (covers : Covers schedule amount (UnspentOutput.addNew outputs output))
    (first : UnspentOutput.addNew outputs output <+: path) :
    FirstCover schedule amount path (UnspentOutput.addNew outputs output) where
  first
  covers
  shortest part shorter partCovers :=
    (eq_or_prefix_of_prefix_addNew shorter).resolve_right fun before =>
      uncovered part before partCovers

theorem FirstCover.self {path chosen : List UnspentOutput}
    (cover : FirstCover schedule amount path chosen) :
    FirstCover schedule amount chosen chosen :=
  ⟨List.prefix_rfl, cover.covers, cover.shortest⟩

/-- What covers the request first on a path does so on every longer one. -/
theorem FirstCover.extend {path longer chosen : List UnspentOutput}
    (cover : FirstCover schedule amount path chosen) (first : path <+: longer) :
    FirstCover schedule amount longer chosen :=
  ⟨cover.first.trans first, cover.covers, cover.shortest⟩

/-! ## Settled solutions -/

theorem settleChecked_eq_ok {solution settled : Solution} :
    solution.settleChecked amount = .ok settled ↔
      solution.settles amount = true ∧ solution.settle amount = settled := by
  rw [settleChecked]
  split
  next settles => simp [settles]
  next unsettled => simp [unsettled]

/-- A change that can be told is what is left over. -/
theorem toInt_change_of_settles {solution : Solution}
    (settles : solution.settles amount = true) :
    (solution.settle amount).change.toInt =
      solution.total.toInt - amount.toInt - solution.fee.toInt := by
  rw [Solution.settles, Bool.and_eq_true, decide_eq_true_eq, decide_eq_true_eq] at settles
  exact Amount.toInt_sub_sub settles.2

/-! ## Exact solutions -/

theorem ExactAlong.sized {outputs : List UnspentOutput}
    (exact : ExactAlong schedule amount outputs) : Sized schedule outputs :=
  (exact outputs List.prefix_rfl).size

theorem toInt_clampedTotal {outputs : List UnspentOutput}
    (fits : ∀ part, part <+: outputs → Amount.InRange (worth part)) :
    (clampedTotal outputs).toInt = worth outputs := by
  induction outputs using List.reverseRecOn with
  | nil => rfl
  | append_singleton before output ih =>
      have exact := ih fun part first => fits part (first.trans (List.prefix_append _ _))
      have whole := fits (before ++ [output]) List.prefix_rfl
      rw [worth_append, worth_singleton, ← exact] at whole
      rw [clampedTotal, List.foldl_append, worth_append, worth_singleton, ← exact]
      exact Amount.toInt_addClamped whole

/-- **Where the sums are exact, the outputs that cover a request are those that pay it.** -/
theorem covers_iff_pays {outputs : List UnspentOutput}
    (exact : SumsAlong schedule amount outputs) :
    Covers schedule amount outputs ↔ Pays schedule amount outputs := by
  unfold Covers Pays covers
  cases outputs with
  | nil => simp [ofOutputs]
  | cons output rest =>
      have charge := (exact (output :: rest) List.prefix_rfl).charge (List.cons_ne_nil output rest)
      have fee : (ofOutputs schedule (output :: rest)).fee =
          schedule.feeForInputs (output :: rest).length := by
        rw [ofOutputs, if_neg (List.cons_ne_nil output rest)]
      have total : (clampedTotal (output :: rest)).toInt = worth (output :: rest) :=
        toInt_clampedTotal fun part first => (exact part first).total
      rw [Bool.and_eq_true, decide_eq_true_eq, Int64.le_iff_toInt_le, fee,
        Amount.toInt_addClamped charge, ofOutputs, total]
      simp

/-- Where the numbers are exact, what is left over of a request that is covered can be told. -/
theorem settles_of_covers {outputs : List UnspentOutput}
    (exact : ExactAlong schedule amount outputs) (covers : Covers schedule amount outputs) :
    (ofOutputs schedule outputs).settles amount = true := by
  have pays := (covers_iff_pays exact.sums).mp covers
  have change := (exact outputs List.prefix_rfl).change pays
  have total : (clampedTotal outputs).toInt = worth outputs :=
    toInt_clampedTotal fun part first => (exact part first).total
  rw [settles, ofOutputs, if_neg pays.1, total]
  simp only [change.1, change.2, decide_true, Bool.and_self]

end Solution

/-! ## The walk -/

/-- The session after one more reading of the clock. -/
def Session.afterReading (session : Session) : Session :=
  { session with clockReads := session.clockReads + 1 }

namespace ScanPlan

open Solution

variable {σ : Type}

/-- How a walk along a path may end, and with which solution. -/
inductive Walked (plan : ScanPlan σ) (path : List UnspentOutput) : WalkEnd → Solution → Prop
  | exhausted : Sized plan.tuning.fee path →
      Uncovered plan.tuning.fee plan.request.amount path →
      Walked plan path .exhausted (ofOutputs plan.tuning.fee path)
  | covered {chosen : List UnspentOutput} : Sized plan.tuning.fee chosen →
      FirstCover plan.tuning.fee plan.request.amount path chosen →
      Walked plan path .covered (ofOutputs plan.tuning.fee chosen)
  | expired {reads : Nat} (candidate : Solution) :
      plan.deadline.expired (plan.source.clock.reading reads) = true →
      Walked plan path .expired candidate
  | stopped {part : List UnspentOutput} (candidate : Solution) : part <+: path →
      ¬ Sized plan.tuning.fee part → Walked plan path .stopped candidate

theorem expired_run (plan : ScanPlan σ) (session : Session) :
    plan.expired.run session =
      (plan.deadline.expired (plan.source.clock.reading session.clockReads),
        session.afterReading) := rfl

/-- One step of a walk. -/
theorem walk_cons_run (plan : ScanPlan σ) (output : UnspentOutput) (rest : List UnspentOutput)
    (candidate : Solution) (session : Session) :
    (plan.walk (output :: rest) candidate).run session =
      if plan.deadline.expired (plan.source.clock.reading session.clockReads) then
        ((.expired, candidate), session.afterReading)
      else match candidate.addChecked plan.tuning.fee output with
        | .error _ => ((.stopped, candidate), session.afterReading)
        | .ok candidate =>
          if candidate.covers plan.request.amount then
            ((.covered, candidate), session.afterReading)
          else (plan.walk rest candidate).run session.afterReading := by
  rw [walk, StateT.run_bind, expired_run]
  dsimp only [bind, Id]
  split
  · rfl
  · cases candidate.addChecked plan.tuning.fee output with
    | error _ => rfl
    | ok candidate =>
        dsimp only
        split <;> rfl

/-- **A walk ends at the first part of its path that covers the request**, and does nothing but read
the clock. -/
theorem walk_walked (plan : ScanPlan σ) (order : List UnspentOutput)
    {outputs : List UnspentOutput} (session : Session) (sized : Sized plan.tuning.fee outputs)
    (uncovered : Uncovered plan.tuning.fee plan.request.amount outputs) :
    ∃ ending candidate reads,
      (plan.walk order (ofOutputs plan.tuning.fee outputs)).run session =
        ((ending, candidate), { session with clockReads := reads }) ∧
      plan.Walked (addEach outputs order) ending candidate := by
  induction order generalizing outputs session with
  | nil => exact ⟨_, _, session.clockReads, rfl, .exhausted sized uncovered⟩
  | cons output rest ih =>
      rw [walk_cons_run, addChecked_ofOutputs sized]
      split
      next late => exact ⟨_, _, session.clockReads + 1, rfl, .expired _ late⟩
      next =>
        by_cases more : Sized plan.tuning.fee (addNew outputs output)
        · rw [if_pos more]
          dsimp only
          split
          next covers =>
            exact ⟨_, _, session.clockReads + 1, rfl,
              .covered more (uncovered.firstCover covers (prefix_addEach _ rest))⟩
          next still => exact ih _ more (uncovered.addNew still)
        · rw [if_neg more]
          exact ⟨_, _, session.clockReads + 1, rfl, .stopped _ (prefix_addEach _ rest) more⟩

end ScanPlan

end CoinLedger
