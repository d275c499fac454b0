import CoinLedger.Proofs.Selection.Soundness

/-!
# Minimality of deterministic selections

The pool of a minimal scan holds the largest of the outputs that were seen, up to every count that
would improve on the best set (`Minimal`).  If a payment from what was seen would improve it, so
would as many outputs from the front of the pool, and the walk along the pool stops there at the
latest.  Every step keeps this (`Minimal.step`), though it drops outputs from the pool.  So the best
set of a run is a smallest payment from the outputs of the slices that were walked
(`ScanRun.least`), and a selection answers with one whenever there is one (`select_minimal`).
-/

set_option autoImplicit false

namespace CoinLedger

open UnspentOutput Solution

/-- A set of so many outputs would be smaller than the best one. -/
def Improvable (best : Option Solution) (count : Nat) : Prop :=
  ∀ solution, best = some solution → count < solution.size

theorem Policy.improves_minimal_iff {candidate : Solution} {best : Option Solution} :
    Policy.improves .minimal candidate best = true ↔ Improvable best candidate.size := by
  cases best with
  | none => simp [improves, Improvable]
  | some solution => simp [improves, Improvable]

/-- A count that would not be an improvement is that of the best set or more. -/
theorem exists_best_of_not_improvable {best : Option Solution} {count : Nat}
    (held : ¬ Improvable best count) :
    ∃ solution, best = some solution ∧ solution.size ≤ count := by
  simpa [Improvable] using held

namespace ScanPlan

variable {σ : Type} {plan : ScanPlan σ} {seen usable : List UnspentOutput} {look : Look}
  {scan : Scan σ}

/-- No payment from the outputs that were seen has fewer outputs than the best set. -/
def Least (plan : ScanPlan σ) (seen : List UnspentOutput) (best : Option Solution) : Prop :=
  ∀ chosen, Payment plan.tuning.fee plan.request.amount seen chosen →
    ∃ solution, best = some solution ∧ solution.size ≤ chosen.length

/-- What a minimal scan goes on with is enough to improve its best set. -/
structure Minimal (plan : ScanPlan σ) (seen : List UnspentOutput) (scan : Scan σ) : Prop where
  pooled : scan.pool ⊆ seen
  distinct : Distinct scan.pool
  holds : ∀ count, Improvable scan.best count → HoldsLargest count scan.pool seen
  least : plan.Least seen scan.best

theorem minimal_opening (plan : ScanPlan σ) (seed : σ) : plan.Minimal [] (plan.opening seed) where
  pooled := List.nil_subset _
  distinct := List.nodup_nil
  holds _ _ := .of_subset (List.nil_subset _) _
  least _ payment := absurd (List.subset_nil.mp payment.usable) payment.pays.1

/-! ## The pool with a slice -/

/-- The pool after the outputs of a slice were merged into it. -/
def merged (plan : ScanPlan σ) (look : Look) (scan : Scan σ) : List UnspentOutput :=
  Policy.mergePool scan.pool (plan.fresh look)

theorem merged_inOrder : InOrder (plan.merged look scan) :=
  Policy.mergePool_inOrder _ _

theorem Minimal.merged_subset (minimal : plan.Minimal seen scan) (look : Look) :
    plan.merged look scan ⊆ seen ++ plan.fresh look :=
  List.Subset.trans (Policy.mergePool_subset _ _)
    (List.append_subset.mpr
      ⟨List.subset_append_of_subset_left _ minimal.pooled, List.subset_append_right _ _⟩)

section Merged

variable (within : seen ++ plan.fresh look ⊆ usable) (consistent : Consistent usable)
  (minimal : plan.Minimal seen scan)

include within consistent minimal

theorem Minimal.consistent_pool : Consistent (scan.pool ++ plan.fresh look) := by
  obtain ⟨old, new⟩ := List.append_subset.mp within
  exact consistent.subset (List.append_subset.mpr ⟨List.Subset.trans minimal.pooled old, new⟩)

theorem Minimal.merged_distinct : Distinct (plan.merged look scan) :=
  Policy.distinct_mergePool (minimal.consistent_pool within consistent)

theorem Minimal.merged_holds {count : Nat} (improvable : Improvable scan.best count) :
    HoldsLargest count (plan.merged look scan) (seen ++ plan.fresh look) :=
  (minimal.holds count improvable).merge minimal.distinct
    (minimal.consistent_pool within consistent)

/-- **A payment that would improve the best set has its match at the front of the pool.** -/
theorem Minimal.covers_front (exact : ExactAmong plan.tuning.fee plan.request.amount usable)
    {chosen : List UnspentOutput}
    (payment : Payment plan.tuning.fee plan.request.amount (seen ++ plan.fresh look) chosen)
    (improvable : Improvable scan.best chosen.length) :
    chosen.length ≤ (plan.merged look scan).length ∧
      Covers plan.tuning.fee plan.request.amount ((plan.merged look scan).take chosen.length) := by
  have distinct := minimal.merged_distinct within consistent
  obtain ⟨enough, worthMost⟩ := worth_le_worth_take merged_inOrder distinct
    (minimal.merged_holds within consistent improvable) payment.usable payment.distinct
    (Nat.le_refl _)
  have pooled := List.Subset.trans (minimal.merged_subset look) within
  have along : ExactAlong plan.tuning.fee plan.request.amount
      ((plan.merged look scan).take chosen.length) :=
    exact.along (List.Subset.trans (List.take_subset _ _) pooled)
      (distinct.sublist (List.take_sublist _ _))
  obtain ⟨nonempty, pays⟩ := payment.pays
  refine ⟨enough, (covers_iff_pays along.sums).mpr ⟨?_, ?_⟩⟩
  · intro empty
    have none := congrArg List.length empty
    rw [List.length_take_of_le enough, List.length_nil] at none
    exact nonempty (List.length_eq_zero_iff.mp none)
  · rw [List.length_take_of_le enough]
    exact pays.trans worthMost

end Merged

/-! ## Steps -/

theorem path_of_minimal (deterministic : plan.request.policy = .minimal)
    (distinct : Distinct (plan.merged look scan)) :
    plan.path look scan = plan.merged look scan := by
  rw [path, arranged_of_minimal deterministic, deterministic]
  exact addEach_of_distinct distinct

/-- After a walk a minimal scan ends when no smaller set is left, and otherwise goes on with the
outputs that a smaller set can use. -/
theorem afterWalk_minimal_cases (deterministic : plan.request.policy = .minimal) (covered : Bool)
    (candidate : Solution) (scan : Scan σ) :
    (∃ solution, (plan.outcome covered candidate scan).best = some solution ∧ solution.size ≤ 1 ∧
      plan.afterWalk covered candidate scan = (plan.outcome covered candidate scan, false)) ∨
    (∃ solution, (plan.outcome covered candidate scan).best = some solution ∧
      plan.afterWalk covered candidate scan =
        ({ plan.outcome covered candidate scan with pool := scan.pool.take (solution.size - 1) },
          true)) ∨
    ((plan.outcome covered candidate scan).best = none ∧
      plan.afterWalk covered candidate scan =
        ({ plan.outcome covered candidate scan with pool := scan.pool }, true)) := by
  have cases := plan.afterWalk_cases covered candidate scan
  rw [deterministic] at cases
  rcases cases with ⟨accepts, _⟩ | ⟨_, pruned, equal⟩ | ⟨_, kept, pruned, equal⟩
  · cases deterministic.symm.trans accepts.2
  · cases best : (plan.outcome covered candidate scan).best with
    | none =>
        rw [best] at pruned
        cases pruned
    | some solution =>
        rw [best, Policy.prune] at pruned
        split at pruned
        next small => exact .inl ⟨solution, rfl, small, equal⟩
        next => cases pruned
  · cases best : (plan.outcome covered candidate scan).best with
    | none =>
        rw [best] at pruned
        cases pruned
        exact .inr (.inr ⟨rfl, equal⟩)
    | some solution =>
        rw [best, Policy.prune] at pruned
        split at pruned
        next => cases pruned
        next =>
          cases pruned
          exact .inr (.inl ⟨solution, rfl, equal⟩)

/-- The best set after a walk is the one before it, unless the walk covered the request with fewer
outputs. -/
theorem outcome_best_cases (deterministic : plan.request.policy = .minimal) (look : Look)
    (scan : Scan σ) (covered : Bool) (candidate : Solution) :
    (covered = true ∧ Improvable scan.best candidate.size ∧
      (plan.outcome covered candidate (plan.arranged look scan).2).best =
        some (candidate.settle plan.request.amount)) ∨
    ((covered = true → ¬ Improvable scan.best candidate.size) ∧
      (plan.outcome covered candidate (plan.arranged look scan).2).best = scan.best) := by
  rw [outcome_best, arranged_best, deterministic]
  split
  next both => exact .inl ⟨both.1, Policy.improves_minimal_iff.mp both.2, rfl⟩
  next neither =>
    refine .inr ⟨fun covered improvable => neither ⟨covered, ?_⟩, rfl⟩
    exact Policy.improves_minimal_iff.mpr improvable

section Step

variable (deterministic : plan.request.policy = .minimal)
  (within : seen ++ plan.fresh look ⊆ usable) (consistent : Consistent usable)
  (minimal : plan.Minimal seen scan)

include deterministic within consistent minimal

/-- A walk that covers nothing shows that the best set is still least. -/
theorem Minimal.least_of_uncovered
    (exact : ExactAmong plan.tuning.fee plan.request.amount usable)
    (uncovered : Uncovered plan.tuning.fee plan.request.amount (plan.merged look scan)) :
    plan.Least (seen ++ plan.fresh look)
      (plan.outcome false (ofOutputs plan.tuning.fee (plan.merged look scan))
        (plan.arranged look scan).2).best := by
  intro other payment
  have unchanged := (outcome_best_cases deterministic look scan false
    (ofOutputs plan.tuning.fee (plan.merged look scan))).resolve_left
      fun improved => Bool.false_ne_true improved.1
  rw [unchanged.2]
  refine exists_best_of_not_improvable fun improvable => ?_
  obtain ⟨_, covers⟩ := minimal.covers_front within consistent exact payment improvable
  exact uncovered _ (List.take_prefix _ _) covers

/-- A walk that covers the request leaves a least best set. -/
theorem Minimal.least_of_cover (exact : ExactAmong plan.tuning.fee plan.request.amount usable)
    {chosen : List UnspentOutput}
    (cover : FirstCover plan.tuning.fee plan.request.amount (plan.merged look scan) chosen) :
    plan.Least (seen ++ plan.fresh look)
      (plan.outcome true (ofOutputs plan.tuning.fee chosen) (plan.arranged look scan).2).best := by
  intro other payment
  -- a payment that would be an improvement has at least as many outputs as the covering set
  have fewest : Improvable scan.best other.length → chosen.length ≤ other.length := by
    intro improvable
    obtain ⟨enough, covers⟩ := minimal.covers_front within consistent exact payment improvable
    by_contra fewer
    have front : (plan.merged look scan).take other.length <+: chosen := by
      rw [List.prefix_iff_eq_take.mp cover.first]
      exact List.take_prefix_take_left (by omega)
    have same := congrArg List.length (cover.shortest _ front covers)
    rw [List.length_take_of_le enough] at same
    omega
  rcases outcome_best_cases deterministic look scan true
      (ofOutputs plan.tuning.fee chosen) with ⟨_, improves, best⟩ | ⟨held, best⟩
  · refine ⟨_, best, ?_⟩
    by_cases improvable : Improvable scan.best other.length
    · exact fewest improvable
    · obtain ⟨solution, before, fewer⟩ := exists_best_of_not_improvable improvable
      exact Nat.le_of_lt (Nat.lt_of_lt_of_le (improves solution before) fewer)
  · rw [best]
    by_cases improvable : Improvable scan.best other.length
    · obtain ⟨solution, before, fewer⟩ := exists_best_of_not_improvable (held rfl)
      exact ⟨solution, before, fewer.trans (fewest improvable)⟩
    · exact exists_best_of_not_improvable improvable

/-- Pruning the pool drops no output that could still improve the best set. -/
theorem Minimal.afterWalk {covered : Bool} {candidate : Solution}
    (least : plan.Least (seen ++ plan.fresh look)
      (plan.outcome covered candidate (plan.arranged look scan).2).best) :
    plan.Minimal (seen ++ plan.fresh look)
      (plan.afterWalk covered candidate (plan.arranged look scan).2).1 := by
  have pool : (plan.arranged look scan).2.pool = plan.merged look scan := by
    rw [arranged_of_minimal deterministic]
    rfl
  have distinct := minimal.merged_distinct within consistent
  have subset := minimal.merged_subset look
  have holds : ∀ count,
      Improvable (plan.outcome covered candidate (plan.arranged look scan).2).best count →
        HoldsLargest count (plan.merged look scan) (seen ++ plan.fresh look) := by
    intro count improvable
    refine minimal.merged_holds within consistent fun solution before => ?_
    rcases outcome_best_cases deterministic look scan covered candidate with
      ⟨_, improves, best⟩ | ⟨_, best⟩
    · exact (improvable _ best).trans (improves solution before)
    · exact improvable solution (best.trans before)
  rcases afterWalk_minimal_cases deterministic covered candidate (plan.arranged look scan).2 with
    ⟨_, _, _, equal⟩ | ⟨solution, best, equal⟩ | ⟨_, equal⟩
  · have kept := (plan.outcome_pool covered candidate (plan.arranged look scan).2).trans pool
    rw [equal]
    exact ⟨kept ▸ subset, kept ▸ distinct, kept ▸ holds, least⟩
  · rw [equal, pool]
    refine ⟨List.Subset.trans (List.take_subset _ _) subset,
      distinct.sublist (List.take_sublist _ _), fun count improvable => ?_, least⟩
    have fewer := improvable solution best
    exact (holds count improvable).take merged_inOrder (by omega)
  · rw [equal, pool]
    exact ⟨subset, distinct, holds, least⟩

/-- **A step of a minimal scan keeps its best set least and its pool sufficient.** -/
theorem Minimal.step (exact : ExactAmong plan.tuning.fee plan.request.amount usable)
    {next : Scan σ} {goesOn : Bool} (step : plan.Step look scan next goesOn) :
    plan.Minimal (seen ++ plan.fresh look) next := by
  have path := path_of_minimal deterministic (minimal.merged_distinct within consistent)
  cases step with
  | exhausted _ uncovered =>
      rw [path] at uncovered ⊢
      exact minimal.afterWalk deterministic within consistent
        (minimal.least_of_uncovered deterministic within consistent exact uncovered)
  | covered _ cover _ =>
      rw [path] at cover
      exact minimal.afterWalk deterministic within consistent
        (minimal.least_of_cover deterministic within consistent exact cover)

end Step

/-- A minimal scan stops at a step only when no smaller set is left. -/
theorem Step.small_of_stop {next : Scan σ} {goesOn : Bool}
    (step : plan.Step look scan next goesOn) (deterministic : plan.request.policy = .minimal)
    (stops : goesOn = false) : ∃ solution, next.best = some solution ∧ solution.size ≤ 1 := by
  have small (covered : Bool) (candidate : Solution) :
      (plan.afterWalk covered candidate (plan.arranged look scan).2).2 = false →
        ∃ solution, (plan.afterWalk covered candidate (plan.arranged look scan).2).1.best =
          some solution ∧ solution.size ≤ 1 := by
    intro stops
    rcases afterWalk_minimal_cases deterministic covered candidate (plan.arranged look scan).2 with
      ⟨solution, best, small, equal⟩ | ⟨_, _, equal⟩ | ⟨_, equal⟩
    · rw [equal]
      exact ⟨solution, best, small⟩
    · rw [equal] at stops
      cases stops
    · rw [equal] at stops
      cases stops
  cases step with
  | exhausted _ _ => exact small _ _ stops
  | covered _ _ _ => exact small _ _ stops

/-! ## Runs -/

section Run

variable {slices : List Nat} {final : Scan σ} {trace : ScanTrace} {ending : ScanEnd}

/-- **The best set of a run is a smallest payment** from the outputs of the slices that were walked.
-/
theorem ScanRun.least (run : plan.ScanRun slices scan trace ending final)
    (deterministic : plan.request.policy = .minimal)
    (within : seen ++ trace.walked.flatMap plan.fresh ⊆ usable) (consistent : Consistent usable)
    (exact : ExactAmong plan.tuning.fee plan.request.amount usable)
    (minimal : plan.Minimal seen scan) :
    plan.Least (seen ++ trace.walked.flatMap plan.fresh) final.best := by
  induction run generalizing seen with
  | done scan => simpa using minimal.least
  | late _ => simpa using minimal.least
  | failed _ _ => simpa [Scan.fetch] using minimal.least
  | halted _ _ =>
      rw [arranged_best]
      simpa using minimal.least
  | cut _ _ =>
      rw [arranged_best]
      simpa using minimal.least
  | stopped _ step =>
      simp only [List.flatMap_cons, List.flatMap_nil, List.append_nil] at within ⊢
      exact (minimal.step deterministic within consistent exact step).least
  | @continued look _ _ _ _ trace _ _ step _ ih =>
      have joined : seen ++ (trace.walkedFirst look).walked.flatMap plan.fresh =
          (seen ++ plan.fresh look) ++ trace.walked.flatMap plan.fresh := by
        simp [ScanTrace.walkedFirst]
      rw [joined] at within ⊢
      have part := (List.append_subset.mp within).1
      exact ih within (minimal.step deterministic part consistent exact step)

/-- A run that ends in time has walked every slice, unless no smaller set is left. -/
theorem ScanRun.walked_or_small (run : plan.ScanRun slices scan trace ending final)
    (deterministic : plan.request.policy = .minimal) (finished : ending = .finished) :
    slices ⊆ trace.walked.map Look.slice ∨
      ∃ solution, final.best = some solution ∧ solution.size ≤ 1 := by
  induction run with
  | done scan => exact .inl (List.nil_subset _)
  | late _ => cases finished
  | failed _ _ => cases finished
  | halted _ _ => cases finished
  | cut _ _ => cases finished
  | stopped _ step => exact .inr (step.small_of_stop deterministic rfl)
  | continued _ _ _ ih =>
      rcases ih finished with all | small
      · exact .inl (List.cons_subset_cons _ all)
      · exact .inr small

/-- The best set of a run over all slices that ends in time is a smallest payment from all outputs
that are spendable at the time at which the source stands. -/
theorem ScanRun.least_spendable {seed : σ} {time : Int64} (stands : plan.source.StandsAt time)
    (run : plan.ScanRun (plan.visits seed) scan trace ending final)
    (deterministic : plan.request.policy = .minimal) (finished : ending = .finished)
    (least : plan.Least (trace.walked.flatMap plan.fresh) final.best) :
    plan.Least (plan.source.spendable time plan.tuning plan.request plan.key) final.best := by
  intro chosen payment
  rcases run.walked_or_small deterministic finished with all | ⟨solution, best, small⟩
  · exact least chosen (payment.mono (spendable_subset stands all))
  · exact ⟨solution, best, small.trans (List.length_pos_of_ne_nil payment.pays.1)⟩

/-- Where the sums are exact, the best set of a run over all slices is a payment. -/
theorem ScanRun.attained {seed : σ}
    (run : plan.ScanRun slices (plan.opening seed) trace ending final)
    (exact : ExactAmong plan.tuning.fee plan.request.amount (trace.walked.flatMap plan.fresh))
    (solution : Solution) (best : final.best = some solution) :
    Payment plan.tuning.fee plan.request.amount (trace.walked.flatMap plan.fresh)
      solution.outputs :=
  (run.settled (plan.sound_opening seed) solution best).payment exact

/-- What is found in the slices that are walked is found in those that are fetched. -/
theorem ScanRun.found_subset (run : plan.ScanRun slices scan trace ending final) :
    trace.walked.flatMap plan.fresh ⊆ trace.fetched.flatMap plan.fresh := by
  have walked : trace.walked ⊆ trace.fetched := by
    induction run with
    | done scan => exact List.nil_subset _
    | late _ => exact List.nil_subset _
    | failed _ _ => exact List.nil_subset _
    | halted _ _ => exact List.nil_subset _
    | cut _ _ => exact List.nil_subset _
    | stopped _ _ => exact List.Subset.refl _
    | continued _ _ _ ih => exact List.cons_subset_cons _ ih
  intro output member
  obtain ⟨look, walks, found⟩ := List.mem_flatMap.mp member
  exact List.mem_flatMap.mpr ⟨look, walked walks, found⟩

end Run

end ScanPlan

/-! ## Selections -/

section Selection

variable {σ : Type} {source : Source} {tuning : SelectionTuning} {random : RandomSource σ}
  {seed : σ} {address : String} {request : SelectionRequest} {session : Session} {key : AddressKey}
  {plan : ScanPlan σ} {trace : ScanTrace} {answer : Answer Solution} {after : Session}

/-- What a minimal selection answers when the given outputs are usable: a smallest payment from them
if there is one. -/
structure AnswersSmallest (source : Source) (tuning : SelectionTuning) (request : SelectionRequest)
    (key : AddressKey) (late : Bool) (usable : List UnspentOutput) (answer : Answer Solution) :
    Prop where
  solved_iff : (∃ solution, answer = .ok solution) ↔
    ∃ chosen, Payment tuning.fee request.amount usable chosen
  smallest : ∀ solution, answer = .ok solution →
    Payment tuning.fee request.amount usable solution.outputs ∧
      ∀ chosen, Payment tuning.fee request.amount usable chosen →
        solution.outputs.length ≤ chosen.length
  unsolved : (¬ ∃ chosen, Payment tuning.fee request.amount usable chosen) →
    Unsolved source request key late answer

/-- In time there is too little to pay with exactly when the key has outputs and they have no
payment. -/
theorem AnswersSmallest.insufficient_iff {usable : List UnspentOutput}
    (answers : AnswersSmallest source tuning request key false usable answer)
    (requested : Int64) :
    answer = .error (.balanceInsufficient requested) ↔
      requested = request.amount ∧ source.ledger.unspentCount key ≠ 0 ∧
        ¬ ∃ chosen, Payment tuning.fee request.amount usable chosen := by
  by_cases pays : ∃ chosen, Payment tuning.fee request.amount usable chosen
  · obtain ⟨solution, rfl⟩ := answers.solved_iff.mpr pays
    exact iff_of_false (by simp) fun claimed => claimed.2.2 pays
  · have unsolved := answers.unsolved pays
    rw [Unsolved] at unsolved
    split at unsolved
    next none =>
      rw [unsolved]
      exact iff_of_false (by simp) fun claimed => claimed.2.1 none
    next some =>
      rw [if_neg Bool.false_ne_true] at unsolved
      rw [unsolved, Except.error.injEq, QueryError.balanceInsufficient.injEq]
      exact ⟨fun found => ⟨found.symm, some, pays⟩, fun claimed => claimed.1.symm⟩

/-- A scan whose best set is a smallest payment answers with it. -/
theorem Ends.answersSmallest {late : Bool} {usable : List UnspentOutput} {best : Option Solution}
    (ends : Ends source request key late best answer)
    (attained : ∀ solution, best = some solution →
      Payment tuning.fee request.amount usable solution.outputs)
    (least : ∀ chosen, Payment tuning.fee request.amount usable chosen →
      ∃ solution, best = some solution ∧ solution.size ≤ chosen.length) :
    AnswersSmallest source tuning request key late usable answer := by
  have solved_iff : (∃ solution, answer = .ok solution) ↔
      ∃ chosen, Payment tuning.fee request.amount usable chosen := by
    constructor
    · rintro ⟨solution, solved⟩
      exact ⟨_, attained solution (ends.ok_iff.mp solved)⟩
    · rintro ⟨chosen, payment⟩
      obtain ⟨solution, found, _⟩ := least chosen payment
      exact ⟨solution, ends.ok_iff.mpr found⟩
  refine ⟨solved_iff, ?_, fun none => ends.unsolved_of (mt solved_iff.mp none)⟩
  intro solution solved
  have found := ends.ok_iff.mp solved
  refine ⟨attained solution found, fun chosen payment => ?_⟩
  obtain ⟨other, same, smallest⟩ := least chosen payment
  cases found.symm.trans same
  exact smallest

/-- The answer of a run over all slices, for what was walked and, in time, for all outputs that are
spendable at the time at which the source stands. -/
theorem ScanPlan.ScanRun.answersSmallest {ending : ScanEnd} {final : Scan σ} {late : Bool}
    (run : plan.ScanRun (plan.visits seed) (plan.opening seed) trace ending final)
    (ends : Ends plan.source plan.request plan.key late final.best answer)
    (inTime : late = false → ending = .finished) (deterministic : plan.request.policy = .minimal)
    (consistent : Consistent (plan.source.ledger.unspent plan.key))
    (exact : ExactAmong plan.tuning.fee plan.request.amount (trace.walked.flatMap plan.fresh)) :
    AnswersSmallest plan.source plan.tuning plan.request plan.key late
        (trace.walked.flatMap plan.fresh) answer ∧
      (late = false → ∀ time, plan.source.StandsAt time →
        AnswersSmallest plan.source plan.tuning plan.request plan.key false
          (plan.source.spendable time plan.tuning plan.request plan.key) answer) := by
  have recorded := plan.flatMap_fresh_subset trace.walked
  have attained := run.attained exact
  have smallest := run.least deterministic (List.nil_append _ ▸ List.Subset.refl _)
    (consistent.subset recorded) exact (plan.minimal_opening seed)
  refine ⟨ends.answersSmallest attained smallest, fun notLate time stands => ?_⟩
  rw [notLate] at ends
  have spendable := ScanPlan.fresh_subset_spendable stands trace.walked
  exact ends.answersSmallest (fun solution best => (attained solution best).mono spendable)
    (run.least_spendable stands deterministic (inTime notLate) smallest)

/-- An undisturbed minimal selection answers with a smallest payment from all spendable outputs. -/
theorem Source.Undisturbed.answersSmallest {time : Int64}
    (undisturbed : source.Undisturbed time tuning address request key)
    (deterministic : request.policy = .minimal) (random : RandomSource σ) (seed : σ)
    (session : Session) :
    AnswersSmallest source tuning request key false (source.spendable time tuning request key)
      ((source.select tuning random seed address request).run session).1 := by
  obtain ⟨trace, final, run, ends⟩ := undisturbed.select random seed session rfl
  have usable : trace.walked.flatMap
      (source.scanPlan tuning random request key session).fresh ⊆
        source.spendable time tuning request key :=
    ScanPlan.fresh_subset_spendable undisturbed.stands _
  have exact := undisturbed.exact.subset usable
  exact (run.answersSmallest ends (fun _ => rfl) deterministic undisturbed.consistent exact).2 rfl
    time undisturbed.stands

/-- **A minimal selection answers with a smallest payment** from the outputs of the slices that it
walks, as far as they are spendable when it looks at them; the slices that it walks are those that
it fetches before a reading of the clock lies past the deadline.  In time, and where the reference
time stands still, this is a smallest payment from all spendable outputs. -/
theorem select_minimal (deterministic : request.policy = .minimal)
    (least : 1 ≤ request.amount.toInt) (most : request.amount.toInt ≤ Amount.maxRequest)
    (resolved : source.network.resolve address = .ok key)
    (room : tuning.blockCacheSize ≤ BlockCache.maxCapacity)
    (planned : plan = source.scanPlan tuning random request key session)
    (traced : trace = plan.selectionTrace seed session)
    (judged : ∀ look ∈ trace.fetched, plan.SliceJudged look)
    (consistent : Consistent (source.ledger.unspent key))
    (exact : ExactAmong tuning.fee request.amount (trace.fetched.flatMap plan.fresh))
    (run : (source.select tuning random seed address request).run session = (answer, after)) :
    AnswersSmallest source tuning request key trace.late (trace.walked.flatMap plan.fresh) answer ∧
      plan.FollowsClock (session.clockReads + 1) after.clockReads trace ∧
      (trace.late = false → ∀ time, source.StandsAt time →
        AnswersSmallest source tuning request key false
          (source.spendable time tuning request key) answer) := by
  have succeeds : ∀ {ending final},
      plan.ScanRun (plan.visits seed) (plan.opening seed) trace ending final →
        ∀ error, ending ≠ .failed error := by
    subst planned
    exact fun run => run.not_failed (ScanPlan.sound_opening _ seed) judged exact
  obtain ⟨ending, final, scanRun, inTime, ends, follows⟩ :=
    Source.select_ends (Amount.check_eq_ok least most) resolved room planned traced succeeds run
  subst planned
  have found := exact.subset scanRun.found_subset
  obtain ⟨smallest, whole⟩ :=
    scanRun.answersSmallest ends inTime deterministic consistent found
  exact ⟨smallest, follows, whole⟩

/-- Two of three outputs are needed, and they lie in different slices. -/
theorem select_minimal_threeOutputs :
    ∃ solution, (((Source.paying [400000, 300000, 450000]).select { sliceSize := 2 } .seeded 0
        AddressKey.onesAddress { amount := 700000 }).run {}).1 = .ok solution ∧
      solution.outputs.length ≤ 2 := by
  obtain ⟨plan, planned⟩ : ∃ plan : ScanPlan UInt64,
      plan = (Source.paying [400000, 300000, 450000]).scanPlan { sliceSize := 2 } .seeded
        { amount := 700000 } .ones {} := ⟨_, rfl⟩
  have inTime : (plan.selectionTrace 0 {}).late = false := by
    refine Bool.eq_false_iff.mpr (mt ScanPlan.late_of_selectionTrace ?_)
    rw [planned]
    exact (Source.neverLate_ofBlock _ _ _ _).not_late
  have stands : (Source.paying [400000, 300000, 450000]).StandsAt Clock.defaultUnixTime :=
    Source.standsAt_ofBlock _ _ _
  have recorded : (plan.selectionTrace 0 {}).fetched.flatMap plan.fresh ⊆
      (Block.paying [400000, 300000, 450000]).entriesTo .ones := by
    rw [← Ledger.unspent_ofBlock 20]
    exact planned ▸ plan.flatMap_fresh_subset _
  have exact : ExactAmong {} 700000 ((Block.paying [400000, 300000, 450000]).entriesTo .ones) :=
    .of_nonneg (by decide +kernel) (by decide +kernel) (by decide +kernel) (by decide +kernel)
      (by decide +kernel)
  have judged : ∀ look ∈ (plan.selectionTrace 0 {}).fetched, plan.SliceJudged look := by
    subst planned
    exact fun look _ => ScanPlan.sliceJudged_of_standsAt stands
      (fun _ member => Source.judged_ofBlock _ _ _ (by decide) _ _ member) look
  have distinct : Distinct ((Block.paying [400000, 300000, 450000]).entriesTo .ones) := by
    decide +kernel
  have consistent : Consistent ((Source.paying [400000, 300000, 450000]).ledger.unspent .ones) := by
    rw [Source.paying, Source.ofBlock, Ledger.unspent_ofBlock]
    exact distinct.consistent
  obtain ⟨-, -, whole⟩ := select_minimal rfl (by decide) (by decide) Network.resolve_onesAddress
    (by decide) planned rfl judged consistent (exact.subset recorded) rfl
  have answers := whole inTime _ stands
  have payment : Payment {} 700000
      ((Source.paying [400000, 300000, 450000]).spendable Clock.defaultUnixTime { sliceSize := 2 }
        { amount := 700000 } .ones)
      (((Block.paying [400000, 300000, 450000]).entriesTo .ones).eraseIdx 1) :=
    ⟨by decide +kernel, by decide +kernel, by decide +kernel⟩
  obtain ⟨solution, solved⟩ := answers.solved_iff.mpr ⟨_, payment⟩
  exact ⟨solution, solved, (answers.smallest solution solved).2 _ payment⟩

/-- A block at the very first height that pays to the key. -/
def firstBlock : Block :=
  { Block.paying [500000] with height := 0 }

/-- **Outputs that pay a request are not always selected.**  The selection is stopped where its
cache has no room, and where instant send asks for more confirmations than 32 bits can count: those
of the first block at the greatest height. -/
theorem payable_request_stopped :
    ((Source.paying [500000]).Undisturbed Clock.defaultUnixTime {} AddressKey.onesAddress
        { amount := 300000 } .ones ∧
      (∃ chosen, Payment {} 300000 ((Source.paying [500000]).spendable Clock.defaultUnixTime {}
        { amount := 300000 } .ones) chosen) ∧
      (((Source.paying [500000]).select { blockCacheSize := 18446744073709551615 } .seeded 0
        AddressKey.onesAddress { amount := 300000 }).run {}).1 = .error .stopped) ∧
    (∃ chosen, Payment {} 300000 ((Source.ofBlock Int32.maxValue firstBlock .ones).spendable
        Clock.defaultUnixTime {} { amount := 300000, instantOnly := true } .ones) chosen) ∧
      (((Source.ofBlock Int32.maxValue firstBlock .ones).select {} .seeded 0 AddressKey.onesAddress
        { amount := 300000, instantOnly := true }).run {}).1 = .error .stopped := by
  have undisturbed : (Source.paying [500000]).Undisturbed Clock.defaultUnixTime {}
      AddressKey.onesAddress { amount := 300000 } .ones :=
    Source.undisturbed_paying (by decide) (by decide) (by decide) (by decide +kernel)
      (.of_nonneg (by decide +kernel) (by decide +kernel) (by decide +kernel) (by decide +kernel)
        (by decide +kernel))
  refine ⟨⟨undisturbed, ⟨(Block.paying [500000]).entriesTo .ones, ?_⟩, ?_⟩,
    ⟨firstBlock.entriesTo .ones, ?_⟩, ?_⟩
  · exact ⟨by decide +kernel, by decide +kernel, by decide +kernel⟩
  · exact Answer.eq_stopped_of_isStopped (by decide +kernel)
  · exact ⟨by decide +kernel, by decide +kernel, by decide +kernel⟩
  · exact Answer.eq_stopped_of_isStopped (by decide +kernel)

end Selection

end CoinLedger
