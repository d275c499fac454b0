import CoinLedger.Proofs.Random
import CoinLedger.Proofs.Selection.Pool
import CoinLedger.Proofs.Selection.Trace

/-!
# Settled sets

Whatever the policy, the draws and the clock, the best set of a scan is settled (`Settled`): it
holds distinct outputs that were seen, it covers the request, no shorter first part of it does, and
its change is an amount.  A step keeps this for the set, the carried outputs and the pool
(`Sound.step`), so a run does (`ScanRun.settled`).

The paths of the walks lead through distinct outputs that were seen, so a run whose outputs can all
be judged and whose numbers are exact does not fail (`ScanRun.not_failed`).
-/

set_option autoImplicit false

namespace CoinLedger

open UnspentOutput Solution

theorem Policy.prune_subset {policy : Policy} {best : Option Solution}
    {pool kept : List UnspentOutput} (pruned : policy.prune best pool = some kept) :
    kept ⊆ pool := by
  cases policy with
  | random =>
      cases pruned
      exact List.Subset.refl _
  | minimal =>
      cases best with
      | none =>
          cases pruned
          exact List.Subset.refl _
      | some solution =>
          rw [prune] at pruned
          split at pruned
          · cases pruned
          · cases pruned
            exact List.take_subset _ _

namespace ScanPlan

variable {σ : Type} {plan : ScanPlan σ} {seen : List UnspentOutput} {look : Look}
  {scan : Scan σ}

/-! ## The invariant -/

/-- The solution is a settled set of distinct seen outputs that covers the request, as no shorter
first part of it does. -/
structure Settled (plan : ScanPlan σ) (seen : List UnspentOutput) (solution : Solution) : Prop where
  settled : (ofOutputs plan.tuning.fee solution.outputs).settleChecked plan.request.amount =
    .ok solution
  distinct : Distinct solution.outputs
  seen : solution.outputs ⊆ seen
  cover : FirstCover plan.tuning.fee plan.request.amount solution.outputs solution.outputs

theorem Settled.mono {more : List UnspentOutput} {solution : Solution}
    (settled : plan.Settled seen solution) (subset : seen ⊆ more) : plan.Settled more solution :=
  { settled with seen := List.Subset.trans settled.seen subset }

/-- Where the sums are exact, a settled set is a payment. -/
theorem Settled.payment {solution : Solution} (settled : plan.Settled seen solution)
    (exact : ExactAmong plan.tuning.fee plan.request.amount seen) :
    Payment plan.tuning.fee plan.request.amount seen solution.outputs :=
  ⟨settled.distinct, settled.seen,
    (covers_iff_pays (exact.along settled.seen settled.distinct).sums).mp settled.cover.covers⟩

/-- Everything that a scan goes on with was seen, and its best set is settled. -/
structure Sound (plan : ScanPlan σ) (seen : List UnspentOutput) (scan : Scan σ) : Prop where
  distinct : Distinct scan.carried.outputs
  carried : scan.carried.outputs ⊆ seen
  pool : scan.pool ⊆ seen
  best : ∀ solution, scan.best = some solution → plan.Settled seen solution

/-! ## Steps -/

/-- The order of a walk and the pool come from what was seen and from the slice. -/
theorem arranged_subset (plan : ScanPlan σ) (look : Look) (pooled : scan.pool ⊆ seen) :
    (plan.arranged look scan).1 ⊆ seen ++ plan.fresh look ∧
      (plan.arranged look scan).2.pool ⊆ seen ++ plan.fresh look := by
  cases policy : plan.request.policy with
  | random =>
      rw [arranged_of_random policy]
      refine ⟨fun output member => ?_, fun output member => ?_⟩
      · exact List.mem_append_right _ ((plan.random.shuffle_perm _ _).mem_iff.mp member)
      · exact List.mem_append_left _ (pooled member)
  | minimal =>
      rw [arranged_of_minimal policy]
      have merged : Policy.mergePool scan.pool (plan.fresh look) ⊆ seen ++ plan.fresh look :=
        List.Subset.trans (Policy.mergePool_subset _ _)
          (List.append_subset.mpr
            ⟨List.subset_append_of_subset_left _ pooled, List.subset_append_right _ _⟩)
      exact ⟨merged, merged⟩

theorem Sound.startingSet (sound : plan.Sound seen scan) :
    Distinct (plan.request.policy.startingSet scan.carried).outputs ∧
      (plan.request.policy.startingSet scan.carried).outputs ⊆ seen := by
  cases plan.request.policy with
  | random => exact ⟨sound.distinct, sound.carried⟩
  | minimal => exact ⟨List.nodup_nil, List.nil_subset _⟩

theorem Sound.path (sound : plan.Sound seen scan) (look : Look) :
    Distinct (plan.path look scan) ∧ plan.path look scan ⊆ seen ++ plan.fresh look := by
  obtain ⟨distinct, subset⟩ := sound.startingSet
  have order := (plan.arranged_subset look sound.pool).1
  exact ⟨distinct.addEach _,
    addEach_subset (List.subset_append_of_subset_left _ subset) order⟩

/-- Where everything that was seen has exact numbers, nothing halts on a path. -/
theorem Sound.not_halts (sound : plan.Sound seen scan)
    (exact : ExactAmong plan.tuning.fee plan.request.amount (seen ++ plan.fresh look)) :
    ¬ plan.Halts (plan.path look scan) := by
  obtain ⟨distinct, subset⟩ := sound.path look
  exact not_halts_of_exact (exact.along subset distinct)

theorem afterWalk_pool_subset (plan : ScanPlan σ) (covered : Bool) (candidate : Solution)
    (scan : Scan σ) : (plan.afterWalk covered candidate scan).1.pool ⊆ scan.pool := by
  rcases plan.afterWalk_cases covered candidate scan with
    ⟨_, equal⟩ | ⟨_, _, equal⟩ | ⟨_, pool, pruned, equal⟩
  · rw [equal, outcome_pool]
    exact List.Subset.refl _
  · rw [equal, outcome_pool]
    exact List.Subset.refl _
  · rw [equal]
    exact Policy.prune_subset pruned

/-- **A step keeps everything that was seen apart and the best set settled.** -/
theorem Sound.step {next : Scan σ} {goesOn : Bool} (sound : plan.Sound seen scan)
    (step : plan.Step look scan next goesOn) :
    plan.Sound (seen ++ plan.fresh look) next := by
  obtain ⟨distinct, subset⟩ := sound.path look
  have before : ∀ solution, scan.best = some solution →
      plan.Settled (seen ++ plan.fresh look) solution := fun solution best =>
    (sound.best solution best).mono (List.subset_append_left _ _)
  have pool := (plan.arranged_subset look sound.pool).2
  cases step with
  | exhausted _ _ =>
      refine ⟨?_, ?_, List.Subset.trans (plan.afterWalk_pool_subset _ _ _) pool, ?_⟩
      · rw [afterWalk_carried]
        exact distinct
      · rw [afterWalk_carried]
        exact subset
      · rw [afterWalk_best, outcome_best, arranged_best]
        rw [if_neg fun both => Bool.false_ne_true both.1]
        exact before
  | @covered chosen _ cover settles =>
      refine ⟨?_, ?_, List.Subset.trans (plan.afterWalk_pool_subset _ _ _) pool, ?_⟩
      · rw [afterWalk_carried]
        exact List.nodup_nil
      · rw [afterWalk_carried]
        exact List.nil_subset _
      · rw [afterWalk_best, outcome_best, arranged_best]
        intro solution best
        split at best
        next improved =>
          cases best
          exact ⟨if_pos (settles improved.2), distinct.sublist cover.first.sublist,
            List.Subset.trans cover.first.subset subset, cover.self⟩
        next => exact before solution best

/-! ## Runs -/

section Run

variable {slices : List Nat} {final : Scan σ} {trace : ScanTrace} {ending : ScanEnd}

/-- **The best set of a run is settled**, and holds outputs of the slices that were walked. -/
theorem ScanRun.settled (run : plan.ScanRun slices scan trace ending final)
    (sound : plan.Sound seen scan) : ∀ solution, final.best = some solution →
      plan.Settled (seen ++ trace.walked.flatMap plan.fresh) solution := by
  induction run generalizing seen with
  | done scan => simpa using sound.best
  | late _ => simpa using sound.best
  | failed _ _ => simpa [Scan.fetch] using sound.best
  | halted _ _ =>
      rw [arranged_best]
      simpa using sound.best
  | cut _ _ =>
      rw [arranged_best]
      simpa using sound.best
  | stopped _ step => simpa using (sound.step step).best
  | continued _ step _ ih => simpa [ScanTrace.walkedFirst] using ih (sound.step step)

/-- **A run does not fail** when every output that it looks at can be judged and the numbers of
those that it finds are exact. -/
theorem ScanRun.not_failed (run : plan.ScanRun slices scan trace ending final)
    (sound : plan.Sound seen scan) (judged : ∀ look ∈ trace.fetched, plan.SliceJudged look)
    (exact : ExactAmong plan.tuning.fee plan.request.amount
      (seen ++ trace.fetched.flatMap plan.fresh)) (error : QueryError) :
    ending ≠ .failed error := by
  induction run generalizing seen with
  | done scan => exact nofun
  | late _ => exact nofun
  | failed member fails =>
      exact absurd fails ((judged _ (List.mem_singleton_self _)).not_fails member _)
  | halted _ halts =>
      rw [List.flatMap_singleton] at exact
      exact absurd halts (sound.not_halts exact)
  | cut _ _ => exact nofun
  | stopped _ _ => exact nofun
  | continued _ step _ ih =>
      refine ih (sound.step step)
        (fun look member => judged look (List.mem_cons_of_mem _ member)) ?_
      simpa [ScanTrace.walkedFirst] using exact

end Run

end ScanPlan

end CoinLedger
