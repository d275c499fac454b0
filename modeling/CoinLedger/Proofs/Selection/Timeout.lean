import CoinLedger.Proofs.Selection.Agreement
import Mathlib

/-!
# Selections with more time

More time changes nothing before the shorter time has run out: walks and visits that end in time end
in the same way (`walk_withTimeout`, `visit_withTimeout`).  So a scan with more time is the same
scan, or it goes on from where the other one was interrupted, with the best set of that one
(`scanSlices_withTimeout`).  A scan that goes on does not fail where every output can be judged and
the numbers are exact at all times (`ExactEver`).  A minimal scan that goes on only replaces its
best set by a smaller one (`ScanRun.best_le`), and a random scan that is interrupted has none yet
(`ScanRun.unsolved_of_expired`).  Hence no answer gets worse with more time (`select_withTimeout`).
-/

set_option autoImplicit false

namespace CoinLedger

open UnspentOutput Solution

variable {σ : Type}

namespace ScanPlan

/-- The plan with another timeout, for the same start. -/
def withTimeout (plan : ScanPlan σ) (timeout : Nat) : ScanPlan σ :=
  { plan with
    tuning := { plan.tuning with timeout }
    deadline := { plan.deadline with budget := timeout } }

variable {plan : ScanPlan σ} {timeout : Nat} {slice : Nat} {slices : List Nat}
  {look : Look} {scan final : Scan σ} {trace : ScanTrace} {ending : ScanEnd}

@[simp] theorem usableOutputs_withTimeout (outputs : List UnspentOutput) :
    (plan.withTimeout timeout).usableOutputs outputs = plan.usableOutputs outputs := by
  induction outputs with
  | nil => rfl
  | cons output rest ih =>
      rw [usableOutputs, usableOutputs, ih]
      rfl

@[simp] theorem sliceOutputs_withTimeout :
    (plan.withTimeout timeout).sliceOutputs = plan.sliceOutputs := rfl

@[simp] theorem arrange_withTimeout :
    (plan.withTimeout timeout).arrange = plan.arrange := rfl

@[simp] theorem request_withTimeout :
    (plan.withTimeout timeout).request = plan.request := rfl

@[simp] theorem fee_withTimeout :
    (plan.withTimeout timeout).tuning.fee = plan.tuning.fee := rfl

/-! ## While the shorter time lasts -/

section Longer

variable (longer : plan.deadline.budget ≤ timeout)

include longer

theorem not_expired_withTimeout {reads : Nat}
    (inTime : ¬ plan.deadline.expired (plan.source.clock.reading reads) = true) :
    ¬ (plan.withTimeout timeout).deadline.expired
      ((plan.withTimeout timeout).source.clock.reading reads) = true := by
  rw [Deadline.expired, decide_eq_true_eq, Nat.not_lt] at inTime ⊢
  exact inTime.trans longer

/-- A walk that ends in time ends in the same way with more time. -/
theorem walk_withTimeout {order : List UnspentOutput} {candidate chosen : Solution}
    {session after : Session} {ending : WalkEnd}
    (run : (plan.walk order candidate).run session = ((ending, chosen), after))
    (inTime : ending ≠ .expired) :
    ((plan.withTimeout timeout).walk order candidate).run session =
      ((ending, chosen), after) := by
  induction order generalizing candidate session with
  | nil => exact run
  | cons output rest ih =>
      rw [walk_cons_run] at run ⊢
      split at run
      next =>
        cases run
        exact absurd rfl inTime
      next notLate =>
        rw [if_neg (not_expired_withTimeout longer notLate)]
        rw [fee_withTimeout]
        revert run
        cases candidate.addChecked plan.tuning.fee output with
        | error _ => exact id
        | ok candidate =>
            dsimp only
            intro run
            split at run
            next covers => exact (if_pos covers).trans run
            next still => exact (if_neg still).trans (ih run)

/-- A visit that ends in time ends in the same way with more time. -/
theorem visit_withTimeout {session : Session}
    (inTime : (plan.visit slice scan session).1.inTime = true) :
    (plan.withTimeout timeout).visit slice scan session = plan.visit slice scan session := by
  unfold visit at inTime ⊢
  split at inTime
  next => cases inTime
  next notLate =>
    rw [if_neg (not_expired_withTimeout longer notLate), if_neg notLate, usableOutputs_withTimeout,
      sliceOutputs_withTimeout]
    revert inTime
    rcases (plan.usableOutputs (plan.sliceOutputs slice)).runIn session.afterReading with
      ⟨error | fresh, after⟩
    · exact fun _ => rfl
    · dsimp only
      rw [arrange_withTimeout, request_withTimeout]
      rcases ran : (plan.walk (plan.arrange scan.fetch fresh).1
          (plan.request.policy.startingSet (plan.arrange scan.fetch fresh).2.carried)).run
          after with
        ⟨⟨ending, candidate⟩, later⟩
      intro inTime
      rw [walk_withTimeout longer ran (by rintro rfl; cases inTime)]
      rfl

/-! ## Behind an interruption -/

/-- What becomes of a run with more time: it ends in the same way, or, where the run was
interrupted, it goes on from there with the best set of that run. -/
inductive Prolongs (later : ScanPlan σ) :
    (ScanEnd × Scan σ) × Session → (ScanEnd × Scan σ) × Session → Prop
  | same (result : (ScanEnd × Scan σ) × Session) : Prolongs later result result
  | resumed {walked : List Look} {slices : List Nat} {scan interrupted final : Scan σ}
      {trace : ScanTrace} {ending : ScanEnd} {after last : Session} :
      later.Sound (walked.flatMap later.fresh) scan → scan.best = interrupted.best →
      later.ScanRun slices scan trace ending final →
      Prolongs later ((.expired, interrupted), after) ((ending, final), last)

variable (plan timeout) in
/-- **A scan with more time prolongs the scan with less.** -/
theorem scanSlices_withTimeout (slices : List Nat) {walked : List Look} {scan : Scan σ}
    {session : Session} (faithful : session.cache.Faithful plan.source.ledger.readBlock)
    (carries : plan.CarriesUncovered scan)
    (sound : (plan.withTimeout timeout).Sound (walked.flatMap (plan.withTimeout timeout).fresh)
      scan) :
    Prolongs (plan.withTimeout timeout) ((plan.scanSlices slices scan).run session)
      (((plan.withTimeout timeout).scanSlices slices scan).run session) := by
  induction slices generalizing walked scan session with
  | nil => exact .same _
  | cons slice rest ih =>
      obtain ⟨visited, -, -, -⟩ := plan.visit_run slice faithful carries
      obtain ⟨later, cached, -, -⟩ :=
        (plan.withTimeout timeout).visit_run slice faithful carries
      have same : (plan.visit slice scan session).1.inTime = true →
          (plan.withTimeout timeout).visit slice scan session =
            plan.visit slice scan session := visit_withTimeout longer
      obtain ⟨ending, final, last, run, scanRun, -⟩ :=
        (plan.withTimeout timeout).scanSlices_scanRun (slice :: rest) faithful carries
      rcases seen : plan.visit slice scan session with ⟨visit, after⟩
      rw [seen] at visited same
      dsimp only at visited same
      rw [plan.scanSlices_cons_run, seen]
      cases visit with
      | late =>
          rw [run]
          exact .resumed sound rfl scanRun
      | cut arranged =>
          rw [run]
          refine .resumed sound ?_ scanRun
          cases visited
          exact (plan.arranged_best _ scan).symm
      | failed error failing =>
          rw [scanSlices_cons_run, same rfl]
          exact .same _
      | walked next goesOn =>
          rw [same rfl] at later cached
          rw [scanSlices_cons_run, same rfl]
          cases goesOn with
          | false => exact .same _
          | true =>
              cases later with
              | walked _ step =>
                  have sounder := sound.step step
                  rw [← List.flatMap_singleton (plan.withTimeout timeout).fresh,
                    ← List.flatMap_append] at sounder
                  exact ih cached step.carriesUncovered sounder

end Longer

/-- A step of a minimal scan replaces its best set only by a smaller one. -/
theorem Step.best_le {next : Scan σ} {goesOn : Bool} (step : plan.Step look scan next goesOn)
    (deterministic : plan.request.policy = .minimal) {solution : Solution}
    (found : scan.best = some solution) :
    ∃ other, next.best = some other ∧ other.size ≤ solution.size := by
  have after (covered : Bool) (candidate : Solution) :
      ∃ other, (plan.afterWalk covered candidate (plan.arranged look scan).2).1.best = some other ∧
        other.size ≤ solution.size := by
    rw [afterWalk_best]
    rcases outcome_best_cases deterministic look scan covered candidate with
      ⟨_, improves, best⟩ | ⟨_, best⟩
    · exact ⟨_, best, Nat.le_of_lt (improves solution found)⟩
    · exact ⟨solution, best.trans found, Nat.le_refl _⟩
  cases step with
  | exhausted _ _ => exact after _ _
  | covered _ _ _ => exact after _ _

/-- **A minimal scan replaces its best set only by smaller ones.** -/
theorem ScanRun.best_le (run : plan.ScanRun slices scan trace ending final)
    (deterministic : plan.request.policy = .minimal) {solution : Solution}
    (found : scan.best = some solution) :
    ∃ other, final.best = some other ∧ other.size ≤ solution.size := by
  induction run generalizing solution with
  | done scan => exact ⟨solution, found, Nat.le_refl _⟩
  | late _ => exact ⟨solution, found, Nat.le_refl _⟩
  | failed _ _ => exact ⟨solution, found, Nat.le_refl _⟩
  | halted _ _ => exact ⟨solution, (arranged_best _ _ _).trans found, Nat.le_refl _⟩
  | cut _ _ => exact ⟨solution, (arranged_best _ _ _).trans found, Nat.le_refl _⟩
  | stopped _ step => exact step.best_le deterministic found
  | continued _ step _ ih =>
      obtain ⟨middle, best, fewer⟩ := step.best_le deterministic found
      obtain ⟨other, last, fewest⟩ := ih best
      exact ⟨other, last, fewest.trans fewer⟩

/-- A random scan goes on only while it has no solution. -/
theorem Step.unsolved_of_goesOn {next : Scan σ} {goesOn : Bool}
    (step : plan.Step look scan next goesOn) (random : plan.request.policy = .random)
    (goes : goesOn = true) (unsolved : scan.best = none) : next.best = none := by
  cases step with
  | exhausted _ _ =>
      rw [(afterWalk_random random _ _ _).2.1, arranged_best]
      exact unsolved
  | covered _ _ _ =>
      rw [(afterWalk_random random _ _ _).1] at goes
      cases goes

/-- **A random scan that is interrupted has no solution.** -/
theorem ScanRun.unsolved_of_expired (run : plan.ScanRun slices scan trace ending final)
    (random : plan.request.policy = .random) (interrupted : ending = .expired)
    (unsolved : scan.best = none) : final.best = none := by
  induction run with
  | done scan => exact unsolved
  | late _ => exact unsolved
  | failed _ _ => cases interrupted
  | halted _ _ => cases interrupted
  | cut _ _ => exact (arranged_best _ _ _).trans unsolved
  | stopped _ _ => cases interrupted
  | continued _ step _ ih => exact ih interrupted (step.unsolved_of_goesOn random rfl unsolved)

end ScanPlan

/-! ## Answers -/

/-- An answer is no worse than another one: it has a solution with no more outputs, the same one
from a random selection, and it is the same where the outputs do not pay or there are none. -/
structure NoWorse (policy : Policy) (answer later : Answer Solution) : Prop where
  solved : ∀ solution, answer = .ok solution →
    ∃ other, later = .ok other ∧ other.size ≤ solution.size ∧
      (policy = .random → other = solution)
  insufficient : ∀ requested, answer = .error (.balanceInsufficient requested) →
    later = .error (.balanceInsufficient requested)
  noOutputs : answer = .error .noUnspentOutputs → later = .error .noUnspentOutputs

namespace NoWorse

variable {policy : Policy}

theorem refl (answer : Answer Solution) : NoWorse policy answer answer where
  solved solution found := ⟨solution, found, Nat.le_refl _, fun _ => rfl⟩
  insufficient _ same := same
  noOutputs same := same

/-- Nothing is asked of the answer that follows a timeout without a solution. -/
theorem of_timedOut (elapsed : Nat) (later : Answer Solution) :
    NoWorse policy (.error (.selectionTimedOut elapsed)) later :=
  ⟨nofun, nofun, nofun⟩

theorem of_ok {solution other : Solution} (fewer : other.size ≤ solution.size)
    (same : policy = .random → other = solution) : NoWorse policy (.ok solution) (.ok other) where
  solved found equal := by
    cases equal
    exact ⟨other, rfl, fewer, same⟩
  insufficient _ := nofun
  noOutputs := nofun

end NoWorse

/-- A scan that did not fail and has a best set ends with it. -/
theorem Concluded.eq_ok {request : SelectionRequest} {ending : ScanEnd} {best : Option Solution}
    {answer : Answer Solution} (concluded : Concluded request ending best answer)
    (succeeds : ∀ error, ending ≠ .failed error) {solution : Solution}
    (found : best = some solution) : answer = .ok solution := by
  cases concluded with
  | failed error _ => exact absurd rfl (succeeds error)
  | solvedInTime _ =>
      cases found
      rfl
  | solvedBefore _ =>
      cases found
      rfl
  | timedOut _ => cases found
  | insufficient => cases found

namespace Source

variable {source : Source} {tuning : SelectionTuning} {timeout : Nat} {request : SelectionRequest}
  {key : AddressKey}

/-- No number that is formed for distinct outputs of a key leaves its range, whenever each of them
is spendable. -/
def ExactEver (source : Source) (tuning : SelectionTuning) (request : SelectionRequest)
    (key : AddressKey) : Prop :=
  ∀ chosen ⊆ source.ledger.unspent key, Distinct chosen →
    (∀ output ∈ chosen, ∃ reads,
      source.Spendable (source.referenceTime reads) tuning request key output) →
    ExactNumbers tuning.fee request.amount chosen

/-- Numbers that are exact at all times are exact among what looks at slices find. -/
theorem ExactEver.among {plan : ScanPlan σ}
    (exact : plan.source.ExactEver plan.tuning plan.request plan.key) (looks : List Look) :
    ExactAmong plan.tuning.fee plan.request.amount (looks.flatMap plan.fresh) := by
  intro chosen subset distinct
  refine exact chosen (List.Subset.trans subset (plan.flatMap_fresh_subset looks)) distinct ?_
  intro output member
  obtain ⟨look, -, found⟩ := List.mem_flatMap.mp (subset member)
  obtain ⟨-, reads, -, -, spendable⟩ := ScanPlan.exists_of_mem_fresh found
  exact ⟨reads, spendable⟩

/-- The time that a timeout tells does not depend on how long the timeout is. -/
theorem concludeScan_withTimeout (plan : ScanPlan σ) (timeout : Nat) (ending : ScanEnd)
    (best : Option Solution) :
    source.concludeScan plan.request (plan.withTimeout timeout).deadline ending best =
      source.concludeScan plan.request plan.deadline ending best := by
  cases ending <;> cases best <;> rfl

/-- A selection whose scan is prolonged has an answer that is no worse. -/
theorem noWorse_of_prolongs {plan : ScanPlan σ} {seed : σ} {trace : ScanTrace}
    {short long : (ScanEnd × Scan σ) × Session}
    (prolongs : (plan.withTimeout timeout).Prolongs short long)
    (run : plan.ScanRun (plan.visits seed) (plan.opening seed) trace short.1.1 short.1.2)
    (judged : ∀ look, (plan.withTimeout timeout).SliceJudged look)
    (exact : ∀ looks : List Look, ExactAmong plan.tuning.fee plan.request.amount
      (looks.flatMap (plan.withTimeout timeout).fresh)) :
    NoWorse plan.request.policy
      ((source.concludeScan plan.request plan.deadline short.1.1 short.1.2.best).run short.2).1
      ((source.concludeScan plan.request (plan.withTimeout timeout).deadline long.1.1
        long.1.2.best).run long.2).1 := by
  rw [concludeScan_withTimeout]
  cases prolongs with
  | same => exact .refl _
  | @resumed walked _ _ interrupted final trace ending after last sound best resumed =>
      dsimp only at run ⊢
      have succeeds : ∀ error, ending ≠ .failed error :=
        resumed.not_failed sound (fun look _ => judged look)
          (List.flatMap_append ▸ exact (walked ++ trace.fetched))
      obtain ⟨concluded, -⟩ :=
        source.concludeScan_concluded plan.request plan.deadline ending final.best last
      cases solved : interrupted.best with
      | none => exact .of_timedOut _ _
      | some solution =>
          cases drawn : plan.request.policy with
          | random => cases solved.symm.trans (run.unsolved_of_expired drawn rfl rfl)
          | minimal =>
              obtain ⟨other, found, fewer⟩ := resumed.best_le drawn (best.trans solved)
              rw [concluded.eq_ok succeeds found]
              exact .of_ok fewer nofun

/-- **More time makes no answer of a selection worse.** -/
theorem select_withTimeout (longer : tuning.timeout ≤ timeout) {address : String}
    (judged : ∀ key, source.network.resolve address = .ok key →
      ∀ output ∈ source.ledger.unspent key, ∀ reads,
        source.Judged (source.referenceTime reads) request key output)
    (exact : ∀ key, source.network.resolve address = .ok key →
      source.ExactEver tuning request key)
    (random : RandomSource σ) (seed : σ) (session : Session) :
    NoWorse request.policy
      ((source.select tuning random seed address request).run session).1
      ((source.select { tuning with timeout } random seed address request).run session).1 := by
  rw [select_run, select_run]
  cases accepted : Amount.check request.amount with
  | error error => exact .refl _
  | ok _ =>
      cases resolved : source.network.resolve address with
      | error error => exact .refl _
      | ok key =>
          obtain ⟨plan, planned⟩ : ∃ plan,
              plan = source.scanPlan tuning random request key session := ⟨_, rfl⟩
          have later : plan.withTimeout timeout =
              source.scanPlan { tuning with timeout } random request key session := by
            rw [planned]
            rfl
          dsimp only [Except.bind]
          rw [solve_run planned, solve_run later]
          split
          next => exact .refl _
          next =>
            split
            next =>
              obtain ⟨ending, final, after, ran, run, -⟩ :=
                plan.scanSlices_scanRun (plan.visits seed) (plan.faithful_openingSession session)
                  (plan.carriesUncovered_opening seed)
              have budget : plan.deadline.budget ≤ timeout := by
                rw [planned]
                exact longer
              have prolongs := plan.scanSlices_withTimeout timeout budget (plan.visits seed)
                (plan.faithful_openingSession session) (plan.carriesUncovered_opening seed)
                (List.flatMap_nil ▸ (plan.withTimeout timeout).sound_opening seed)
              rw [ScanPlan.search_run, ScanPlan.search_run]
              rw [ran] at prolongs ⊢
              subst planned
              refine noWorse_of_prolongs prolongs run (fun look output member => ?_) fun looks => ?_
              · exact judged key resolved output.1 (ScanPlan.sliceOutputs_subset _ _
                  (ScanPlan.mem_sliceOutputs_of_mem_seen member)) output.2
              · exact (exact key resolved).among looks
            next => exact .refl _

/-- Three outputs in slices of two, read with a clock that moves on by a millisecond at a time. -/
def hurried : Source :=
  { Source.paying [300000, 300000, 700000] with clock := .stepping 1000 }

/-- Three milliseconds are just enough for the first slice.  With a second a minimal selection goes
on from there and finds one output that pays alone; a random one has the same solution. -/
theorem select_withTimeout_hurried :
    (∃ solution other,
      ((hurried.select { sliceSize := 2, timeout := 3000000 } .seeded 0 AddressKey.onesAddress
        { amount := 450000 }).run {}).1 = .ok solution ∧
      ((hurried.select { sliceSize := 2, timeout := 1000000000 } .seeded 0 AddressKey.onesAddress
        { amount := 450000 }).run {}).1 = .ok other ∧
      other.size ≤ solution.size ∧ solution.size = 2 ∧ other.size = 1) ∧
    ∃ solution,
      ((hurried.select { sliceSize := 2, timeout := 3000000 } .seeded 0 AddressKey.onesAddress
        { amount := 450000, policy := .random }).run {}).1 = .ok solution ∧
      ((hurried.select { sliceSize := 2, timeout := 1000000000 } .seeded 0 AddressKey.onesAddress
        { amount := 450000, policy := .random }).run {}).1 = .ok solution := by
  have judged (request : SelectionRequest) : ∀ key,
      hurried.network.resolve AddressKey.onesAddress = .ok key →
        ∀ output ∈ hurried.ledger.unspent key, ∀ reads,
          hurried.Judged (hurried.referenceTime reads) request key output := by
    intro key resolved output member reads
    cases Network.resolve_onesAddress.symm.trans resolved
    have below : hurried.ledger.tipHeight < Int32.maxValue := by decide
    have found : ∀ output ∈ hurried.ledger.unspent .ones,
        (hurried.lockOutput output.height output.txid .ones).toOption.isSome = true := by
      decide +kernel
    obtain ⟨locks, looked⟩ := Option.isSome_iff_exists.mp (found output member)
    exact ⟨⟨locks, Answer.eq_ok_of_toOption looked⟩, fun _ _ _ =>
      Ledger.depth_le_maxValue below⟩
  have among : ExactAmong {} 450000 (hurried.ledger.unspent .ones) :=
    .of_nonneg (by decide +kernel) (by decide +kernel) (by decide +kernel) (by decide +kernel)
      (by decide +kernel)
  have exact (policy : Policy) : ∀ key,
      hurried.network.resolve AddressKey.onesAddress = .ok key →
        hurried.ExactEver { sliceSize := 2, timeout := 3000000 } { amount := 450000, policy }
          key := by
    intro key resolved chosen subset distinct _
    cases Network.resolve_onesAddress.symm.trans resolved
    exact among chosen subset distinct
  have longer : ({ sliceSize := 2, timeout := 3000000 } : SelectionTuning).timeout ≤
      1000000000 := by
    decide
  have minimal := select_withTimeout longer (judged { amount := 450000 }) (exact .minimal)
    .seeded 0 {}
  have random := select_withTimeout longer (judged { amount := 450000, policy := .random })
    (exact .random) .seeded 0 {}
  have first : ((hurried.select { sliceSize := 2, timeout := 3000000 } .seeded 0
      AddressKey.onesAddress { amount := 450000 }).run {}).1.toOption.map Solution.size =
        some 2 := by
    rw [select_run_fst rfl Network.resolve_onesAddress]
    cbv
  have second : ((hurried.select { sliceSize := 2, timeout := 1000000000 } .seeded 0
      AddressKey.onesAddress { amount := 450000 }).run {}).1.toOption.map Solution.size =
        some 1 := by
    rw [select_run_fst rfl Network.resolve_onesAddress]
    cbv
  constructor
  · obtain ⟨solution, solved, pair⟩ := Option.map_eq_some_iff.mp first
    obtain ⟨other, later, fewer, -⟩ := minimal.solved solution (Answer.eq_ok_of_toOption solved)
    rw [later] at second
    exact ⟨solution, other, Answer.eq_ok_of_toOption solved, later, fewer, pair,
      Option.some.inj second⟩
  · obtain ⟨solution, solved⟩ := Option.isSome_iff_exists.mp (show
      ((hurried.select { sliceSize := 2, timeout := 3000000 } .seeded 0 AddressKey.onesAddress
        { amount := 450000, policy := .random }).run {}).1.toOption.isSome = true by
          decide +kernel)
    obtain ⟨other, later, -, same⟩ := random.solved solution (Answer.eq_ok_of_toOption solved)
    cases same rfl
    exact ⟨solution, Answer.eq_ok_of_toOption solved, later⟩

end Source

end CoinLedger
