import CoinLedger.Proofs.Selection.Timeout

/-!
# Work before a deadline

The work of a scan are the slices that it fetches and the outputs that it walks.  Each of these
steps is guarded by a reading of the clock, so a clock that moves on by a fixed step bounds the work
by the budget (`Guarded.steps_le`).

A slice whose walk covers the request leaves a best set, unless its change is no amount, and the
best set is never lost.  Without one a scan that did not fail covered nothing, and unless it was
stopped it fetched all slices (`scanSlices_works`).  Hence the answer of a selection tells how far
it came (`select_withinDeadline`).
-/

set_option autoImplicit false

namespace CoinLedger

variable {σ : Type}

namespace ScanWork

/-- Work that was not late, and the work after it. -/
def followedBy (work rest : ScanWork) : ScanWork where
  fetched := work.fetched ++ rest.fetched
  outputs := work.outputs ++ rest.outputs
  covering := work.covering ++ rest.covering
  late := rest.late

theorem fetched_followedBy (work rest : ScanWork) :
    (work.followedBy rest).fetched = work.fetched ++ rest.fetched := rfl

theorem covering_followedBy (work rest : ScanWork) :
    (work.followedBy rest).covering = work.covering ++ rest.covering := rfl

theorem steps_followedBy (work rest : ScanWork) :
    (work.followedBy rest).steps = work.steps + rest.steps := by
  simp only [steps, followedBy, List.length_append]
  omega

end ScanWork

/-- Nothing is pruned without a best set. -/
theorem Policy.prune_none (policy : Policy) (pool : List UnspentOutput) :
    policy.prune none pool = some pool := by
  cases policy <;> rfl

namespace ScanPlan

/-! ## Visits -/

variable (plan : ScanPlan σ)

theorem frame_arrange (scan : Scan σ) (fresh : List UnspentOutput) :
    (plan.arrange scan fresh).2.best = scan.best ∧
      (plan.arrange scan fresh).2.slices = scan.slices := by
  unfold arrange
  split <;> exact ⟨rfl, rfl⟩

section AfterWalk

variable (covered : Bool) (candidate : Solution) (scan : Scan σ)

theorem slices_afterWalk : (plan.afterWalk covered candidate scan).1.slices = scan.slices := by
  have outcome : (plan.outcome covered candidate scan).slices = scan.slices := by
    unfold outcome afterCover
    split
    · split <;> rfl
    · rfl
  rw [← outcome]
  rcases plan.afterWalk_cases covered candidate scan with
    ⟨_, equal⟩ | ⟨_, _, equal⟩ | ⟨_, _, _, equal⟩ <;> rw [equal]

/-- Without a best set after a walk there was none before, the walk covered nothing, and the scan
goes on. -/
theorem unsolved_afterWalk (unsolved : (plan.afterWalk covered candidate scan).1.best = none) :
    scan.best = none ∧ covered = false ∧ (plan.afterWalk covered candidate scan).2 = true := by
  rw [afterWalk_best] at unsolved
  have best := unsolved
  rw [outcome_best] at best
  split at best
  next => cases best
  next refused =>
    have still : covered = false := by
      rw [← Bool.not_eq_true]
      intro covers
      refine refused ⟨covers, ?_⟩
      rw [best]
      rfl
    refine ⟨best, still, ?_⟩
    rcases plan.afterWalk_cases covered candidate scan with
      ⟨accepts, _⟩ | ⟨_, pruned, _⟩ | ⟨_, _, _, equal⟩
    · exact absurd (still.symm.trans accepts.1) Bool.false_ne_true
    · rw [unsolved, Policy.prune_none] at pruned
      cases pruned
    · rw [equal]

end AfterWalk

/-- What becomes of a scan in a visit, by the work of the visit. -/
inductive VisitWorks (slice : Nat) (scan : Scan σ) : Visit σ → ScanWork → Prop
  | late : VisitWorks slice scan .late { late := true }
  | failed {failing : Scan σ} (error : QueryError) (outputs : List UnspentOutput)
      (covering : List Nat) : failing.slices = scan.slices + 1 →
      VisitWorks slice scan (.failed error failing) { fetched := [slice], outputs, covering }
  | cut {arranged : Scan σ} (outputs : List UnspentOutput) : arranged.best = scan.best →
      arranged.slices = scan.slices + 1 →
      VisitWorks slice scan (.cut arranged) { fetched := [slice], outputs, late := true }
  | walked {next : Scan σ} {goesOn : Bool} (outputs : List UnspentOutput) {covering : List Nat} :
      next.slices = scan.slices + 1 →
      (next.best = none → scan.best = none ∧ covering = [] ∧ goesOn = true) →
      VisitWorks slice scan (.walked next goesOn) { fetched := [slice], outputs, covering }

/-- What a visit comes to that did not run out of time. -/
theorem afterVisit_works (slice : Nat) {scan arranged : Scan σ} (covered : Bool)
    (candidate : Solution) (outputs : List UnspentOutput) (best : arranged.best = scan.best)
    (slices : arranged.slices = scan.slices + 1) :
    VisitWorks slice scan (plan.afterVisit covered candidate arranged)
      { fetched := [slice], outputs, covering := if covered then [slice] else [] } := by
  have counted := plan.slices_afterWalk covered candidate arranged
  have unsolved := plan.unsolved_afterWalk covered candidate arranged
  rw [slices] at counted
  rw [best] at unsolved
  unfold afterVisit
  split
  next =>
    refine .walked outputs counted fun none => ?_
    obtain ⟨before, rfl, goesOn⟩ := unsolved none
    exact ⟨before, rfl, goesOn⟩
  next => exact .failed _ outputs _ slices

/-- **A visit loses no best set**, and a walk that covers the request leaves one. -/
theorem visit_works (slice : Nat) (scan : Scan σ) (session : Session) :
    VisitWorks slice scan (plan.visit slice scan session).1
      (plan.visitWork slice scan session) := by
  unfold visit visitWork
  split
  next => exact .late
  next =>
    rcases (plan.usableOutputs (plan.sliceOutputs slice)).runIn session.afterReading with
      ⟨error | fresh, after⟩
    · exact .failed error [] [] rfl
    · obtain ⟨best, slices⟩ := plan.frame_arrange scan.fetch fresh
      dsimp only
      generalize plan.walkedOutputs _ _ after = outputs
      generalize (plan.arrange scan.fetch fresh).2 = arranged at best slices ⊢
      rcases (plan.walk (plan.arrange scan.fetch fresh).1
        (plan.request.policy.startingSet arranged.carried)).run after with
          ⟨⟨_ | _ | _ | _, candidate⟩, later⟩
      · exact plan.afterVisit_works slice (WalkEnd.exhausted = .covered) candidate outputs best
          slices
      · exact plan.afterVisit_works slice (WalkEnd.covered = .covered) candidate outputs best
          slices
      · exact .cut outputs best slices
      · exact .failed _ outputs [] slices

/-! ## Scans -/

/-- The work of a scan over slices. -/
def work (plan : ScanPlan σ) : List Nat → Scan σ → Session → ScanWork
  | [], _, _ => {}
  | slice :: rest, scan, session =>
    match plan.visit slice scan session with
    | (.walked next true, after) =>
      (plan.visitWork slice scan session).followedBy (plan.work rest next after)
    | _ => plan.visitWork slice scan session

/-- What a scan in a session comes to, by its work. -/
structure RunWorks (slices : List Nat) (scan : Scan σ) (session : Session) (work : ScanWork)
    (run : (ScanEnd × Scan σ) × Session) : Prop where
  guarded : plan.Guarded session run.2 work.steps work.late
  counted : run.1.2.slices = scan.slices + work.fetched.length
  expired_iff : run.1.1 = .expired ↔ work.late = true
  unsolved : (∀ error, run.1.1 ≠ .failed error) → run.1.2.best = none →
    scan.best = none ∧ work.covering = []
  whole : run.1.1 = .finished → run.1.2.best = none → work.fetched = slices

/-- **Every step of a scan is guarded**, and without a best set it covered nothing. -/
theorem scanSlices_works (slices : List Nat) (scan : Scan σ) (session : Session) :
    plan.RunWorks slices scan session (plan.work slices scan session)
      ((plan.scanSlices slices scan).run session) := by
  induction slices generalizing scan session with
  | nil =>
      refine ⟨.idle rfl, rfl, ?_, fun _ none => ⟨none, rfl⟩, fun _ _ => rfl⟩
      simp [work, scanSlices]
  | cons slice rest ih =>
      rw [scanSlices_cons_run, work]
      have works := plan.visit_works slice scan session
      have guarded := (plan.visit_guarded slice scan session).1
      generalize plan.visitWork slice scan session = first at works guarded ⊢
      generalize plan.visit slice scan session = visited at works guarded ⊢
      obtain ⟨visit, after⟩ := visited
      cases works with
      | late => exact ⟨guarded, rfl, by simp, fun _ none => ⟨none, rfl⟩, by rintro ⟨⟩⟩
      | failed error outputs covering counted =>
          exact ⟨guarded, counted, by simp, fun succeeds => absurd rfl (succeeds error),
            by rintro ⟨⟩⟩
      | cut outputs best counted =>
          exact ⟨guarded, counted, by simp, fun _ none => ⟨best.symm.trans none, rfl⟩,
            by rintro ⟨⟩⟩
      | @walked next goesOn outputs covering counted unsolved =>
          cases goesOn with
          | false =>
              refine ⟨guarded, counted, by simp, fun _ none => ?_, fun _ none => ?_⟩
              · exact ⟨(unsolved none).1, (unsolved none).2.1⟩
              · cases (unsolved none).2.2
          | true =>
              have later := ih next after
              dsimp only
              refine ⟨?_, ?_, later.expired_iff, fun succeeds none => ?_, fun finished none => ?_⟩
              · rw [ScanWork.steps_followedBy]
                exact guarded.append later.guarded
              · rw [later.counted, counted, ScanWork.fetched_followedBy, List.length_append,
                  List.length_singleton, Nat.add_assoc]
              · -- A best set stays, so a scan that ends without one had none after this visit.
                obtain ⟨before, covered⟩ := later.unsolved succeeds none
                obtain ⟨start, uncovered, _⟩ := unsolved before
                refine ⟨start, ?_⟩
                rw [ScanWork.covering_followedBy, uncovered, covered, List.append_nil]
              · exact congrArg (slice :: ·) (later.whole finished none)

end ScanPlan

/-! ## Clocks that move on -/

/-- A clock that was read less often than its time wraps shows exact multiples of its step. -/
theorem Clock.reading_stepping {step : UInt64} {unixTime : Int64} {earlier : Nat}
    (unwrapped : earlier * step.toNat < 2 ^ 64) :
    (Clock.stepping step unixTime).reading earlier =
      earlier * (step.toNat * Clock.nanosPerMicro) := by
  change (UInt64.ofNat earlier * step).toNat * Clock.nanosPerMicro = _
  rw [UInt64.toNat_mul, UInt64.toNat_ofNat', Nat.mod_mul_mod, Nat.mod_eq_of_lt unwrapped,
    Nat.mul_assoc]

namespace ScanPlan

/-- The deadline starts with a reading of a clock that moves on by a fixed step and does not wrap
before the given number of readings. -/
structure Ticking (plan : ScanPlan σ) (step : UInt64) (first reads : Nat) : Prop where
  started : plan.deadline.started = plan.source.clock.reading first
  stepping : ∃ unixTime, plan.source.clock = .stepping step unixTime
  unwrapped : ∀ earlier < reads, earlier * step.toNat < 2 ^ 64

section Ticking

variable {plan : ScanPlan σ} {step : UInt64} {first reads count : Nat}
  (ticking : plan.Ticking step first reads)

include ticking

theorem Ticking.elapsed (before : first + count < reads) :
    plan.deadline.elapsed (plan.source.clock.reading (first + count)) =
      count * (step.toNat * Clock.nanosPerMicro) := by
  obtain ⟨unixTime, clock⟩ := ticking.stepping
  rw [Deadline.elapsed, ticking.started, clock, Clock.reading_stepping (ticking.unwrapped _ before),
    Clock.reading_stepping (ticking.unwrapped _ (by omega)), Nat.add_mul, Nat.add_sub_cancel_left]

/-- A reading is past the deadline when so many steps are longer than the budget. -/
theorem Ticking.expired_iff (before : first + count < reads) :
    plan.deadline.expired (plan.source.clock.reading (first + count)) = true ↔
      plan.deadline.budget < count * (step.toNat * Clock.nanosPerMicro) := by
  rw [Deadline.expired, decide_eq_true_eq, ticking.elapsed before]

variable {session after : Session} {steps : Nat} {late : Bool}

/-- **Guarded steps fit into the budget.** -/
theorem Guarded.steps_le (guarded : plan.Guarded session after steps late) (moves : 0 < step)
    (begins : session.clockReads = first + 1) (last : after.clockReads ≤ reads) :
    steps ≤ plan.deadline.budget / (step.toNat * Clock.nanosPerMicro) := by
  have positive : 0 < step.toNat * Clock.nanosPerMicro :=
    Nat.mul_pos (UInt64.lt_iff_toNat_lt.mp moves) (by decide)
  have total := guarded.reads
  rw [Nat.le_div_iff_mul_le positive]
  cases steps with
  | zero => exact (Nat.zero_mul _).trans_le (Nat.zero_le _)
  | succ before =>
      -- The reading before the last step lies as many steps of the clock after the start.
      have inTime := guarded.inTime before (Nat.lt_succ_self before)
      rw [begins, Nat.add_assoc, Nat.add_comm 1, ticking.expired_iff (by omega)] at inTime
      exact Nat.not_lt.mp inTime

/-- After a reading past the deadline the time that the next one shows is over the budget. -/
theorem Guarded.budget_le (guarded : plan.Guarded session after steps true)
    (begins : session.clockReads = first + 1) (last : after.clockReads < reads) :
    plan.deadline.budget ≤ plan.deadline.elapsed (plan.source.clock.reading after.clockReads) := by
  have total : after.clockReads = first + (steps + 2) := by
    rw [guarded.reads, begins]
    change first + 1 + steps + 1 = _
    omega
  have past := guarded.past rfl
  rw [begins, Nat.add_assoc, Nat.add_comm 1, ticking.expired_iff (by omega)] at past
  rw [total, ticking.elapsed (total ▸ last)]
  exact (Nat.le_of_lt past).trans (Nat.mul_le_mul_right _ (Nat.le_succ _))

end Ticking

end ScanPlan

/-! ## Answers -/

/-- The errors by which a scan without a solution ends. -/
def QueryError.EndsScan : QueryError → Prop
  | .balanceInsufficient _ | .selectionTimedOut _ => True
  | _ => False

/-- A lookup of a lock fails otherwise. -/
theorem Source.not_endsScan_of_lockOutput {source : Source} {height : Int32} {txid : Txid}
    {key : AddressKey} {error : QueryError}
    (fails : source.lockOutput height txid key = .error error) : ¬ error.EndsScan := by
  rcases Answer.bind_eq_error fails with missing | ⟨block, _, fails⟩
  · unfold Ledger.readBlock at missing
    split at missing <;> cases missing
    exact not_false
  · unfold Block.outputTo at fails
    split at fails <;> cases fails
    exact not_false

theorem ScanPlan.not_endsScan_of_judge {plan : ScanPlan σ} {output : UnspentOutput × Nat}
    {error : QueryError} (fails : plan.judge output = .error error) : ¬ error.EndsScan := by
  rcases Answer.bind_eq_error fails with looked | ⟨locked, _, fails⟩
  · cases found : plan.source.lockOutput output.1.height output.1.txid plan.key with
    | error fault =>
        rw [Source.isTimeLocked, found] at looked
        cases looked
        exact Source.not_endsScan_of_lockOutput found
    | ok _ =>
        rw [Source.isTimeLocked, found] at looked
        cases looked
  · rw [isUsable, Ledger.confirmations_eq] at fails
    split at fails
    · cases fails
    split at fails
    · cases fails
    split at fails
    · cases fails
    · cases fails
      exact not_false

theorem ScanPlan.ScanRun.not_endsScan {plan : ScanPlan σ} {slices : List Nat} {scan final : Scan σ}
    {trace : ScanTrace} {ending : ScanEnd} {error : QueryError}
    (run : plan.ScanRun slices scan trace ending final) (failed : ending = .failed error) :
    ¬ error.EndsScan := by
  induction run with
  | done scan => cases failed
  | late _ => cases failed
  | failed _ fails =>
      cases failed
      exact not_endsScan_of_judge fails
  | halted _ _ =>
      cases failed
      exact not_false
  | cut _ _ => cases failed
  | stopped _ _ => cases failed
  | continued _ _ _ ih => exact ih failed

/-- The work of a selection; without room for the cache there is none. -/
def Source.selectionWork (source : Source) (tuning : SelectionTuning) (random : RandomSource σ)
    (seed : σ) (address : String) (request : SelectionRequest) (session : Session) : ScanWork :=
  match (Amount.check request.amount).bind fun _ => source.network.resolve address with
  | .error _ => {}
  | .ok key =>
    let plan := source.scanPlan tuning random request key session
    if tuning.blockCacheSize ≤ BlockCache.maxCapacity then
      plan.work (plan.visits seed) (plan.opening seed) (plan.openingSession session)
    else {}

/-- How many slices hold the unspent outputs of an address. -/
def Source.slicesOf (source : Source) (tuning : SelectionTuning) (address : String) : Nat :=
  match source.network.resolve address with
  | .error _ => 0
  | .ok key => pageCount (source.ledger.unspentCount key) (max tuning.sliceSize 1)

/-- How often the clock is read to start the deadline of a selection. -/
def Source.openingReads (source : Source) (address : String) (request : SelectionRequest) : Nat :=
  match (Amount.check request.amount).bind fun _ => source.network.resolve address with
  | .error _ => 0
  | .ok _ => 1

/-- How often the clock is read to tell how long a selection took. -/
def closingReads : Answer Solution → Nat
  | .error (.selectionTimedOut _) => 1
  | _ => 0

theorem exists_timedOut {answer : Answer Solution} (closes : closingReads answer = 1) :
    ∃ elapsed, answer = .error (.selectionTimedOut elapsed) := by
  unfold closingReads at closes
  split at closes
  · exact ⟨_, rfl⟩
  · cases closes

/-- What an answer tells about the work of a selection, for a clock that moves on by a step. -/
structure WithinDeadline (tuning : SelectionTuning) (step : UInt64) (slices : Nat) (work : ScanWork)
    (answer : Answer Solution) : Prop where
  /-- The steps fit into the budget. -/
  steps_le : work.steps ≤ tuning.timeout / (step.toNat * Clock.nanosPerMicro)
  timedOut : ∀ elapsed, answer = .error (.selectionTimedOut elapsed) →
    tuning.timeout / Clock.nanosPerMilli ≤ elapsed ∧ work.covering = []
  insufficient : ∀ requested, answer = .error (.balanceInsufficient requested) →
    work.fetched.Perm (List.range slices) ∧ work.late = false

section Fault

variable {tuning : SelectionTuning} {step : UInt64} {slices : Nat} {work : ScanWork}
  {error : QueryError}

theorem closingReads_of_fault (fault : ¬ error.EndsScan) : closingReads (.error error) = 0 := by
  cases error with
  | selectionTimedOut elapsed => exact absurd trivial fault
  | _ => rfl

/-- An error that does not end a scan tells nothing. -/
theorem WithinDeadline.of_fault (fault : ¬ error.EndsScan)
    (steps_le : work.steps ≤ tuning.timeout / (step.toNat * Clock.nanosPerMicro)) :
    WithinDeadline tuning step slices work (.error error) where
  steps_le
  timedOut := by
    rintro elapsed ⟨⟩
    exact absurd trivial fault
  insufficient := by
    rintro requested ⟨⟩
    exact absurd trivial fault

end Fault

namespace ScanPlan

/-- A scan that is concluded in a session tells by its answer how far it came. -/
theorem RunWorks.withinDeadline {plan : ScanPlan σ} {seed : σ} {session after : Session}
    {work : ScanWork} {step : UInt64} {run : (ScanEnd × Scan σ) × Session}
    {answer : Answer Solution}
    (works : plan.RunWorks (plan.visits seed) (plan.opening seed) (plan.openingSession session) work
      run)
    (faults : ∀ error, run.1.1 = .failed error → ¬ error.EndsScan)
    (budget : plan.deadline.budget = plan.tuning.timeout) (moves : 0 < step)
    (concluded : (plan.source.concludeScan plan.request plan.deadline run.1.1 run.1.2.best).run
      run.2 = (answer, after))
    (ticking : plan.Ticking step session.clockReads after.clockReads) :
    WithinDeadline plan.tuning step plan.sliceCount work answer ∧
      after.clockReads =
        session.clockReads + 1 + work.steps + work.late.toNat + closingReads answer := by
  obtain ⟨⟨ending, final⟩, last⟩ := run
  obtain ⟨guarded, _, expired_iff, unsolved, whole⟩ := works
  dsimp only at guarded expired_iff unsolved whole faults concluded
  have reads : last.clockReads = session.clockReads + 1 + work.steps + work.late.toNat :=
    guarded.reads
  have steps_le (first : last.clockReads ≤ after.clockReads) :
      work.steps ≤ plan.tuning.timeout / (step.toNat * Clock.nanosPerMicro) := by
    rw [← budget]
    exact guarded.steps_le ticking moves rfl first
  generalize final.best = best at unsolved whole concluded
  cases ending with
  | failed error =>
      cases concluded
      have fault := faults error rfl
      rw [closingReads_of_fault fault]
      exact ⟨.of_fault fault (steps_le (Nat.le_refl _)), reads⟩
  | finished =>
      cases best with
      | some solution =>
          cases concluded
          exact ⟨⟨steps_le (Nat.le_refl _), nofun, nofun⟩, reads⟩
      | none =>
          cases concluded
          refine ⟨⟨steps_le (Nat.le_refl _), nofun, fun _ _ => ⟨?_, ?_⟩⟩, reads⟩
          · rw [whole rfl rfl]
            exact plan.visits_perm seed
          · exact Bool.eq_false_iff.mpr (mt expired_iff.mpr nofun)
  | expired =>
      cases best with
      | some solution =>
          cases concluded
          exact ⟨⟨steps_le (Nat.le_refl _), nofun, nofun⟩, reads⟩
      | none =>
          -- Here alone the clock is read once more, after the reading past the deadline.
          cases concluded
          refine ⟨⟨steps_le (Nat.le_succ _), ?_, nofun⟩, congrArg Nat.succ reads⟩
          rintro elapsed ⟨⟩
          refine ⟨?_, (unsolved nofun rfl).2⟩
          rw [expired_iff.mp rfl] at guarded
          have most := guarded.budget_le ticking rfl (Nat.lt_succ_self _)
          rw [budget] at most
          exact Nat.div_le_div_right most

end ScanPlan

namespace Source

section Select

variable {source : Source} {step : UInt64} {unixTime : Int64} {tuning : SelectionTuning}
  {random : RandomSource σ} {seed : σ} {address : String} {request : SelectionRequest}
  {session after : Session} {answer : Answer Solution}

theorem solve_withinDeadline {key : AddressKey} {plan : ScanPlan σ} {fetched : Nat}
    (stepping : source.clock = .stepping step unixTime) (moves : 0 < step)
    (planned : plan = source.scanPlan tuning random request key session)
    (run : (source.solve tuning random seed request key).run session = ((answer, fetched), after))
    (unwrapped : ∀ earlier < after.clockReads, earlier * step.toNat < 2 ^ 64) :
    let work := if tuning.blockCacheSize ≤ BlockCache.maxCapacity then
      plan.work (plan.visits seed) (plan.opening seed) (plan.openingSession session) else {}
    WithinDeadline tuning step plan.sliceCount work answer ∧ fetched = work.fetched.length ∧
      after.clockReads =
        session.clockReads + 1 + work.steps + work.late.toNat + closingReads answer := by
  rw [solve_run planned] at run
  dsimp only
  split at run
  next none =>
    cases run
    have visits : plan.visits seed = [] := planned ▸ ScanPlan.visits_of_empty seed none
    rw [visits, show plan.work [] (plan.opening seed) (plan.openingSession session) = {} from rfl,
      ite_self]
    exact ⟨.of_fault not_false (Nat.zero_le _), rfl, rfl⟩
  next some =>
    split at run
    next room =>
      rw [if_pos room]
      have works := plan.scanSlices_works (plan.visits seed) (plan.opening seed)
        (plan.openingSession session)
      obtain ⟨ending, final, last, ran, scanRun, -⟩ :=
        plan.scanSlices_scanRun (plan.visits seed) (plan.faithful_openingSession session)
          (plan.carriesUncovered_opening seed)
      rw [ScanPlan.search_run, ran] at run
      rw [ran] at works
      dsimp only at run
      generalize concluded : (plan.source.concludeScan plan.request plan.deadline ending
        final.best).run last = closed at run
      cases run
      have ticking : plan.Ticking step session.clockReads closed.2.clockReads := by
        subst planned
        exact ⟨rfl, ⟨unixTime, stepping⟩, unwrapped⟩
      obtain ⟨within, reads⟩ := works.withinDeadline (fun _ failed => scanRun.not_endsScan failed)
        (by rw [planned]; rfl) moves concluded ticking
      refine ⟨?_, works.counted.trans (Nat.zero_add _), reads⟩
      subst planned
      exact within
    next full =>
      rw [if_neg full]
      cases run
      exact ⟨.of_fault not_false (Nat.zero_le _), rfl, rfl⟩

end Select

/-- What a selection leaves behind accounts for its work: the slices that were fetched are reported,
and the readings of the clock are one for the deadline, one before each step, one past the deadline
and one for the time that a timeout tells. -/
structure Accounts (source : Source) (address : String) (request : SelectionRequest)
    (session after : Session) (work : ScanWork) (answer : Answer Solution) : Prop where
  reported : after.events.head? =
    some (.selection request.policy.label (outcomeLabel answer) work.fetched.length 0)
  reads : after.clockReads = session.clockReads + source.openingReads address request + work.steps +
    work.late.toNat + closingReads answer

/-- **Work is bounded by the deadline.**  With a clock that moves on by a fixed step and does not
wrap, the slices fetched and the outputs walked are at most as many as steps fit into the budget.  A
timeout tells a time that is not below the budget, and no slice was walked to a set that covers the
request.  When the outputs do not pay, every slice was fetched once and no reading was past the
deadline. -/
theorem select_withinDeadline {source : Source} {step : UInt64} {unixTime : Int64}
    (stepping : source.clock = .stepping step unixTime) (moves : 0 < step)
    {tuning : SelectionTuning} {random : RandomSource σ} {seed : σ} {address : String}
    {request : SelectionRequest} {session after : Session} {answer : Answer Solution}
    (run : (source.select tuning random seed address request).run session = (answer, after))
    (unwrapped : ∀ earlier < after.clockReads, earlier * step.toNat < 2 ^ 64) :
    let work := source.selectionWork tuning random seed address request session
    WithinDeadline tuning step (source.slicesOf tuning address) work answer ∧
      Accounts source address request session after work answer := by
  rw [select_run] at run
  rw [selectionWork, slicesOf]
  cases accepted : Amount.check request.amount with
  | error error =>
      have fault : ¬ error.EndsScan := by
        unfold Amount.check at accepted
        split at accepted <;> cases accepted
        exact not_false
      rw [accepted] at run
      cases run
      refine ⟨.of_fault fault (Nat.zero_le _), rfl, ?_⟩
      rw [openingReads, accepted, closingReads_of_fault fault]
      rfl
  | ok _ =>
      rw [accepted] at run
      rcases source.network.resolve_cases address with ⟨key, resolved, _⟩ | ⟨unresolved, _⟩
      · rw [resolved] at run ⊢
        dsimp only [Except.bind] at run ⊢
        rcases solved : (source.solve tuning random seed request key).run session with
          ⟨⟨given, fetched⟩, closed⟩
        rw [solved] at run
        cases run
        obtain ⟨within, counted, reads⟩ :=
          solve_withinDeadline stepping moves rfl solved unwrapped
        subst counted
        refine ⟨within, rfl, ?_⟩
        rw [openingReads, accepted, resolved]
        exact reads
      · rw [unresolved] at run ⊢
        cases run
        refine ⟨.of_fault not_false (Nat.zero_le _), rfl, ?_⟩
        rw [openingReads, accepted, unresolved]
        rfl

/-- Three milliseconds are enough for three steps, and then the selection times out. -/
theorem select_withinDeadline_hurried :
    (hurried.selectionWork { sliceSize := 2, timeout := 3000000 } .seeded 0 AddressKey.onesAddress
        { amount := 1200000, policy := .random } {}).steps = 3 ∧
      ∃ elapsed, 3 ≤ elapsed ∧
        ((hurried.select { sliceSize := 2, timeout := 3000000 } .seeded 0 AddressKey.onesAddress
          { amount := 1200000, policy := .random }).run {}).1 =
            .error (.selectionTimedOut elapsed) := by
  have evaluated :
      let run := (hurried.select { sliceSize := 2, timeout := 3000000 } .seeded 0
        AddressKey.onesAddress { amount := 1200000, policy := .random }).run {}
      run.2.clockReads = 6 ∧ closingReads run.1 = 1 ∧
        (hurried.selectionWork { sliceSize := 2, timeout := 3000000 } .seeded 0
          AddressKey.onesAddress { amount := 1200000, policy := .random } {}).late = true := by
    decide +kernel
  have opens : hurried.openingReads AddressKey.onesAddress
      { amount := 1200000, policy := .random } = 1 := by
    rw [openingReads, show hurried.network = {} from rfl, Network.resolve_onesAddress]
    rfl
  have begins : ({} : Session).clockReads = 0 := rfl
  have unwrapped : ∀ earlier < 6, earlier * (1000 : UInt64).toNat < 2 ^ 64 := by decide
  rcases ran : (hurried.select { sliceSize := 2, timeout := 3000000 } .seeded 0
    AddressKey.onesAddress { amount := 1200000, policy := .random }).run {} with ⟨answer, after⟩
  rw [ran] at evaluated
  obtain ⟨reads, closes, late⟩ := evaluated
  obtain ⟨within, accounts⟩ := select_withinDeadline rfl (by decide) ran (reads ▸ unwrapped)
  obtain ⟨elapsed, timedOut⟩ := exists_timedOut closes
  refine ⟨?_, elapsed, (within.timedOut elapsed timedOut).1, timedOut⟩
  have steps := accounts.reads
  rw [reads, late, opens, closes, begins, Bool.toNat_true] at steps
  omega

end Source

end CoinLedger
