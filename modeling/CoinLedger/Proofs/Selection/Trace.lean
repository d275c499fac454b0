import CoinLedger.Proofs.Selection.Spendable
import CoinLedger.Proofs.Selection.Walk

/-!
# The run of a scan

A scan visits slice after slice (`visit`, `scanSlices_cons_run`).  Its trace lists the looks at
slices, those whose walk went to the end among them, and tells whether time was seen to have run
out.  `ScanRun` says what a run can do, without the session in which it happens: each slice that is
walked to the end takes one `Step`, which depends only on the path of the walk.  Every scan with a
faithful cache runs in this way (`scanSlices_scanRun`).

A scan fails where an output of a slice cannot be judged, and where a number on the path of a walk
leaves its range (`Halts`).
-/

set_option autoImplicit false

namespace CoinLedger

open UnspentOutput Solution

/-- The scan with one more slice fetched. -/
def Scan.fetch {σ : Type} (scan : Scan σ) : Scan σ :=
  { scan with slices := scan.slices + 1 }

/-- How the visit of a slice went. -/
inductive Visit (σ : Type) where
  /-- Time had run out before the slice was fetched. -/
  | late
  /-- An output could not be judged, or a number left its range. -/
  | failed (error : QueryError) (failing : Scan σ)
  /-- Time ran out during the walk. -/
  | cut (arranged : Scan σ)
  /-- The slice was walked to the end; the scan after it, and whether that goes on. -/
  | walked (next : Scan σ) (goesOn : Bool)

/-- What a scan did. -/
structure ScanTrace where
  /-- The looks at the slices that were fetched. -/
  fetched : List Look := []
  /-- The looks at those whose walk ended before time was seen to have run out. -/
  walked : List Look := []
  /-- Whether time was seen to have run out. -/
  late : Bool := false
  deriving DecidableEq, Repr

/-- The trace with one more look in front, walked to the end. -/
def ScanTrace.walkedFirst (look : Look) (trace : ScanTrace) : ScanTrace :=
  { trace with fetched := look :: trace.fetched, walked := look :: trace.walked }

namespace ScanPlan

variable {σ : Type}

/-! ## Visits -/

/-- How a visit ends whose walk did not run out of time. -/
def afterVisit (plan : ScanPlan σ) (covered : Bool) (candidate : Solution) (arranged : Scan σ) :
    Visit σ :=
  if plan.settles covered candidate arranged then
    let (next, goesOn) := plan.afterWalk covered candidate arranged
    .walked next goesOn
  else .failed .stopped arranged

/-- Visits one slice in a session. -/
def visit (plan : ScanPlan σ) (slice : Nat) (scan : Scan σ) (session : Session) :
    Visit σ × Session :=
  if plan.deadline.expired (plan.source.clock.reading session.clockReads) then
    (.late, session.afterReading)
  else
    match (plan.usableOutputs (plan.sliceOutputs slice)).runIn session.afterReading with
    | (.error error, after) => (.failed error scan.fetch, after)
    | (.ok fresh, after) =>
      let (order, arranged) := plan.arrange scan.fetch fresh
      match (plan.walk order (plan.request.policy.startingSet arranged.carried)).run after with
      | ((.expired, _), after) => (.cut arranged, after)
      | ((.stopped, _), after) => (.failed .stopped arranged, after)
      | ((ending, candidate), after) =>
        (plan.afterVisit (ending = .covered) candidate arranged, after)

/-- A scan visits its first slice and goes on with the others unless the visit ends it. -/
theorem scanSlices_cons_run (plan : ScanPlan σ) (slice : Nat) (rest : List Nat) (scan : Scan σ)
    (session : Session) :
    (plan.scanSlices (slice :: rest) scan).run session =
      match plan.visit slice scan session with
      | (.late, after) => ((.expired, scan), after)
      | (.failed error failing, after) => ((.failed error, failing), after)
      | (.cut arranged, after) => ((.expired, arranged), after)
      | (.walked next true, after) => (plan.scanSlices rest next).run after
      | (.walked next false, after) => ((.finished, next), after) := by
  rw [scanSlices, visit, Action.run_bind, expired_run]
  dsimp only
  split
  · rfl
  rw [Action.run_bind, Query.run_run]
  rcases (plan.usableOutputs (plan.sliceOutputs slice)).runIn session.afterReading with
    ⟨error | fresh, after⟩
  · rfl
  dsimp only [Scan.fetch]
  rw [Action.run_bind]
  -- A walk that is exhausted and one that covers the request go on in the same way.
  have ended (covered : Bool) (candidate : Solution) (arranged : Scan σ) (after : Session) :
      (if !plan.settles covered candidate arranged then
          (pure (.failed .stopped, arranged) : Action (ScanEnd × Scan σ))
        else
          let (scan, goesOn) := plan.afterWalk covered candidate arranged
          if goesOn then plan.scanSlices rest scan else pure (.finished, scan)).run after =
        match (plan.afterVisit covered candidate arranged, after) with
        | (.late, after) => ((.expired, scan), after)
        | (.failed error failing, after) => ((.failed error, failing), after)
        | (.cut arranged, after) => ((.expired, arranged), after)
        | (.walked next true, after) => (plan.scanSlices rest next).run after
        | (.walked next false, after) => ((.finished, next), after) := by
    unfold afterVisit
    cases plan.settles covered candidate arranged with
    | false => rfl
    | true => rcases plan.afterWalk covered candidate arranged with ⟨next, _ | _⟩ <;> rfl
  rcases (plan.walk (plan.arrange _ fresh).1 _).run after with ⟨⟨_ | _ | _ | _, candidate⟩, after⟩
  · exact ended (WalkEnd.exhausted = .covered) candidate _ after
  · exact ended (WalkEnd.covered = .covered) candidate _ after
  · rfl
  · rfl

/-- The trace of a scan in a session. -/
def trace (plan : ScanPlan σ) : List Nat → Scan σ → Session → ScanTrace
  | [], _, _ => {}
  | slice :: rest, scan, session =>
    match plan.visit slice scan session with
    | (.late, _) => { late := true }
    | (.failed _ _, after) => { fetched := [⟨slice, session.timeReads, after.clockReads⟩] }
    | (.cut _, after) =>
      { fetched := [⟨slice, session.timeReads, after.clockReads⟩], late := true }
    | (.walked next true, after) =>
      (plan.trace rest next after).walkedFirst ⟨slice, session.timeReads, after.clockReads⟩
    | (.walked _ false, after) =>
      { fetched := [⟨slice, session.timeReads, after.clockReads⟩]
        walked := [⟨slice, session.timeReads, after.clockReads⟩] }

/-! ## What a visit does -/

/-- The order in which the spendable outputs of a slice are walked, and the scan after that. -/
def arranged (plan : ScanPlan σ) (look : Look) (scan : Scan σ) : List UnspentOutput × Scan σ :=
  plan.arrange scan.fetch (plan.fresh look)

theorem arranged_of_random {plan : ScanPlan σ} (random : plan.request.policy = .random)
    (look : Look) (scan : Scan σ) :
    plan.arranged look scan =
      ((plan.random.shuffle (plan.fresh look) scan.random).1,
        { scan.fetch with random := (plan.random.shuffle (plan.fresh look) scan.random).2 }) := by
  rw [arranged, arrange, random]
  rfl

theorem arranged_of_minimal {plan : ScanPlan σ} (minimal : plan.request.policy = .minimal)
    (look : Look) (scan : Scan σ) :
    plan.arranged look scan =
      (Policy.mergePool scan.pool (plan.fresh look),
        { scan.fetch with pool := Policy.mergePool scan.pool (plan.fresh look) }) := by
  rw [arranged, arrange, minimal]
  rfl

@[simp] theorem arranged_best (plan : ScanPlan σ) (look : Look) (scan : Scan σ) :
    (plan.arranged look scan).2.best = scan.best := by
  cases policy : plan.request.policy with
  | random => rw [arranged_of_random policy]; rfl
  | minimal => rw [arranged_of_minimal policy]; rfl

/-- The path of the walk through a slice. -/
def path (plan : ScanPlan σ) (look : Look) (scan : Scan σ) : List UnspentOutput :=
  addEach (plan.request.policy.startingSet scan.carried).outputs (plan.arranged look scan).1

/-- What a walk to the end of a slice makes of a scan, and whether the scan goes on. -/
inductive Step (plan : ScanPlan σ) (look : Look) (scan : Scan σ) : Scan σ → Bool → Prop
  | exhausted : Sized plan.tuning.fee (plan.path look scan) →
      Uncovered plan.tuning.fee plan.request.amount (plan.path look scan) →
      Step plan look scan
        (plan.afterWalk false (ofOutputs plan.tuning.fee (plan.path look scan))
          (plan.arranged look scan).2).1
        (plan.afterWalk false (ofOutputs plan.tuning.fee (plan.path look scan))
          (plan.arranged look scan).2).2
  | covered {chosen : List UnspentOutput} : Sized plan.tuning.fee chosen →
      FirstCover plan.tuning.fee plan.request.amount (plan.path look scan) chosen →
      (plan.request.policy.improves (ofOutputs plan.tuning.fee chosen) scan.best = true →
        (ofOutputs plan.tuning.fee chosen).settles plan.request.amount = true) →
      Step plan look scan
        (plan.afterWalk true (ofOutputs plan.tuning.fee chosen) (plan.arranged look scan).2).1
        (plan.afterWalk true (ofOutputs plan.tuning.fee chosen) (plan.arranged look scan).2).2

/-- The ways in which a number on a path can leave its range: the fee for a first part of it cannot
be told, or the change of the first part that covers the request. -/
inductive Halts (plan : ScanPlan σ) (path : List UnspentOutput) : Prop
  | size {part : List UnspentOutput} : part <+: path → ¬ Sized plan.tuning.fee part →
      Halts plan path
  | change {chosen : List UnspentOutput} :
      FirstCover plan.tuning.fee plan.request.amount path chosen →
      (ofOutputs plan.tuning.fee chosen).settles plan.request.amount = false → Halts plan path

/-- Where the numbers are exact, nothing halts. -/
theorem not_halts_of_exact {plan : ScanPlan σ} {path : List UnspentOutput}
    (exact : ExactAlong plan.tuning.fee plan.request.amount path) : ¬ plan.Halts path := by
  intro halts
  cases halts with
  | size first unsized => exact unsized (ExactAlong.sized (exact.of_leading first))
  | change cover unsettled =>
      exact Bool.false_ne_true
        (unsettled.symm.trans (settles_of_covers (exact.of_leading cover.first) cover.covers))

/-- The set that is carried from slice to slice does not cover the request. -/
def CarriesUncovered (plan : ScanPlan σ) (scan : Scan σ) : Prop :=
  ∃ outputs, scan.carried = ofOutputs plan.tuning.fee outputs ∧ Sized plan.tuning.fee outputs ∧
    Uncovered plan.tuning.fee plan.request.amount outputs

/-- Every output of a slice can be judged when it is looked at. -/
def SliceJudged (plan : ScanPlan σ) (look : Look) : Prop :=
  ∀ output ∈ plan.seen look, plan.source.Judged (plan.source.referenceTime output.2) plan.request
    plan.key output.1

theorem SliceJudged.not_fails {plan : ScanPlan σ} {look : Look} (judged : plan.SliceJudged look)
    {output : UnspentOutput × Nat} (member : output ∈ plan.seen look) (error : QueryError) :
    plan.judge output ≠ .error error := by
  rw [judge_eq_ok_iff.mpr ⟨judged output member, rfl⟩]
  exact nofun

/-- Some reading of the clock lies past the deadline. -/
def Late (plan : ScanPlan σ) : Prop :=
  ∃ reads, plan.deadline.expired (plan.source.clock.reading reads) = true

/-- What a visit of a slice can do. -/
inductive Visited (plan : ScanPlan σ) (look : Look) (scan : Scan σ) : Visit σ → Prop
  | late : plan.Late → Visited plan look scan .late
  | failed {output : UnspentOutput × Nat} {error : QueryError} : output ∈ plan.seen look →
      plan.judge output = .error error → Visited plan look scan (.failed error scan.fetch)
  | halted : plan.SliceJudged look → plan.Halts (plan.path look scan) →
      Visited plan look scan (.failed .stopped (plan.arranged look scan).2)
  | cut : plan.SliceJudged look → plan.Late →
      Visited plan look scan (.cut (plan.arranged look scan).2)
  | walked {next : Scan σ} {goesOn : Bool} : plan.SliceJudged look →
      plan.Step look scan next goesOn → Visited plan look scan (.walked next goesOn)

@[simp] theorem carried_arrange (plan : ScanPlan σ) (scan : Scan σ) (fresh : List UnspentOutput) :
    (plan.arrange scan fresh).2.carried = scan.carried := by
  unfold arrange
  split <;> rfl

/-- The scan with the outcome of a walk, before its pool is pruned. -/
def outcome (plan : ScanPlan σ) (covered : Bool) (candidate : Solution) (scan : Scan σ) : Scan σ :=
  if covered then plan.afterCover scan candidate else { scan with carried := candidate }

section Outcome

variable (plan : ScanPlan σ) (covered : Bool) (candidate : Solution) (scan : Scan σ)

theorem outcome_carried :
    (plan.outcome covered candidate scan).carried = if covered then {} else candidate := by
  cases covered with
  | false => rfl
  | true =>
      rw [outcome, if_pos rfl, afterCover]
      split <;> rfl

theorem outcome_best :
    (plan.outcome covered candidate scan).best =
      if covered = true ∧ plan.request.policy.improves candidate scan.best = true then
        some (candidate.settle plan.request.amount)
      else scan.best := by
  cases covered with
  | false => rfl
  | true =>
      rw [outcome, if_pos rfl, afterCover]
      by_cases improves : plan.request.policy.improves candidate scan.best = true
      · rw [if_pos improves, if_pos ⟨rfl, improves⟩]
      · rw [if_neg improves, if_neg fun both => improves both.2]

@[simp] theorem outcome_pool : (plan.outcome covered candidate scan).pool = scan.pool := by
  cases covered with
  | false => rfl
  | true =>
      rw [outcome, if_pos rfl, afterCover]
      split <;> rfl

@[simp] theorem outcome_random : (plan.outcome covered candidate scan).random = scan.random := by
  cases covered with
  | false => rfl
  | true =>
      rw [outcome, if_pos rfl, afterCover]
      split <;> rfl

/-- Whether the random policy accepts the set of a walk and ends the scan. -/
def Accepts (plan : ScanPlan σ) (covered : Bool) : Prop :=
  covered = true ∧ plan.request.policy = .random

/-- The random policy ends a scan at the first covering set; otherwise only the pool is pruned. -/
theorem afterWalk_cases :
    (plan.Accepts covered ∧
      plan.afterWalk covered candidate scan = (plan.outcome covered candidate scan, false)) ∨
    (¬ plan.Accepts covered ∧
      plan.request.policy.prune (plan.outcome covered candidate scan).best scan.pool = none ∧
      plan.afterWalk covered candidate scan = (plan.outcome covered candidate scan, false)) ∨
    (¬ plan.Accepts covered ∧
      ∃ pool, plan.request.policy.prune (plan.outcome covered candidate scan).best scan.pool =
        some pool ∧
      plan.afterWalk covered candidate scan =
        ({ plan.outcome covered candidate scan with pool }, true)) := by
  by_cases accepts : plan.Accepts covered
  · exact .inl ⟨accepts, if_pos (by simp [accepts.1, accepts.2])⟩
  · have goes : plan.afterWalk covered candidate scan = _ :=
      if_neg (by simpa [Accepts] using accepts)
    rw [goes]
    split
    next nothing =>
      have pruned : plan.request.policy.prune (plan.outcome covered candidate scan).best
        (plan.outcome covered candidate scan).pool = none := nothing
      rw [outcome_pool] at pruned
      exact .inr (.inl ⟨accepts, pruned, rfl⟩)
    next pool kept =>
      have pruned : plan.request.policy.prune (plan.outcome covered candidate scan).best
        (plan.outcome covered candidate scan).pool = some pool := kept
      rw [outcome_pool] at pruned
      exact .inr (.inr ⟨accepts, pool, pruned, rfl⟩)

end Outcome

@[simp] theorem afterWalk_carried (plan : ScanPlan σ) (covered : Bool) (candidate : Solution)
    (scan : Scan σ) :
    (plan.afterWalk covered candidate scan).1.carried = if covered then {} else candidate := by
  rw [← outcome_carried plan]
  rcases plan.afterWalk_cases covered candidate scan with
    ⟨_, equal⟩ | ⟨_, _, equal⟩ | ⟨_, _, _, equal⟩ <;> rw [equal]

@[simp] theorem afterWalk_best (plan : ScanPlan σ) (covered : Bool) (candidate : Solution)
    (scan : Scan σ) :
    (plan.afterWalk covered candidate scan).1.best =
      (plan.outcome covered candidate scan).best := by
  rcases plan.afterWalk_cases covered candidate scan with
    ⟨_, equal⟩ | ⟨_, _, equal⟩ | ⟨_, _, _, equal⟩ <;> rw [equal]

theorem CarriesUncovered.startingSet {plan : ScanPlan σ} {scan : Scan σ}
    (carries : plan.CarriesUncovered scan) :
    ∃ outputs, plan.request.policy.startingSet scan.carried = ofOutputs plan.tuning.fee outputs ∧
      Sized plan.tuning.fee outputs ∧
      Uncovered plan.tuning.fee plan.request.amount outputs := by
  cases plan.request.policy with
  | random => exact carries
  | minimal => exact ⟨[], rfl, sized_nil, uncovered_nil⟩

theorem Step.carriesUncovered {plan : ScanPlan σ} {look : Look} {scan next : Scan σ}
    {goesOn : Bool} (step : plan.Step look scan next goesOn) : plan.CarriesUncovered next := by
  cases step with
  | exhausted sized uncovered => exact ⟨_, plan.afterWalk_carried _ _ _, sized, uncovered⟩
  | covered _ _ _ => exact ⟨[], plan.afterWalk_carried _ _ _, sized_nil, uncovered_nil⟩

/-- A walk that covered the request ends the visit with a step, or its change cannot be told. -/
theorem visited_afterVisit_covered {plan : ScanPlan σ} {look : Look} {scan : Scan σ}
    {chosen : List UnspentOutput} (judged : plan.SliceJudged look)
    (sized : Sized plan.tuning.fee chosen)
    (cover : FirstCover plan.tuning.fee plan.request.amount (plan.path look scan) chosen) :
    plan.Visited look scan
      (plan.afterVisit true (ofOutputs plan.tuning.fee chosen) (plan.arranged look scan).2) := by
  rw [afterVisit]
  split
  next settles =>
    refine .walked judged (.covered sized cover fun improves => ?_)
    simpa [ScanPlan.settles, improves] using settles
  next unsettled =>
    refine .halted judged (.change cover ?_)
    have both := (Bool.not_eq_true _).mp unsettled
    simp only [ScanPlan.settles, Bool.or_eq_false_iff] at both
    exact both.2

/-- A visit in a session: what it does, and what it leaves behind. -/
structure VisitRun (plan : ScanPlan σ) (slice : Nat) (scan : Scan σ) (session : Session)
    (visit : Visit σ) (after : Session) : Prop where
  visited : plan.Visited ⟨slice, session.timeReads, after.clockReads⟩ scan visit
  faithful : after.cache.Faithful plan.source.ledger.readBlock
  later : (∀ error failing, visit ≠ .failed error failing) → session.timeReads ≤ after.timeReads
  asked : ∀ next goesOn, visit = .walked next goesOn →
    after.timeReads = session.timeReads + plan.sliceReads slice

/-- **A visit in a session with a faithful cache does nothing else**, and leaves a faithful cache.
-/
theorem visit_run (plan : ScanPlan σ) (slice : Nat) {scan : Scan σ} {session : Session}
    (faithful : session.cache.Faithful plan.source.ledger.readBlock)
    (carries : plan.CarriesUncovered scan) :
    plan.VisitRun slice scan session (plan.visit slice scan session).1
      (plan.visit slice scan session).2 := by
  unfold visit
  split
  next late => exact ⟨.late ⟨_, late⟩, faithful, fun _ => Nat.le_refl _, nofun⟩
  next =>
    obtain ⟨after, run, faithful, -, times⟩ :=
      plan.usableOutputs_answers (plan.sliceOutputs slice) session.afterReading faithful
    rw [run]
    dsimp only
    cases answer : plan.usableAnswer
        (withReads (plan.source.outputReads plan.key) session.afterReading.timeReads
          (plan.sliceOutputs slice)) with
    | error error =>
        obtain ⟨output, member, fails⟩ := exists_of_usableAnswer_error answer
        exact ⟨.failed member fails, faithful, fun succeeds => absurd rfl (succeeds _ _), nofun⟩
    | ok kept =>
        have judged := judged_of_usableAnswer answer
        have asked : after.timeReads = session.timeReads + plan.sliceReads slice :=
          times kept answer
        have later : session.timeReads ≤ after.timeReads := asked ▸ Nat.le_add_right _ _
        have found (reads : Nat) : plan.fresh ⟨slice, session.timeReads, reads⟩ = kept :=
          Except.ok.inj ((usableAnswer_of_judged judged).symm.trans answer)
        obtain ⟨outputs, starting, sized, uncovered⟩ := carries.startingSet
        dsimp only
        rw [carried_arrange, show scan.fetch.carried = scan.carried from rfl, starting]
        obtain ⟨ending, candidate, reads, walk, walked⟩ :=
          plan.walk_walked (plan.arrange scan.fetch kept).1 after sized uncovered
        rw [walk]
        have arranges : plan.arrange scan.fetch kept =
            plan.arranged ⟨slice, session.timeReads, reads⟩ scan := by
          rw [arranged, found]
        have along : addEach outputs (plan.arrange scan.fetch kept).1 =
            plan.path ⟨slice, session.timeReads, reads⟩ scan := by
          rw [path, starting, arranges]
          rfl
        rw [along] at walked
        rw [arranges]
        cases walked with
        | exhausted sized uncovered =>
            exact ⟨.walked judged (.exhausted sized uncovered), faithful, fun _ => later,
              fun _ _ _ => asked⟩
        | covered sized cover =>
            exact ⟨visited_afterVisit_covered judged sized cover, faithful, fun _ => later,
              fun _ _ _ => asked⟩
        | expired _ late =>
            exact ⟨.cut judged ⟨_, late⟩, faithful, fun _ => later, nofun⟩
        | stopped _ first unsized =>
            exact ⟨.halted judged (.size first unsized), faithful, fun _ => later, nofun⟩

/-! ## Runs -/

/-- The runs of a scan over a list of slices: the trace, how the run ends, and with which scan. -/
inductive ScanRun (plan : ScanPlan σ) :
    List Nat → Scan σ → ScanTrace → ScanEnd → Scan σ → Prop
  | done (scan : Scan σ) : ScanRun plan [] scan {} .finished scan
  | late {slice : Nat} {rest : List Nat} {scan : Scan σ} : plan.Late →
      ScanRun plan (slice :: rest) scan { late := true } .expired scan
  | failed {look : Look} {rest : List Nat} {scan : Scan σ} {output : UnspentOutput × Nat}
      {error : QueryError} : output ∈ plan.seen look → plan.judge output = .error error →
      ScanRun plan (look.slice :: rest) scan { fetched := [look] } (.failed error) scan.fetch
  | halted {look : Look} {rest : List Nat} {scan : Scan σ} : plan.SliceJudged look →
      plan.Halts (plan.path look scan) →
      ScanRun plan (look.slice :: rest) scan { fetched := [look] } (.failed .stopped)
        (plan.arranged look scan).2
  | cut {look : Look} {rest : List Nat} {scan : Scan σ} : plan.SliceJudged look → plan.Late →
      ScanRun plan (look.slice :: rest) scan { fetched := [look], late := true } .expired
        (plan.arranged look scan).2
  | stopped {look : Look} {rest : List Nat} {scan next : Scan σ} : plan.SliceJudged look →
      plan.Step look scan next false →
      ScanRun plan (look.slice :: rest) scan { fetched := [look], walked := [look] } .finished next
  | continued {look : Look} {rest : List Nat} {scan next final : Scan σ} {trace : ScanTrace}
      {ending : ScanEnd} : plan.SliceJudged look → plan.Step look scan next true →
      ScanRun plan rest next trace ending final →
      ScanRun plan (look.slice :: rest) scan (trace.walkedFirst look) ending final

/-- The looks at the slices that were walked lie between two readings of the time of day. -/
structure WalkedBetween (plan : ScanPlan σ) (first last : Nat) (trace : ScanTrace) : Prop where
  le : first ≤ last
  walked : ∀ look ∈ trace.walked,
    first ≤ look.timeReads ∧ look.timeReads + plan.sliceReads look.slice ≤ last

theorem walkedBetween_of_none {plan : ScanPlan σ} {first last : Nat} {trace : ScanTrace}
    (le : first ≤ last) (none : trace.walked = []) : plan.WalkedBetween first last trace where
  le
  walked _ member := absurd (none ▸ member) List.not_mem_nil

/-- **Every scan in a session with a faithful cache is such a run, with the trace of the scan.**
Unless it fails, its looks lie between the readings before it and those after it. -/
theorem scanSlices_scanRun (plan : ScanPlan σ) (slices : List Nat) {scan : Scan σ}
    {session : Session} (faithful : session.cache.Faithful plan.source.ledger.readBlock)
    (carries : plan.CarriesUncovered scan) :
    ∃ ending final after, (plan.scanSlices slices scan).run session = ((ending, final), after) ∧
      plan.ScanRun slices scan (plan.trace slices scan session) ending final ∧
      ((∀ error, ending ≠ .failed error) →
        plan.WalkedBetween session.timeReads after.timeReads
          (plan.trace slices scan session)) := by
  induction slices generalizing scan session with
  | nil =>
      exact ⟨_, _, session, rfl, .done scan, fun _ => walkedBetween_of_none (Nat.le_refl _) rfl⟩
  | cons slice rest ih =>
      rw [scanSlices_cons_run, trace]
      obtain ⟨visited, faithful, later, asked⟩ := plan.visit_run slice faithful carries
      rcases seen : plan.visit slice scan session with ⟨visit, after⟩
      rw [seen] at visited faithful later asked
      dsimp only at visited faithful later asked
      cases visited with
      | late late =>
          exact ⟨_, _, after, rfl, .late late, fun _ => walkedBetween_of_none (later nofun) rfl⟩
      | failed member fails =>
          exact ⟨_, _, after, rfl, .failed member fails, fun succeeds => absurd rfl (succeeds _)⟩
      | halted judged halts =>
          exact ⟨_, _, after, rfl, .halted judged halts, fun succeeds => absurd rfl (succeeds _)⟩
      | cut judged late =>
          exact ⟨_, _, after, rfl, .cut judged late,
            fun _ => walkedBetween_of_none (later nofun) rfl⟩
      | @walked next goesOn judged step =>
          have reads := asked next goesOn rfl
          cases goesOn with
          | false =>
              refine ⟨_, _, after, rfl, .stopped judged step, fun _ => ⟨later nofun, ?_⟩⟩
              rintro look (_ | ⟨_, impossible⟩)
              · exact ⟨Nat.le_refl _, Nat.le_of_eq reads.symm⟩
              · cases impossible
          | true =>
              obtain ⟨ending, final, last, run, scanRun, between⟩ :=
                ih faithful step.carriesUncovered
              refine ⟨ending, final, last, run, .continued judged step scanRun, fun succeeds => ?_⟩
              obtain ⟨le, walked⟩ := between succeeds
              refine ⟨(later nofun).trans le, ?_⟩
              rintro look (_ | ⟨_, member⟩)
              · exact ⟨Nat.le_refl _, reads ▸ le⟩
              · obtain ⟨least, most⟩ := walked look member
                exact ⟨(later nofun).trans least, most⟩

section Run

variable {plan : ScanPlan σ} {slices : List Nat} {scan final : Scan σ} {trace : ScanTrace}
  {ending : ScanEnd}

/-- A run ends by the deadline exactly when its trace says so. -/
theorem ScanRun.expired_iff (run : plan.ScanRun slices scan trace ending final) :
    ending = .expired ↔ trace.late = true := by
  induction run with
  | done scan => simp
  | late _ => simp
  | failed _ _ => simp
  | halted _ _ => simp
  | cut _ _ => simp
  | stopped _ _ => simp
  | continued _ _ _ ih => exact ih

theorem ScanRun.late_of_trace (run : plan.ScanRun slices scan trace ending final)
    (late : trace.late = true) : plan.Late := by
  induction run with
  | done scan => cases late
  | late past => exact past
  | failed _ _ => cases late
  | halted _ _ => cases late
  | cut _ past => exact past
  | stopped _ _ => cases late
  | continued _ _ _ ih => exact ih late

end Run

end ScanPlan

end CoinLedger
