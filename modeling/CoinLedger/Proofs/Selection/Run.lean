import CoinLedger.Proofs.BlockLedger
import CoinLedger.Proofs.Listing.Page
import CoinLedger.Proofs.Selection.Clock
import CoinLedger.Proofs.Selection.Settled
import CoinLedger.Selection
import Mathlib.Data.List.Rotate

/-!
# Selections as runs

A selection whose request and address are accepted, whose address has unspent outputs and whose
cache has room runs one scan over all slices, and its answer follows from how the scan ends
(`select_selects`).  Where the reference time stands still, the slices that it visits hold every
spendable output of the key, each record once (`flatMap_freshAt_perm`).
-/

set_option autoImplicit false

namespace CoinLedger

open UnspentOutput

variable {σ : Type}

/-! ## The opening of a selection -/

/-- The plan of a selection that starts in a session. -/
def Source.scanPlan (source : Source) (tuning : SelectionTuning) (random : RandomSource σ)
    (request : SelectionRequest) (key : AddressKey) (session : Session) : ScanPlan σ where
  source
  tuning
  request
  key
  deadline := ⟨source.clock.reading session.clockReads, tuning.timeout⟩
  random

namespace ScanPlan

/-- The slices in the order in which they are visited. -/
def visits (plan : ScanPlan σ) (seed : σ) : List Nat :=
  visitOrder (plan.random.draw64 (plan.sliceCount - 1) seed).1 plan.sliceCount

/-- The scan before any slice is visited. -/
def opening (plan : ScanPlan σ) (seed : σ) : Scan σ :=
  { random := (plan.random.draw64 (plan.sliceCount - 1) seed).2 }

/-- The session in which the scan starts: the deadline is set and the cache is empty. -/
def openingSession (plan : ScanPlan σ) (session : Session) : Session :=
  { session.afterReading with cache := .ofCapacity plan.tuning.blockCacheSize }

/-- The trace of a whole selection that starts in a session. -/
def selectionTrace (plan : ScanPlan σ) (seed : σ) (session : Session) : ScanTrace :=
  plan.trace (plan.visits seed) (plan.opening seed) (plan.openingSession session)

theorem faithful_openingSession (plan : ScanPlan σ) (session : Session) :
    (plan.openingSession session).cache.Faithful plan.source.ledger.readBlock :=
  BlockCache.faithful_ofCapacity _

theorem carriesUncovered_opening (plan : ScanPlan σ) (seed : σ) :
    plan.CarriesUncovered (plan.opening seed) :=
  ⟨[], rfl, Solution.sized_nil, Solution.uncovered_nil⟩

theorem sound_opening (plan : ScanPlan σ) (seed : σ) : plan.Sound [] (plan.opening seed) where
  distinct := List.nodup_nil
  carried := List.nil_subset _
  pool := List.nil_subset _
  best _ none := by cases none

/-- The trace of a selection shows the deadline only when the clock has passed it. -/
theorem late_of_selectionTrace {plan : ScanPlan σ} {seed : σ} {session : Session}
    (late : (plan.selectionTrace seed session).late = true) : plan.Late := by
  obtain ⟨_, _, _, _, run, _⟩ := plan.scanSlices_scanRun (plan.visits seed)
    (plan.faithful_openingSession session) (plan.carriesUncovered_opening seed)
  exact run.late_of_trace late

/-- The scan of a selection with its conclusion. -/
def search (plan : ScanPlan σ) (seed : σ) : Action (Answer Solution × Nat) := do
  let (ending, scan) ← plan.scanSlices (plan.visits seed) (plan.opening seed)
  return (← plan.source.concludeScan plan.request plan.deadline ending scan.best, scan.slices)

theorem search_run (plan : ScanPlan σ) (seed : σ) (session : Session) :
    (plan.search seed).run session =
      let run := (plan.scanSlices (plan.visits seed) (plan.opening seed)).run session
      let concluded :=
        (plan.source.concludeScan plan.request plan.deadline run.1.1 run.1.2.best).run run.2
      ((concluded.1, run.1.2.slices), concluded.2) := by
  rw [search, Action.run_bind]
  rfl

/-! ## Slices -/

theorem visits_of_empty {plan : ScanPlan σ} (seed : σ)
    (none : plan.source.ledger.unspentCount plan.key = 0) : plan.visits seed = [] := by
  have size : 1 ≤ plan.sliceSize := Nat.le_max_right _ _
  have count : plan.sliceCount = 0 := by
    rw [sliceCount, none]
    exact Nat.div_eq_of_lt (by omega)
  rw [visits, visitOrder, count]
  rfl

/-- The slices from one on and once round are the slices in order, rotated. -/
theorem visitOrder_eq_rotate (start slices : Nat) :
    visitOrder start slices = (List.range slices).rotate start := by
  refine List.ext_getElem (by simp [visitOrder]) fun step _ _ => ?_
  simp [visitOrder, List.getElem_rotate, Nat.add_comm]

/-- Every slice is visited once. -/
theorem visits_perm (plan : ScanPlan σ) (seed : σ) :
    (plan.visits seed).Perm (List.range plan.sliceCount) := by
  rw [visits, visitOrder_eq_rotate]
  exact List.rotate_perm _ _

/-- A slice is a page whose number is one more. -/
theorem sliceWindow_eq_pageWindow (count slice size : Nat) :
    sliceWindow count slice size = pageWindow count (slice + 1) size := by
  rw [sliceWindow, pageWindow, Nat.add_sub_cancel]
  congr 1
  omega

/-- The slices one after the other hold the unspent outputs of the key, each record once. -/
theorem flatMap_sliceOutputs (plan : ScanPlan σ) :
    (List.range plan.sliceCount).flatMap plan.sliceOutputs =
      plan.source.ledger.unspent plan.key := by
  have size : 0 < plan.sliceSize := Nat.le_max_right _ _
  have pages := flatMap_pages (plan.source.ledger.unspent plan.key) size (Nat.le_refl _)
  rw [List.range'_eq_map_range, List.flatMap_map] at pages
  rw [← pages]
  refine List.flatMap_congr fun slice _ => ?_
  rw [sliceOutputs, sliceWindow_eq_pageWindow, Nat.add_comm]
  rfl

/-- **The visited slices hold the spendable outputs of the key**, each record once. -/
theorem flatMap_freshAt_perm (plan : ScanPlan σ) (time : Int64) (seed : σ) :
    ((plan.visits seed).flatMap (plan.freshAt time)).Perm
      (plan.source.spendable time plan.tuning plan.request plan.key) := by
  rw [Source.spendable, ← plan.flatMap_sliceOutputs, List.filter_flatMap]
  exact (plan.visits_perm seed).flatMap_right _

/-- What looks at slices find is recorded. -/
theorem flatMap_fresh_subset (plan : ScanPlan σ) (looks : List Look) :
    looks.flatMap plan.fresh ⊆ plan.source.ledger.unspent plan.key := by
  intro output member
  obtain ⟨look, _, member⟩ := List.mem_flatMap.mp member
  exact plan.fresh_subset look member

section Stands

variable {plan : ScanPlan σ} {time : Int64} (stands : plan.source.StandsAt time)

include stands

theorem fresh_subset_spendable (looks : List Look) :
    looks.flatMap plan.fresh ⊆ plan.source.spendable time plan.tuning plan.request plan.key := by
  intro output member
  obtain ⟨look, _, member⟩ := List.mem_flatMap.mp member
  rw [fresh_of_standsAt stands] at member
  exact plan.freshAt_subset time look.slice member

/-- Looks at all slices meet every spendable output. -/
theorem spendable_subset {seed : σ} {walked : List Look}
    (all : plan.visits seed ⊆ walked.map Look.slice) :
    plan.source.spendable time plan.tuning plan.request plan.key ⊆ walked.flatMap plan.fresh := by
  intro output member
  obtain ⟨slice, visited, inside⟩ :=
    List.mem_flatMap.mp ((plan.flatMap_freshAt_perm time seed).mem_iff.mpr member)
  obtain ⟨look, walks, rfl⟩ := List.mem_map.mp (all visited)
  refine List.mem_flatMap.mpr ⟨look, walks, ?_⟩
  rwa [fresh_of_standsAt stands]

/-- An output that can be judged at the time at which the source stands can be judged at every look.
-/
theorem sliceJudged_of_standsAt
    (judged : ∀ output ∈ plan.source.ledger.unspent plan.key,
      plan.source.Judged time plan.request plan.key output) (look : Look) :
    plan.SliceJudged look := by
  intro output member
  rw [stands output.2]
  exact judged output.1 (plan.sliceOutputs_subset _ (mem_sliceOutputs_of_mem_seen member))

end Stands

end ScanPlan

/-! ## Answers -/

/-- The answers of a selection whose scan has ended. -/
inductive Concluded (request : SelectionRequest) :
    ScanEnd → Option Solution → Answer Solution → Prop
  | failed (error : QueryError) (best : Option Solution) :
      Concluded request (.failed error) best (.error error)
  | solvedInTime (solution : Solution) : Concluded request .finished (some solution) (.ok solution)
  | solvedBefore (solution : Solution) : Concluded request .expired (some solution) (.ok solution)
  | timedOut (elapsed : Nat) :
      Concluded request .expired none (.error (.selectionTimedOut elapsed))
  | insufficient : Concluded request .finished none (.error (.balanceInsufficient request.amount))

/-- What a selection can answer, and what it leaves behind. -/
inductive Selects (source : Source) (tuning : SelectionTuning) (random : RandomSource σ) (seed : σ)
    (address : String) (request : SelectionRequest) (session after : Session) :
    Answer Solution → Prop
  | refused {error : QueryError} : Amount.check request.amount = .error error →
      Selects source tuning random seed address request session after (.error error)
  | unresolved {error : QueryError} : Amount.check request.amount = .ok () →
      source.network.resolve address = .error error →
      Selects source tuning random seed address request session after (.error error)
  | empty {key : AddressKey} : Amount.check request.amount = .ok () →
      source.network.resolve address = .ok key → source.ledger.unspentCount key = 0 →
      after.clockReads = session.clockReads + 1 →
      Selects source tuning random seed address request session after (.error .noUnspentOutputs)
  | full {key : AddressKey} : Amount.check request.amount = .ok () →
      source.network.resolve address = .ok key → source.ledger.unspentCount key ≠ 0 →
      BlockCache.maxCapacity < tuning.blockCacheSize →
      Selects source tuning random seed address request session after (.error .stopped)
  | scanned {key : AddressKey} {ending : ScanEnd} {final : Scan σ} {answer : Answer Solution}
      (plan : ScanPlan σ) : Amount.check request.amount = .ok () →
      source.network.resolve address = .ok key → source.ledger.unspentCount key ≠ 0 →
      plan = source.scanPlan tuning random request key session →
      plan.ScanRun (plan.visits seed) (plan.opening seed) (plan.selectionTrace seed session)
        ending final →
      Concluded plan.request ending final.best answer →
      ((∀ error, ending ≠ .failed error) →
        plan.WalkedBetween session.timeReads after.timeReads (plan.selectionTrace seed session) ∧
        plan.FollowsClock (session.clockReads + 1) after.clockReads
          (plan.selectionTrace seed session)) →
      Selects source tuning random seed address request session after answer

/-- Why a selection from a key has no solution: the key has no outputs, time was seen to run out, or
the outputs do not pay the request. -/
def Unsolved (source : Source) (request : SelectionRequest) (key : AddressKey) (late : Bool)
    (answer : Answer Solution) : Prop :=
  if source.ledger.unspentCount key = 0 then answer = .error .noUnspentOutputs
  else if late then ∃ elapsed, answer = .error (.selectionTimedOut elapsed)
  else answer = .error (.balanceInsufficient request.amount)

/-- The answers of a selection whose lookups succeed, by the best set of its scan. -/
inductive Ends (source : Source) (request : SelectionRequest) (key : AddressKey) (late : Bool) :
    Option Solution → Answer Solution → Prop
  | solved (solution : Solution) : Ends source request key late (some solution) (.ok solution)
  | unsolved {answer : Answer Solution} : Unsolved source request key late answer →
      Ends source request key late none answer

section Ends

variable {source : Source} {request : SelectionRequest} {key : AddressKey} {late : Bool}
  {best : Option Solution} {answer : Answer Solution} {solution : Solution}

theorem not_unsolved_ok : ¬ Unsolved source request key late (.ok solution) := by
  unfold Unsolved
  split
  · exact nofun
  · split
    · exact nofun
    · exact nofun

theorem Ends.ok_iff (ends : Ends source request key late best answer) :
    answer = .ok solution ↔ best = some solution := by
  cases ends with
  | solved found =>
      constructor
      · intro same
        cases same
        rfl
      · intro same
        cases same
        rfl
  | unsolved unsolved =>
      constructor
      · intro same
        exact absurd (same ▸ unsolved) not_unsolved_ok
      · exact nofun

theorem Ends.unsolved_of (ends : Ends source request key late best answer)
    (none : ¬ ∃ solution, answer = .ok solution) : Unsolved source request key late answer := by
  cases ends with
  | solved found => exact absurd ⟨found, rfl⟩ none
  | unsolved unsolved => exact unsolved

end Ends

namespace Source

/-- A scan is concluded without asking for the time of day, and the clock is read only to tell how
long a scan without a solution took. -/
theorem concludeScan_concluded (source : Source) (request : SelectionRequest) (deadline : Deadline)
    (ending : ScanEnd) (best : Option Solution) (session : Session) :
    Concluded request ending best
        ((source.concludeScan request deadline ending best).run session).1 ∧
      ∃ reads, ((source.concludeScan request deadline ending best).run session).2 =
          { session with clockReads := reads } ∧
        session.clockReads ≤ reads ∧ (ending ≠ .expired → reads = session.clockReads) := by
  cases ending with
  | failed error => exact ⟨.failed error best, _, rfl, Nat.le_refl _, fun _ => rfl⟩
  | finished =>
      cases best with
      | none => exact ⟨.insufficient, _, rfl, Nat.le_refl _, fun _ => rfl⟩
      | some solution => exact ⟨.solvedInTime solution, _, rfl, Nat.le_refl _, fun _ => rfl⟩
  | expired =>
      cases best with
      | none => exact ⟨.timedOut _, _, rfl, Nat.le_succ _, fun other => absurd rfl other⟩
      | some solution => exact ⟨.solvedBefore solution, _, rfl, Nat.le_refl _, fun _ => rfl⟩

/-- The session after a selection has reported how it ended. -/
def afterSelection (request : SelectionRequest) (answer : Answer Solution) (fetched : Nat)
    (session : Session) : Session :=
  { session with
    events :=
      .selection request.policy.label (outcomeLabel answer) fetched 0 :: session.events }

section Select

variable {source : Source} {tuning : SelectionTuning} {random : RandomSource σ} {seed : σ}
  {address : String} {request : SelectionRequest} {session : Session}

/-- The answer of a selection whose request and address are accepted is that of its solution. -/
theorem select_run :
    (source.select tuning random seed address request).run session =
      match (Amount.check request.amount).bind fun _ => source.network.resolve address with
      | .error error => (.error error, afterSelection request (.error error) 0 session)
      | .ok key =>
        let solved := (source.solve tuning random seed request key).run session
        (solved.1.1, afterSelection request solved.1.1 solved.1.2 solved.2) := by
  rw [select]
  cases (Amount.check request.amount).bind fun _ => source.network.resolve address <;> rfl

/-- A selection whose request and address are accepted answers with the solution for its key. -/
theorem select_run_fst {key : AddressKey} (accepted : Amount.check request.amount = .ok ())
    (resolved : source.network.resolve address = .ok key) :
    ((source.select tuning random seed address request).run session).1 =
      ((source.solve tuning random seed request key).run session).1.1 := by
  rw [select_run, accepted, resolved]
  rfl

/-- An amount out of range is refused, whatever the outputs are. -/
theorem select_refused (source : Source) (tuning : SelectionTuning) (random : RandomSource σ)
    (seed : σ) (address : String) (request : SelectionRequest) (session : Session)
    (outside : ¬ (1 ≤ request.amount.toInt ∧ request.amount.toInt ≤ Amount.maxRequest)) :
    ∃ text, ((source.select tuning random seed address request).run session).1 =
      .error (.invalidParameter text) := by
  rw [select_run, Amount.check, if_neg outside]
  exact ⟨_, rfl⟩

/-- A selection from a key searches its outputs, if there are any and there is room for a cache. -/
theorem solve_run {key : AddressKey} {plan : ScanPlan σ}
    (planned : plan = source.scanPlan tuning random request key session) :
    (source.solve tuning random seed request key).run session =
      if source.ledger.unspentCount key = 0 then
        ((.error .noUnspentOutputs, 0), session.afterReading)
      else if tuning.blockCacheSize ≤ BlockCache.maxCapacity then
        (plan.search seed).run (plan.openingSession session)
      else ((.error .stopped, 0), session.afterReading) := by
  subst planned
  rw [solve, Action.run_bind]
  dsimp only
  split
  · rfl
  rw [Action.run_bind, Query.run_run, Query.runIn_useCache]
  by_cases room : tuning.blockCacheSize ≤ BlockCache.maxCapacity
  · rw [if_pos room, if_pos room]
    rfl
  · rw [if_neg room, if_neg room]
    rfl

/-- A selection has a solution only if there is room for its cache. -/
theorem room_of_select {solution : Solution}
    (solved : ((source.select tuning random seed address request).run session).1 = .ok solution) :
    tuning.blockCacheSize ≤ BlockCache.maxCapacity := by
  by_contra full
  rw [select_run] at solved
  cases found : (Amount.check request.amount).bind fun _ => source.network.resolve address with
  | error error =>
      rw [found] at solved
      cases solved
  | ok key =>
      rw [found] at solved
      dsimp only at solved
      rw [solve_run rfl, if_neg full] at solved
      split at solved <;> cases solved

/-- **A selection answers in one of these ways.** -/
theorem select_selects (source : Source) (tuning : SelectionTuning) (random : RandomSource σ)
    (seed : σ) (address : String) (request : SelectionRequest) (session : Session) :
    Selects source tuning random seed address request session
      ((source.select tuning random seed address request).run session).2
      ((source.select tuning random seed address request).run session).1 := by
  rw [select_run]
  cases accepted : Amount.check request.amount with
  | error error => exact .refused accepted
  | ok _ =>
      cases resolved : source.network.resolve address with
      | error error => exact .unresolved accepted resolved
      | ok key =>
          obtain ⟨plan, planned⟩ : ∃ plan,
              plan = source.scanPlan tuning random request key session := ⟨_, rfl⟩
          dsimp only [Except.bind]
          rw [solve_run planned]
          split
          next none => exact .empty accepted resolved none rfl
          next some =>
            split
            next room =>
              obtain ⟨ending, final, after, run, scanRun, between⟩ :=
                plan.scanSlices_scanRun (plan.visits seed) (plan.faithful_openingSession session)
                  (plan.carriesUncovered_opening seed)
              obtain ⟨concluded, reads, last, le, same⟩ := plan.source.concludeScan_concluded
                plan.request plan.deadline ending final.best after
              rw [plan.search_run, run]
              refine .scanned plan accepted resolved some planned scanRun concluded
                fun succeeds => ?_
              obtain ⟨follows, -⟩ := plan.scanSlices_followsClock (plan.visits seed) run succeeds
              rw [last]
              refine ⟨between succeeds, follows.mono le fun inTime => same fun expired => ?_⟩
              exact Bool.false_ne_true (inTime.symm.trans (scanRun.expired_iff.mp expired))
            next noRoom => exact .full accepted resolved some (Nat.lt_of_not_le noRoom)

/-- A selection that does not fail ends with the best set of its run, if there is one. -/
theorem select_ends {key : AddressKey} {plan : ScanPlan σ} {trace : ScanTrace}
    {answer : Answer Solution} {after : Session} (accepted : Amount.check request.amount = .ok ())
    (resolved : source.network.resolve address = .ok key)
    (room : tuning.blockCacheSize ≤ BlockCache.maxCapacity)
    (planned : plan = source.scanPlan tuning random request key session)
    (traced : trace = plan.selectionTrace seed session)
    (succeeds : ∀ {ending final},
      plan.ScanRun (plan.visits seed) (plan.opening seed) trace ending final →
        ∀ error, ending ≠ .failed error)
    (run : (source.select tuning random seed address request).run session = (answer, after)) :
    ∃ ending final, plan.ScanRun (plan.visits seed) (plan.opening seed) trace ending final ∧
      (trace.late = false → ending = .finished) ∧
      Ends source request key trace.late final.best answer ∧
      plan.FollowsClock (session.clockReads + 1) after.clockReads trace := by
  have selects := source.select_selects tuning random seed address request session
  rw [run] at selects
  dsimp only at selects
  cases selects with
  | refused refused => cases accepted.symm.trans refused
  | unresolved _ unresolved => cases resolved.symm.trans unresolved
  | empty _ found none reads =>
      cases resolved.symm.trans found
      have visits : plan.visits seed = [] := planned ▸ ScanPlan.visits_of_empty seed none
      rw [ScanPlan.selectionTrace, visits] at traced
      subst traced
      rw [visits]
      refine ⟨.finished, _, .done _, fun _ => rfl, .unsolved (by rw [Unsolved, if_pos none]), ?_⟩
      rw [reads]
      exact plan.followsClock_idle _
  | full _ _ _ full => exact absurd room (Nat.not_le_of_lt full)
  | @scanned _ ending final _ other _ found listed same run concluded follows =>
      cases resolved.symm.trans found
      subst planned same traced
      have late := run.expired_iff
      have intact := succeeds run
      refine ⟨ending, final, run, ?_⟩
      generalize final.best = best at concluded
      cases concluded with
      | failed error best => exact absurd rfl (intact error)
      | solvedInTime solution => exact ⟨fun _ => rfl, .solved solution, (follows intact).2⟩
      | solvedBefore solution =>
          rw [late.mp rfl]
          exact ⟨nofun, .solved solution, (follows intact).2⟩
      | timedOut elapsed =>
          rw [late.mp rfl]
          refine ⟨nofun, .unsolved ?_, (follows intact).2⟩
          rw [Unsolved, if_neg listed]
          exact ⟨elapsed, rfl⟩
      | insufficient =>
          have inTime : (ScanPlan.selectionTrace _ seed session).late = false :=
            Bool.eq_false_iff.mpr (mt late.mpr nofun)
          rw [inTime]
          refine ⟨fun _ => rfl, .unsolved ?_, (follows intact).2⟩
          rw [Unsolved, if_neg listed]
          rfl

end Select

/-! ## Undisturbed selections -/

/-- No deadline of a selection is ever past, whenever it starts. -/
def NeverLate (source : Source) (tuning : SelectionTuning) : Prop :=
  ∀ first later,
    (Deadline.mk (source.clock.reading first) tuning.timeout).expired
      (source.clock.reading later) = false

theorem neverLate_of_frozen {source : Source} {unixTime : Int64}
    (frozen : source.clock = .frozen unixTime) (tuning : SelectionTuning) :
    source.NeverLate tuning := by
  intro first later
  simp [frozen, Clock.frozen, Clock.stepping, Deadline.expired, Deadline.elapsed]

theorem NeverLate.not_late {source : Source} {tuning : SelectionTuning} {random : RandomSource σ}
    {request : SelectionRequest} {key : AddressKey} {session : Session}
    (neverLate : source.NeverLate tuning) :
    ¬ (source.scanPlan tuning random request key session).Late := by
  intro ⟨later, late⟩
  exact Bool.false_ne_true ((neverLate _ later).symm.trans late)

/-- What decides a selection is only which outputs are spendable at one time: the request and the
address are accepted, time does not run out, there is room for the cache, the reference time stands
still, every output can be judged, and no number leaves its range. -/
structure Undisturbed (source : Source) (time : Int64) (tuning : SelectionTuning)
    (address : String) (request : SelectionRequest) (key : AddressKey) : Prop where
  least : 1 ≤ request.amount.toInt
  most : request.amount.toInt ≤ Amount.maxRequest
  resolved : source.network.resolve address = .ok key
  neverLate : source.NeverLate tuning
  room : tuning.blockCacheSize ≤ BlockCache.maxCapacity
  stands : source.StandsAt time
  judged : ∀ output ∈ source.ledger.unspent key, source.Judged time request key output
  consistent : Consistent (source.ledger.unspent key)
  exact : ExactAmong tuning.fee request.amount (source.spendable time tuning request key)

/-- An undisturbed selection answers with the best set of a run over all slices. -/
theorem Undisturbed.select {source : Source} {time : Int64} {tuning : SelectionTuning}
    {address : String} {request : SelectionRequest} {key : AddressKey}
    (undisturbed : Undisturbed source time tuning address request key) (random : RandomSource σ)
    (seed : σ) (session : Session) {plan : ScanPlan σ}
    (planned : plan = source.scanPlan tuning random request key session) :
    ∃ trace final,
      plan.ScanRun (plan.visits seed) (plan.opening seed) trace .finished final ∧
      Ends source request key false final.best
        ((source.select tuning random seed address request).run session).1 := by
  have intact : ∀ {ending final},
      plan.ScanRun (plan.visits seed) (plan.opening seed) (plan.selectionTrace seed session) ending
        final → ∀ error, ending ≠ .failed error := by
    intro ending final run
    subst planned
    refine run.not_failed (ScanPlan.sound_opening _ seed)
      (fun look _ => ScanPlan.sliceJudged_of_standsAt undisturbed.stands undisturbed.judged look) ?_
    exact undisturbed.exact.subset (ScanPlan.fresh_subset_spendable undisturbed.stands _)
  have inTime : (plan.selectionTrace seed session).late = false := by
    subst planned
    exact Bool.eq_false_iff.mpr (mt ScanPlan.late_of_selectionTrace undisturbed.neverLate.not_late)
  obtain ⟨ending, final, run, finished, ends, -⟩ :=
    select_ends (Amount.check_eq_ok undisturbed.least undisturbed.most) undisturbed.resolved
      undisturbed.room planned rfl intact rfl
  rw [inTime] at ends
  exact ⟨_, final, finished inTime ▸ run, ends⟩

theorem neverLate_ofBlock (tipHeight : Int32) (block : Block) (key : AddressKey)
    (tuning : SelectionTuning) : (Source.ofBlock tipHeight block key).NeverLate tuning := by
  have frozen : (Source.ofBlock tipHeight block key).clock = .frozen Clock.defaultUnixTime := rfl
  exact neverLate_of_frozen frozen tuning

/-- In the ledger of a block only the numbers can disturb a selection. -/
theorem undisturbed_paying {amounts : List Int64} {tuning : SelectionTuning}
    {request : SelectionRequest} (least : 1 ≤ request.amount.toInt)
    (most : request.amount.toInt ≤ Amount.maxRequest)
    (room : tuning.blockCacheSize ≤ BlockCache.maxCapacity)
    (distinct : Distinct ((Block.paying amounts).entriesTo .ones))
    (exact : ExactAmong tuning.fee request.amount ((Block.paying amounts).entriesTo .ones)) :
    (Source.paying amounts).Undisturbed Clock.defaultUnixTime tuning AddressKey.onesAddress request
      .ones where
  least
  most
  resolved := Network.resolve_onesAddress
  neverLate := neverLate_ofBlock _ _ _ tuning
  room
  stands := standsAt_ofBlock _ _ _
  judged _ member := judged_ofBlock _ _ _ (by decide) _ _ member
  consistent := by
    rw [Source.paying, Source.ofBlock, Ledger.unspent_ofBlock]
    exact distinct.consistent
  exact := exact.subset (by
    rw [← Ledger.unspent_ofBlock 20]
    exact List.filter_subset_self _)

end Source

end CoinLedger
