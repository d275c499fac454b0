import CoinLedger.Proofs.Selection.Trace

/-!
# The clock of a scan

Before each slice that a scan fetches and each output that it walks the clock is read, and the step
is made only if the reading is not past the deadline (`Guarded`).  This holds of a walk and of a
visit (`walk_guarded`, `visit_guarded`).  So the trace of a scan follows the clock: time is seen to
have run out exactly when one of its readings lies past the deadline, and a slice is walked to the
end exactly when no reading up to then does (`scanSlices_followsClock`).
-/

set_option autoImplicit false

namespace CoinLedger

variable {σ : Type}

/-- The work of a scan. -/
structure ScanWork where
  /-- The slices that were fetched. -/
  fetched : List Nat := []
  /-- The outputs that were walked. -/
  outputs : List UnspentOutput := []
  /-- The slices whose walk ended with a set that covers the request. -/
  covering : List Nat := []
  /-- Whether a reading of the clock was past the deadline. -/
  late : Bool := false
  deriving DecidableEq, Repr

/-- How many steps the work took. -/
def ScanWork.steps (work : ScanWork) : Nat :=
  work.fetched.length + work.outputs.length

/-- Whether a visit ended before time was seen to have run out. -/
def Visit.inTime : Visit σ → Bool
  | .late | .cut _ => false
  | .failed _ _ | .walked _ _ => true

namespace Query

variable {α β : Type}

/-- The query does not read the clock. -/
def Timeless (query : Query α) : Prop :=
  ∀ session : Session, (query.runIn session).2.clockReads = session.clockReads

theorem timeless_ofAnswer (answer : Answer α) : Timeless (ofAnswer answer) := fun _ => rfl

theorem Timeless.bind {query : Query α} {next : α → Query β} (first : Timeless query)
    (second : ∀ value, Timeless (next value)) : Timeless (query >>= next) := by
  intro session
  rw [runIn_bind, ← first session]
  rcases query.runIn session with ⟨fault | value, middle⟩
  · rfl
  · exact second value middle

end Query

/-- The time of day is not a reading of the clock. -/
theorem Source.timeless_isLockedNow (source : Source) (output : Option TxOutput) :
    Query.Timeless (liftM (source.isLockedNow output) : Query Bool) := by
  intro session
  rw [Query.runIn_liftM, isLockedNow_run]

namespace ScanPlan

/-! ## The work of a visit -/

/-- The outputs that a walk adds to its set; the last one may be one whose fee cannot be told. -/
def walkedOutputs (plan : ScanPlan σ) :
    List UnspentOutput → Solution → Session → List UnspentOutput
  | [], _, _ => []
  | output :: rest, candidate, session =>
    if plan.deadline.expired (plan.source.clock.reading session.clockReads) then []
    else
      match candidate.addChecked plan.tuning.fee output with
      | .error _ => [output]
      | .ok candidate =>
        if candidate.covers plan.request.amount then [output]
        else output :: plan.walkedOutputs rest candidate session.afterReading

/-- The work of a visit. -/
def visitWork (plan : ScanPlan σ) (slice : Nat) (scan : Scan σ) (session : Session) : ScanWork :=
  if plan.deadline.expired (plan.source.clock.reading session.clockReads) then { late := true }
  else
    match (plan.usableOutputs (plan.sliceOutputs slice)).runIn session.afterReading with
    | (.error _, _) => { fetched := [slice] }
    | (.ok fresh, after) =>
      let (order, arranged) := plan.arrange scan.fetch fresh
      let start := plan.request.policy.startingSet arranged.carried
      let ending := ((plan.walk order start).run after).1.1
      { fetched := [slice]
        outputs := plan.walkedOutputs order start after
        covering := if ending = .covered then [slice] else []
        late := ending = .expired }

/-! ## Guarded steps -/

/-- Before each of some steps the clock was read and the deadline was not past; after them the clock
was read once more if the deadline was past. -/
structure Guarded (plan : ScanPlan σ) (session after : Session) (steps : Nat) (late : Bool) :
    Prop where
  reads : after.clockReads = session.clockReads + steps + late.toNat
  inTime : ∀ step < steps,
    ¬ plan.deadline.expired (plan.source.clock.reading (session.clockReads + step)) = true
  past : late = true →
    plan.deadline.expired (plan.source.clock.reading (session.clockReads + steps)) = true

/-- Some reading between two of them lies past the deadline. -/
def PastWithin (plan : ScanPlan σ) (first last : Nat) : Prop :=
  ∃ reads, first ≤ reads ∧ reads < last ∧
    plan.deadline.expired (plan.source.clock.reading reads) = true

/-- Readings that are in time may be left out in front. -/
theorem pastWithin_iff_of_not {plan : ScanPlan σ} {first middle last : Nat}
    (inTime : ¬ plan.PastWithin first middle) (le : first ≤ middle) :
    plan.PastWithin first last ↔ plan.PastWithin middle last := by
  constructor
  · rintro ⟨reads, least, most, past⟩
    refine ⟨reads, Nat.le_of_not_lt fun before => ?_, most, past⟩
    exact inTime ⟨reads, least, before, past⟩
  · rintro ⟨reads, least, most, past⟩
    exact ⟨reads, le.trans least, most, past⟩

namespace Guarded

variable {plan : ScanPlan σ} {session middle after : Session}

theorem idle (same : after.clockReads = session.clockReads) :
    plan.Guarded session after 0 false where
  reads := same
  inTime _ none := absurd none (Nat.not_lt_zero _)
  past := nofun

theorem late (past : plan.deadline.expired (plan.source.clock.reading session.clockReads) = true) :
    plan.Guarded session session.afterReading 0 true where
  reads := rfl
  inTime _ none := absurd none (Nat.not_lt_zero _)
  past _ := past

theorem step
    (inTime : ¬ plan.deadline.expired (plan.source.clock.reading session.clockReads) = true) :
    plan.Guarded session session.afterReading 1 false where
  reads := rfl
  inTime step first := by
    obtain rfl : step = 0 := Nat.lt_one_iff.mp first
    exact inTime
  past := nofun

theorem append {steps more : Nat} {late : Bool} (first : plan.Guarded session middle steps false)
    (second : plan.Guarded middle after more late) :
    plan.Guarded session after (steps + more) late := by
  have between : middle.clockReads = session.clockReads + steps := first.reads
  refine ⟨?_, fun step below => ?_, fun isLate => ?_⟩
  · rw [second.reads, between, Nat.add_assoc session.clockReads]
  · by_cases early : step < steps
    · exact first.inTime step early
    · have inTime := second.inTime (step - steps) (by omega)
      rw [between] at inTime
      rwa [show session.clockReads + step = session.clockReads + steps + (step - steps) by omega]
  · rw [← Nat.add_assoc, ← between]
    exact second.past isLate

/-- Of the readings for guarded steps none is past the deadline but the one that shows it. -/
theorem pastWithin_iff {steps : Nat} {late : Bool}
    (guarded : plan.Guarded session after steps late) :
    plan.PastWithin session.clockReads after.clockReads ↔ late = true := by
  constructor
  · rintro ⟨reads, least, most, past⟩
    by_contra inTime
    obtain rfl : late = false := (Bool.not_eq_true _).mp inTime
    have total : after.clockReads = session.clockReads + steps := guarded.reads
    refine guarded.inTime (reads - session.clockReads) (by omega) ?_
    rwa [Nat.add_sub_cancel' least]
  · rintro rfl
    refine ⟨session.clockReads + steps, Nat.le_add_right _ _, ?_, guarded.past rfl⟩
    rw [guarded.reads]
    exact Nat.lt_succ_self _

theorem reads_le {steps : Nat} {late : Bool} (guarded : plan.Guarded session after steps late) :
    session.clockReads ≤ after.clockReads := by
  rw [guarded.reads, Nat.add_assoc]
  exact Nat.le_add_right _ _

end Guarded

/-! ## Walks and visits -/

variable (plan : ScanPlan σ)

/-- **Every step of a walk is guarded.** -/
theorem walk_guarded (order : List UnspentOutput) (candidate : Solution) (session : Session) :
    plan.Guarded session ((plan.walk order candidate).run session).2
      (plan.walkedOutputs order candidate session).length
      (((plan.walk order candidate).run session).1.1 = .expired) := by
  induction order generalizing candidate session with
  | nil => exact .idle rfl
  | cons output rest ih =>
      rw [walk_cons_run, walkedOutputs]
      split
      next late => exact .late late
      next inTime =>
        cases candidate.addChecked plan.tuning.fee output with
        | error _ => exact .step inTime
        | ok candidate =>
            dsimp only
            split
            next => exact .step inTime
            next =>
              rw [List.length_cons, Nat.add_comm]
              exact (Guarded.step inTime).append (ih _ _)

/-- Lookups do not read the clock. -/
theorem timeless_usableOutputs (outputs : List UnspentOutput) :
    Query.Timeless (plan.usableOutputs outputs) := by
  induction outputs with
  | nil => exact Query.timeless_ofAnswer (.ok [])
  | cons output rest ih =>
      have lookup : Query.Timeless
          (plan.source.checkTimeLockCached output.height output.txid plan.key) :=
        Query.Timeless.bind (fun _ => rfl) fun _ =>
          (Query.timeless_ofAnswer _).bind (plan.source.timeless_isLockedNow)
      exact lookup.bind fun _ => (Query.timeless_ofAnswer _).bind fun _ =>
        ih.bind fun _ => Query.timeless_ofAnswer (.ok _)

theorem inTime_afterVisit (covered : Bool) (candidate : Solution) (arranged : Scan σ) :
    (plan.afterVisit covered candidate arranged).inTime = true := by
  unfold afterVisit
  split <;> rfl

/-- **Every step of a visit is guarded**, and the visit is in time unless a reading is late. -/
theorem visit_guarded (slice : Nat) (scan : Scan σ) (session : Session) :
    plan.Guarded session (plan.visit slice scan session).2
        (plan.visitWork slice scan session).steps (plan.visitWork slice scan session).late ∧
      (plan.visit slice scan session).1.inTime = !(plan.visitWork slice scan session).late := by
  unfold visit visitWork
  split
  next late => exact ⟨.late late, rfl⟩
  next inTime =>
    have fetched := Guarded.step inTime
    have looked := plan.timeless_usableOutputs (plan.sliceOutputs slice) session.afterReading
    generalize (plan.usableOutputs (plan.sliceOutputs slice)).runIn session.afterReading = found
      at looked ⊢
    rcases found with ⟨error | fresh, after⟩
    · exact ⟨fetched.append (.idle looked), rfl⟩
    · have walk := (fetched.append (.idle looked)).append (plan.walk_guarded
        (plan.arrange scan.fetch fresh).1
        (plan.request.policy.startingSet (plan.arrange scan.fetch fresh).2.carried) after)
      dsimp only
      generalize plan.walkedOutputs _ _ after = outputs at walk ⊢
      generalize (plan.arrange scan.fetch fresh).2 = arranged at walk ⊢
      generalize (plan.walk _ _).run after = run at walk ⊢
      obtain ⟨⟨_ | _ | _ | _, candidate⟩, later⟩ := run
      · exact ⟨walk, plan.inTime_afterVisit (WalkEnd.exhausted = .covered) candidate arranged⟩
      · exact ⟨walk, plan.inTime_afterVisit (WalkEnd.covered = .covered) candidate arranged⟩
      · exact ⟨walk, rfl⟩
      · exact ⟨walk, rfl⟩

/-- A visit in a session, told by its readings of the clock. -/
theorem visit_pastWithin_iff (slice : Nat) (scan : Scan σ) (session : Session) :
    plan.PastWithin session.clockReads (plan.visit slice scan session).2.clockReads ↔
      (plan.visit slice scan session).1.inTime = false := by
  obtain ⟨guarded, inTime⟩ := plan.visit_guarded slice scan session
  rw [guarded.pastWithin_iff, inTime, Bool.not_eq_false']

/-! ## Traces -/

/-- The trace tells which readings of the clock lie past the deadline. -/
structure FollowsClock (plan : ScanPlan σ) (first last : Nat) (trace : ScanTrace) : Prop where
  late_iff : trace.late = true ↔ plan.PastWithin first last
  /-- A slice that is fetched is walked to the end unless a reading up to then is late. -/
  walked_iff : ∀ look ∈ trace.fetched,
    look ∈ trace.walked ↔ ¬ plan.PastWithin first look.clockReads

theorem followsClock_idle (reads : Nat) : plan.FollowsClock reads reads {} := by
  refine ⟨iff_of_false nofun ?_, nofun⟩
  rintro ⟨between, least, most, _⟩
  exact absurd (least.trans_lt most) (Nat.lt_irrefl _)

/-- The trace of a scan with a slice in front that was walked in time. -/
theorem FollowsClock.walkedFirst {plan : ScanPlan σ} {first last : Nat} {trace : ScanTrace}
    {look : Look} (follows : plan.FollowsClock look.clockReads last trace)
    (inTime : ¬ plan.PastWithin first look.clockReads) (le : first ≤ look.clockReads) :
    plan.FollowsClock first last (trace.walkedFirst look) where
  late_iff := follows.late_iff.trans (pastWithin_iff_of_not inTime le).symm
  walked_iff other member := by
    rcases eq_or_ne other look with rfl | different
    · exact iff_of_true List.mem_cons_self inTime
    · have later := List.mem_of_ne_of_mem different member
      rw [pastWithin_iff_of_not inTime le, ← follows.walked_iff other later]
      exact ⟨List.mem_of_ne_of_mem different, List.mem_cons_of_mem look⟩

/-- After a late reading it does not matter how often the clock is read. -/
theorem FollowsClock.mono {plan : ScanPlan σ} {first last more : Nat} {trace : ScanTrace}
    (follows : plan.FollowsClock first last trace) (le : last ≤ more)
    (same : trace.late = false → more = last) : plan.FollowsClock first more trace := by
  refine ⟨?_, follows.walked_iff⟩
  cases late : trace.late with
  | false =>
      rw [same late, ← late]
      exact follows.late_iff
  | true =>
      obtain ⟨reads, least, most, past⟩ := follows.late_iff.mp late
      exact iff_of_true rfl ⟨reads, least, most.trans_le le, past⟩

/-- **The trace of a scan that does not fail follows the clock.** -/
theorem scanSlices_followsClock (slices : List Nat) {scan final : Scan σ}
    {session after : Session} {ending : ScanEnd}
    (run : (plan.scanSlices slices scan).run session = ((ending, final), after))
    (succeeds : ∀ error, ending ≠ .failed error) :
    plan.FollowsClock session.clockReads after.clockReads (plan.trace slices scan session) ∧
      session.clockReads ≤ after.clockReads := by
  induction slices generalizing scan session with
  | nil =>
      cases run
      exact ⟨plan.followsClock_idle _, Nat.le_refl _⟩
  | cons slice rest ih =>
      rw [scanSlices_cons_run] at run
      rw [trace]
      have past_iff := plan.visit_pastWithin_iff slice scan session
      have le := (plan.visit_guarded slice scan session).1.reads_le
      generalize plan.visit slice scan session = visited at run past_iff le ⊢
      obtain ⟨visit, middle⟩ := visited
      cases visit with
      | late =>
          cases run
          exact ⟨⟨iff_of_true rfl (past_iff.mpr rfl),
            fun _ member => absurd member List.not_mem_nil⟩, le⟩
      | failed error failing =>
          cases run
          exact absurd rfl (succeeds error)
      | cut arranged =>
          cases run
          refine ⟨⟨iff_of_true rfl (past_iff.mpr rfl), fun look member => ?_⟩, le⟩
          obtain rfl := List.mem_singleton.mp member
          exact iff_of_false List.not_mem_nil (not_not_intro (past_iff.mpr rfl))
      | walked next goesOn =>
          have inTime := mt past_iff.mp Bool.true_eq_false.mp
          cases goesOn with
          | false =>
              cases run
              refine ⟨⟨iff_of_false Bool.false_ne_true inTime, fun look member => ?_⟩, le⟩
              obtain rfl := List.mem_singleton.mp member
              exact iff_of_true member inTime
          | true =>
              obtain ⟨follows, later⟩ := ih run
              exact ⟨follows.walkedFirst inTime le, le.trans later⟩

end ScanPlan

end CoinLedger
