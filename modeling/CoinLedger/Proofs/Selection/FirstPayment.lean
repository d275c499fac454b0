import CoinLedger.Proofs.Selection.Agreement

/-!
# Random selections as one walk

What a random selection answers depends only on its walk over all slices (`Source.selectionWalk`),
not on where the slices end: it is the shortest first part of the walk that pays the request
(`select_random`).  The walk starts with a slice that is drawn and goes once round, so whatever is
drawn it meets every spendable record once (`shuffled_visits_perm`), and as later repeats are
dropped, it lists every spendable output once (`Source.count_selectionWalk`).

An address without outputs has an empty walk, and its own error (`select_random_empty`).
-/

set_option autoImplicit false

namespace CoinLedger

open UnspentOutput Solution

/-! ## First payments -/

/-- The shortest first part of a walk that pays an amount. -/
structure FirstPayment (schedule : FeeSchedule) (amount : Int64)
    (walk chosen : List UnspentOutput) : Prop where
  first : chosen <+: walk
  pays : Pays schedule amount chosen
  shortest : ∀ part, part <+: walk → Pays schedule amount part → chosen.length ≤ part.length

/-- Where the sums are exact, what covers the request first pays it first. -/
theorem Solution.FirstCover.firstPayment {schedule : FeeSchedule} {amount : Int64}
    {walk chosen : List UnspentOutput} (sums : SumsAlong schedule amount walk)
    (cover : FirstCover schedule amount walk chosen) :
    FirstPayment schedule amount walk chosen where
  first := cover.first
  pays := (covers_iff_pays (sums.of_leading cover.first)).mp cover.covers
  shortest part first pays := by
    rcases Nat.le_total chosen.length part.length with longer | shorter
    · exact longer
    · have inside := List.prefix_of_prefix_length_le first cover.first shorter
      have covers := (covers_iff_pays (sums.of_leading first)).mpr pays
      rw [cover.shortest part inside covers]

/-! ## Selections -/

section Selection

variable {σ : Type} {source : Source} {time : Int64} {tuning : SelectionTuning}
  {random : RandomSource σ} {seed : σ} {address : String} {request : SelectionRequest}
  {session : Session} {key : AddressKey}

/-- **Whatever is drawn, the walk lists every spendable output once.** -/
theorem Source.count_selectionWalk {output : UnspentOutput}
    (member : output ∈ source.spendable time tuning request key) :
    ((source.selectionWalk time tuning random seed request key session).map outpoint).count
      output.outpoint = 1 := by
  let plan := source.scanPlan tuning random request key session
  have shuffled : output ∈ plan.shuffled time (plan.visits seed) (plan.opening seed).random :=
    (plan.shuffled_visits_perm time seed _).mem_iff.mpr member
  exact List.count_eq_one_of_mem (Source.distinct_selectionWalk random seed session)
    (listed_addEach [] shuffled)

/-- A solution in exact numbers: the outputs of it are the first payment along a walk. -/
structure SolvesFirst (tuning : SelectionTuning) (request : SelectionRequest)
    (walk : List UnspentOutput) (solution : Solution) : Prop where
  outputs : FirstPayment tuning.fee request.amount walk solution.outputs
  total : solution.total.toInt = worth solution.outputs
  fee : solution.fee = tuning.fee.feeForInputs solution.outputs.length
  change : solution.change.toInt =
    solution.total.toInt - request.amount.toInt - solution.fee.toInt

/-- What a random selection answers along its walk: the first payment if there is one. -/
structure AnswersFirst (source : Source) (time : Int64) (tuning : SelectionTuning)
    (request : SelectionRequest) (key : AddressKey) (walk : List UnspentOutput)
    (answer : Answer Solution) : Prop where
  /-- The walk is one over the spendable outputs, and lists each of them once. -/
  walked : walk ⊆ source.spendable time tuning request key
  once : ∀ output ∈ source.spendable time tuning request key,
    (walk.map outpoint).count output.outpoint = 1
  solved : (∃ part, part <+: walk ∧ Pays tuning.fee request.amount part) →
    ∃ solution, answer = .ok solution ∧ SolvesFirst tuning request walk solution
  unsolved : (¬ ∃ part, part <+: walk ∧ Pays tuning.fee request.amount part) →
    answer = .error (if source.ledger.unspentCount key = 0 then .noUnspentOutputs
      else .balanceInsufficient request.amount)

/-- A settled set that covers a request first along a walk with exact numbers solves it. -/
theorem Solution.FirstCover.solvesFirst {walk chosen : List UnspentOutput}
    (exact : ExactAlong tuning.fee request.amount walk)
    (cover : FirstCover tuning.fee request.amount walk chosen) :
    SolvesFirst tuning request walk ((ofOutputs tuning.fee chosen).settle request.amount) := by
  have payment := cover.firstPayment exact.sums
  have along := ExactAlong.of_leading exact cover.first
  exact {
    outputs := payment
    total := toInt_clampedTotal fun part first => (along part first).total
    fee := if_neg payment.pays.1
    change := toInt_change_of_settles (settles_of_covers along cover.covers) }

/-- **A random selection in time answers with the shortest first part of its walk that pays the
request**, and the walk lists every spendable output once. -/
theorem select_random {plan : ScanPlan σ} (drawn : request.policy = .random)
    (least : 1 ≤ request.amount.toInt) (most : request.amount.toInt ≤ Amount.maxRequest)
    (resolved : source.network.resolve address = .ok key)
    (room : tuning.blockCacheSize ≤ BlockCache.maxCapacity) (stands : source.StandsAt time)
    (planned : plan = source.scanPlan tuning random request key session)
    (inTime : (plan.selectionTrace seed session).late = false)
    (judged : ∀ look ∈ (plan.selectionTrace seed session).fetched, plan.SliceJudged look)
    (exact : ExactAlong tuning.fee request.amount
      (source.selectionWalk time tuning random seed request key session)) :
    AnswersFirst source time tuning request key
      (source.selectionWalk time tuning random seed request key session)
      ((source.select tuning random seed address request).run session).1 := by
  have succeeds : ∀ {ending final},
      plan.ScanRun (plan.visits seed) (plan.opening seed) (plan.selectionTrace seed session) ending
        final → ∀ error, ending ≠ .failed error := by
    subst planned
    exact fun run => run.random_not_failed stands drawn (ScanPlan.carrying_opening _ seed) judged
      exact
  obtain ⟨ending, final, run, finished, ends, -⟩ :=
    Source.select_ends (Amount.check_eq_ok least most) resolved room planned rfl succeeds rfl
  rw [inTime] at ends
  subst planned
  have walked := run.firstCover stands drawn (finished inTime) (ScanPlan.carrying_opening _ seed)
  refine ⟨Source.selectionWalk_subset _ _ _, fun output => Source.count_selectionWalk, ?_, ?_⟩
  · rintro ⟨part, first, pays⟩
    rcases walked with ⟨chosen, cover, best⟩ | ⟨uncovered, _⟩
    · exact ⟨_, ends.ok_iff.mpr best, cover.solvesFirst exact⟩
    · have covers := (covers_iff_pays (exact.sums.of_leading first)).mpr pays
      exact absurd covers (uncovered part first)
  · intro none
    rcases walked with ⟨chosen, cover, _⟩ | ⟨_, best⟩
    · have payment := cover.firstPayment exact.sums
      exact absurd ⟨chosen, payment.first, payment.pays⟩ none
    · rw [best] at ends
      cases ends with
      | unsolved unsolved =>
          rw [Unsolved, if_neg Bool.false_ne_true] at unsolved
          split
          next empty => rwa [if_pos empty] at unsolved
          next listed => rwa [if_neg listed] at unsolved

/-- Either output alone is too small, and they lie in different slices. -/
theorem select_random_carried :
    ∃ solution, (((Source.paying [300000, 500000]).select { sliceSize := 1 } .seeded 0
        AddressKey.onesAddress { amount := 600000, policy := .random }).run {}).1 = .ok solution ∧
      SolvesFirst { sliceSize := 1 } { amount := 600000, policy := .random }
        ((Source.paying [300000, 500000]).selectionWalk Clock.defaultUnixTime { sliceSize := 1 }
          .seeded 0
          { amount := 600000, policy := .random } .ones {}) solution := by
  have undisturbed : (Source.paying [300000, 500000]).Undisturbed Clock.defaultUnixTime
      { sliceSize := 1 } AddressKey.onesAddress { amount := 600000, policy := .random } .ones :=
    Source.undisturbed_paying (by decide) (by decide) (by decide) (by decide +kernel)
      (.of_nonneg (by decide +kernel) (by decide +kernel) (by decide +kernel) (by decide +kernel)
        (by decide +kernel))
  obtain ⟨plan, planned⟩ : ∃ plan : ScanPlan UInt64,
      plan = (Source.paying [300000, 500000]).scanPlan { sliceSize := 1 } .seeded
        { amount := 600000, policy := .random } .ones {} := ⟨_, rfl⟩
  have inTime : (plan.selectionTrace 0 {}).late = false := by
    rw [planned]
    decide +kernel
  have judged : ∀ look ∈ (plan.selectionTrace 0 {}).fetched, plan.SliceJudged look := by
    subst planned
    exact fun look _ => ScanPlan.sliceJudged_of_standsAt undisturbed.stands undisturbed.judged look
  have answers := select_random rfl undisturbed.least undisturbed.most undisturbed.resolved
    undisturbed.room undisturbed.stands planned inTime judged
    (undisturbed.exactAlong_selectionWalk .seeded 0 {})
  exact answers.solved ⟨_, List.prefix_rfl, by decide +kernel⟩

/-- Where nothing is unspent, that no first part of the walk pays is not what the answer says. -/
theorem select_random_empty :
    (Source.paying []).Undisturbed Clock.defaultUnixTime {} AddressKey.onesAddress
        { amount := 300000, policy := .random } .ones ∧
      (¬ ∃ part, part <+: (Source.paying []).selectionWalk Clock.defaultUnixTime {} .seeded 0
          { amount := 300000, policy := .random } .ones {} ∧ Pays {} 300000 part) ∧
      (((Source.paying []).select {} .seeded 0 AddressKey.onesAddress
        { amount := 300000, policy := .random }).run {}).1 = .error .noUnspentOutputs ∧
      (((Source.paying []).select {} .seeded 0 AddressKey.onesAddress
        { amount := 300000, policy := .random }).run {}).1 ≠
          .error (.balanceInsufficient 300000) := by
  have undisturbed : (Source.paying []).Undisturbed Clock.defaultUnixTime {} AddressKey.onesAddress
      { amount := 300000, policy := .random } .ones :=
    Source.undisturbed_paying (by decide) (by decide) (by decide) (by decide +kernel)
      (.of_nonneg (by decide +kernel) (by decide +kernel) (by decide +kernel) (by decide +kernel)
        (by decide +kernel))
  have none : ¬ ∃ part, part <+: (Source.paying []).selectionWalk Clock.defaultUnixTime {} .seeded 0
      { amount := 300000, policy := .random } .ones {} ∧ Pays {} 300000 part := by
    rintro ⟨part, first, pays⟩
    have walk : (Source.paying []).selectionWalk Clock.defaultUnixTime {} .seeded 0
        { amount := 300000, policy := .random } .ones {} = [] := by
      decide +kernel
    rw [walk] at first
    exact pays.1 (List.prefix_nil.mp first)
  obtain ⟨solved_iff, unsolved⟩ := undisturbed.random_solved_iff rfl .seeded 0 {} rfl
  have answer := unsolved (mt solved_iff.mp none)
  rw [Unsolved, if_pos (by decide +kernel)] at answer
  exact ⟨undisturbed, none, answer, answer ▸ nofun⟩

end Selection

end CoinLedger
