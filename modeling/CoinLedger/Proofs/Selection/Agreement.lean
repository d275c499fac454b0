import CoinLedger.Proofs.Selection.Minimality

/-!
# Random and minimal selections

Where the reference time stands still, a random scan goes once along all spendable outputs: slice by
slice, each slice in the order of its shuffle, every output once (`randomWalk`).  The set of a slice
is carried to the next one and the first covering set is accepted, so the scan ends with the
shortest first part of that walk that covers the request (`ScanRun.firstCover`); it fails only where
a number on the walk leaves its range (`ScanRun.random_not_failed`).  A minimal scan is solved
exactly when some set pays.  So in time a request that the random policy solves is solved by the
minimal one, and both solve it when all spendable outputs together pay (`select_agreement`).  In
between the answer of the random policy depends on its draws: an output that is worth less than its
share of the fee may stand in front of one that pays alone.
-/

set_option autoImplicit false

namespace CoinLedger

open UnspentOutput Solution

theorem Policy.improves_random (candidate : Solution) (best : Option Solution) :
    Policy.improves .random candidate best = true := by
  cases best <;> rfl

namespace ScanPlan

variable {σ : Type} {plan : ScanPlan σ} {time : Int64} {look : Look} {scan : Scan σ}

/-! ## The walk of a random scan -/

/-- The outputs of slices that are spendable at a time, each slice in the order of its shuffle. -/
def shuffled (plan : ScanPlan σ) (time : Int64) : List Nat → σ → List UnspentOutput
  | [], _ => []
  | slice :: rest, state =>
    (plan.random.shuffle (plan.freshAt time slice) state).1 ++
      plan.shuffled time rest (plan.random.shuffle (plan.freshAt time slice) state).2

theorem shuffled_perm (plan : ScanPlan σ) (time : Int64) (slices : List Nat) (state : σ) :
    (plan.shuffled time slices state).Perm (slices.flatMap (plan.freshAt time)) := by
  induction slices generalizing state with
  | nil => exact List.Perm.refl _
  | cons slice rest ih => exact (plan.random.shuffle_perm _ _).append (ih _)

/-- The walk of a random scan: each spendable output once. -/
def randomWalk (plan : ScanPlan σ) (time : Int64) (slices : List Nat) (state : σ) :
    List UnspentOutput :=
  addEach [] (plan.shuffled time slices state)

/-- A random scan ends at a step exactly when the walk covers the request. -/
theorem afterWalk_random (random : plan.request.policy = .random) (covered : Bool)
    (candidate : Solution) (scan : Scan σ) :
    (plan.afterWalk covered candidate scan).2 = !covered ∧
      (plan.afterWalk covered candidate scan).1.best =
        (if covered then some (candidate.settle plan.request.amount) else scan.best) ∧
      (plan.afterWalk covered candidate scan).1.random = scan.random := by
  have best : (plan.outcome covered candidate scan).best =
      if covered then some (candidate.settle plan.request.amount) else scan.best := by
    rw [outcome_best, random]
    simp [Policy.improves_random]
  have cases := plan.afterWalk_cases covered candidate scan
  rw [random] at cases
  rcases cases with ⟨accepts, equal⟩ | ⟨_, pruned, _⟩ | ⟨refused, pool, _, equal⟩
  · rw [equal]
    exact ⟨by simp [accepts.1], best, outcome_random _ _ _ _⟩
  · cases pruned
  · rw [equal]
    refine ⟨?_, best, outcome_random _ _ _ _⟩
    rw [Bool.eq_false_iff.mpr fun covered => refused ⟨covered, random⟩]
    rfl

/-- A random scan that has no solution yet carries the set of the outputs that it walked. -/
structure Carrying (plan : ScanPlan σ) (outputs : List UnspentOutput) (scan : Scan σ) : Prop where
  carried : scan.carried = ofOutputs plan.tuning.fee outputs
  uncovered : Uncovered plan.tuning.fee plan.request.amount outputs
  unsolved : scan.best = none

theorem carrying_opening (plan : ScanPlan σ) (seed : σ) : plan.Carrying [] (plan.opening seed) where
  carried := rfl
  uncovered := uncovered_nil
  unsolved := rfl

theorem Carrying.path {outputs : List UnspentOutput} (carrying : plan.Carrying outputs scan)
    (random : plan.request.policy = .random) (look : Look) :
    plan.path look scan =
      addEach outputs (plan.random.shuffle (plan.fresh look) scan.random).1 := by
  rw [ScanPlan.path, arranged_of_random random, random, Policy.startingSet, carrying.carried]
  rfl

/-- **A step of a random scan goes on along the walk or ends the scan with the first part of the
walk that covers the request.** -/
theorem Carrying.step {outputs : List UnspentOutput} {next : Scan σ} {goesOn : Bool}
    (carrying : plan.Carrying outputs scan) (random : plan.request.policy = .random)
    (step : plan.Step look scan next goesOn) :
    (goesOn = true ∧
      plan.Carrying (addEach outputs (plan.random.shuffle (plan.fresh look) scan.random).1) next ∧
      next.random = (plan.random.shuffle (plan.fresh look) scan.random).2) ∨
    (goesOn = false ∧ ∃ chosen,
      FirstCover plan.tuning.fee plan.request.amount
        (addEach outputs (plan.random.shuffle (plan.fresh look) scan.random).1) chosen ∧
      next.best = some ((ofOutputs plan.tuning.fee chosen).settle plan.request.amount)) := by
  have path := carrying.path random look
  cases step with
  | exhausted _ uncovered =>
      obtain ⟨goesOn, best, state⟩ := afterWalk_random random false
        (ofOutputs plan.tuning.fee (plan.path look scan)) (plan.arranged look scan).2
      refine .inl ⟨goesOn, ⟨?_, path ▸ uncovered, ?_⟩, ?_⟩
      · rw [afterWalk_carried, path]
        rfl
      · rw [best, arranged_best, if_neg Bool.false_ne_true]
        exact carrying.unsolved
      · rw [state, arranged_of_random random]
  | @covered chosen _ cover _ =>
      obtain ⟨stops, best, _⟩ := afterWalk_random random true
        (ofOutputs plan.tuning.fee chosen) (plan.arranged look scan).2
      exact .inr ⟨stops, chosen, path ▸ cover, best⟩

/-- **A random scan in time ends with the shortest first part of its walk that covers the request**,
and without a solution only when no first part does. -/
theorem ScanRun.firstCover {slices : List Nat} {final : Scan σ} {trace : ScanTrace}
    {ending : ScanEnd} {outputs : List UnspentOutput}
    (run : plan.ScanRun slices scan trace ending final) (stands : plan.source.StandsAt time)
    (random : plan.request.policy = .random) (finished : ending = .finished)
    (carrying : plan.Carrying outputs scan) :
    (∃ chosen, FirstCover plan.tuning.fee plan.request.amount
        (addEach outputs (plan.shuffled time slices scan.random)) chosen ∧
      final.best = some ((ofOutputs plan.tuning.fee chosen).settle plan.request.amount)) ∨
    (Uncovered plan.tuning.fee plan.request.amount
        (addEach outputs (plan.shuffled time slices scan.random)) ∧
      final.best = none) := by
  induction run generalizing outputs with
  | done scan => exact .inr ⟨carrying.uncovered, carrying.unsolved⟩
  | late _ => cases finished
  | failed _ _ => cases finished
  | halted _ _ => cases finished
  | cut _ _ => cases finished
  | stopped _ step =>
      rcases carrying.step random step with ⟨impossible, _⟩ | ⟨_, chosen, cover, best⟩
      · cases impossible
      · refine .inl ⟨chosen, ?_, best⟩
        rw [shuffled, addEach_append, ← fresh_of_standsAt stands]
        exact cover.extend (prefix_addEach _ _)
  | continued _ step _ ih =>
      rcases carrying.step random step with ⟨_, carries, state⟩ | ⟨impossible, _⟩
      · rw [shuffled, addEach_append, ← fresh_of_standsAt stands, ← state]
        exact ih finished carries
      · cases impossible

/-- **A random scan does not fail** when every output that it looks at can be judged and the numbers
along its walk are exact. -/
theorem ScanRun.random_not_failed {slices : List Nat} {final : Scan σ} {trace : ScanTrace}
    {ending : ScanEnd} {outputs : List UnspentOutput}
    (run : plan.ScanRun slices scan trace ending final) (stands : plan.source.StandsAt time)
    (random : plan.request.policy = .random) (carrying : plan.Carrying outputs scan)
    (judged : ∀ look ∈ trace.fetched, plan.SliceJudged look)
    (exact : ExactAlong plan.tuning.fee plan.request.amount
      (addEach outputs (plan.shuffled time slices scan.random))) (error : QueryError) :
    ending ≠ .failed error := by
  induction run generalizing outputs with
  | done scan => exact nofun
  | late _ => exact nofun
  | failed member fails =>
      exact absurd fails ((judged _ (List.mem_singleton_self _)).not_fails member _)
  | halted _ halts =>
      rw [shuffled, addEach_append, ← fresh_of_standsAt stands] at exact
      rw [carrying.path random] at halts
      exact absurd halts (not_halts_of_exact (exact.of_leading (prefix_addEach _ _)))
  | cut _ _ => exact nofun
  | stopped _ _ => exact nofun
  | continued _ step _ ih =>
      rcases carrying.step random step with ⟨_, carries, state⟩ | ⟨impossible, _⟩
      · rw [shuffled, addEach_append, ← fresh_of_standsAt stands, ← state] at exact
        exact ih carries (fun look member => judged look (List.mem_cons_of_mem _ member)) exact
      · cases impossible

/-- A random scan in time is solved exactly when a first part of its walk covers the request. -/
theorem ScanRun.solved_iff {slices : List Nat} {final : Scan σ} {trace : ScanTrace}
    {ending : ScanEnd} {outputs : List UnspentOutput}
    (run : plan.ScanRun slices scan trace ending final) (stands : plan.source.StandsAt time)
    (random : plan.request.policy = .random) (finished : ending = .finished)
    (carrying : plan.Carrying outputs scan) :
    (∃ solution, final.best = some solution) ↔
      ∃ part, part <+: addEach outputs (plan.shuffled time slices scan.random) ∧
        Covers plan.tuning.fee plan.request.amount part := by
  rcases run.firstCover stands random finished carrying with
    ⟨chosen, cover, best⟩ | ⟨uncovered, best⟩
  · exact ⟨fun _ => ⟨chosen, cover.first, cover.covers⟩, fun _ => ⟨_, best⟩⟩
  · constructor
    · rintro ⟨solution, found⟩
      cases best.symm.trans found
    · rintro ⟨part, first, covers⟩
      exact absurd covers (uncovered part first)

/-! ## The outputs of the walk -/

theorem distinct_randomWalk (plan : ScanPlan σ) (time : Int64) (slices : List Nat) (state : σ) :
    Distinct (plan.randomWalk time slices state) := by
  have none : Distinct [] := List.nodup_nil
  exact none.addEach _

/-- **Whatever is drawn, the shuffled slices hold every spendable record once.** -/
theorem shuffled_visits_perm (plan : ScanPlan σ) (time : Int64) (seed state : σ) :
    (plan.shuffled time (plan.visits seed) state).Perm
      (plan.source.spendable time plan.tuning plan.request plan.key) :=
  (plan.shuffled_perm time _ state).trans (plan.flatMap_freshAt_perm time seed)

theorem randomWalk_subset (plan : ScanPlan σ) (time : Int64) (seed state : σ) :
    plan.randomWalk time (plan.visits seed) state ⊆
      plan.source.spendable time plan.tuning plan.request plan.key :=
  addEach_subset (List.nil_subset _) (plan.shuffled_visits_perm time seed state).subset

/-- The walk over all slices meets every spendable output. -/
theorem spendable_subset_randomWalk {seed : σ} (state : σ)
    (consistent : Consistent (plan.source.ledger.unspent plan.key)) :
    plan.source.spendable time plan.tuning plan.request plan.key ⊆
      plan.randomWalk time (plan.visits seed) state := by
  intro output member
  have shuffled : output ∈ plan.shuffled time (plan.visits seed) state :=
    (plan.shuffled_visits_perm time seed state).mem_iff.mpr member
  obtain ⟨listed, walked, same⟩ := List.mem_map.mp (listed_addEach [] shuffled)
  have recorded := plan.randomWalk_subset _ _ _ walked
  obtain rfl : listed = output :=
    consistent listed (List.mem_filter.mp recorded).1 output (List.mem_filter.mp member).1 same
  exact walked

end ScanPlan

/-! ## Selections -/

section Selection

variable {σ τ : Type} {source : Source} {time : Int64} {tuning : SelectionTuning}
  {address : String} {request : SelectionRequest} {key : AddressKey}

/-- The walk of a random selection that starts in a session, where the reference time stands. -/
def Source.selectionWalk (source : Source) (time : Int64) (tuning : SelectionTuning)
    (random : RandomSource σ) (seed : σ) (request : SelectionRequest) (key : AddressKey)
    (session : Session) : List UnspentOutput :=
  let plan := source.scanPlan tuning random request key session
  plan.randomWalk time (plan.visits seed) (plan.opening seed).random

theorem Source.distinct_selectionWalk (random : RandomSource σ) (seed : σ) (session : Session) :
    Distinct (source.selectionWalk time tuning random seed request key session) :=
  ScanPlan.distinct_randomWalk _ _ _ _

theorem Source.selectionWalk_subset (random : RandomSource σ) (seed : σ) (session : Session) :
    source.selectionWalk time tuning random seed request key session ⊆
      source.spendable time tuning request key :=
  ScanPlan.randomWalk_subset _ _ _ _

/-- No number along the walk of an undisturbed selection leaves its range. -/
theorem Source.Undisturbed.exactAlong_selectionWalk
    (undisturbed : source.Undisturbed time tuning address request key) (random : RandomSource σ)
    (seed : σ) (session : Session) :
    ExactAlong tuning.fee request.amount
      (source.selectionWalk time tuning random seed request key session) :=
  undisturbed.exact.along (Source.selectionWalk_subset random seed session)
    (Source.distinct_selectionWalk random seed session)

/-- Along the walk the outputs that cover the request are those that pay it. -/
theorem Source.Undisturbed.covers_iff_pays
    (undisturbed : source.Undisturbed time tuning address request key) {random : RandomSource σ}
    {seed : σ} {session : Session} {part : List UnspentOutput}
    (first : part <+: source.selectionWalk time tuning random seed request key session) :
    Covers tuning.fee request.amount part ↔ Pays tuning.fee request.amount part :=
  Solution.covers_iff_pays
    (ExactAlong.of_leading (undisturbed.exactAlong_selectionWalk random seed session) first).sums

/-- An undisturbed random selection is solved exactly when a first part of its walk pays. -/
theorem Source.Undisturbed.random_solved_iff
    (undisturbed : source.Undisturbed time tuning address request key)
    (drawn : request.policy = .random) (random : RandomSource σ) (seed : σ) (session : Session)
    {answer : Answer Solution}
    (answered : ((source.select tuning random seed address request).run session).1 = answer) :
    ((∃ solution, answer = .ok solution) ↔
        ∃ part, part <+: source.selectionWalk time tuning random seed request key session ∧
          Pays tuning.fee request.amount part) ∧
      ((¬ ∃ solution, answer = .ok solution) → Unsolved source request key false answer) := by
  obtain ⟨trace, final, run, ends⟩ := undisturbed.select random seed session rfl
  rw [answered] at ends
  refine ⟨?_, ends.unsolved_of⟩
  calc (∃ solution, answer = .ok solution)
      ↔ ∃ solution, final.best = some solution := exists_congr fun _ => ends.ok_iff
    _ ↔ ∃ part, part <+: source.selectionWalk time tuning random seed request key session ∧
          Covers tuning.fee request.amount part :=
        run.solved_iff undisturbed.stands drawn rfl (ScanPlan.carrying_opening _ seed)
    _ ↔ _ := exists_congr fun _ => and_congr_right undisturbed.covers_iff_pays

/-- How the answers of a random and of a minimal selection of the same request are related. -/
structure Agreement (source : Source) (time : Int64) (tuning : SelectionTuning)
    (request : SelectionRequest) (key : AddressKey) (walk : List UnspentOutput)
    (random minimal : Answer Solution) : Prop where
  /-- The walk of the random selection lists every spendable output once. -/
  walk_distinct : Distinct walk
  mem_walk : ∀ output, output ∈ walk ↔ output ∈ source.spendable time tuning request key
  random_iff : (∃ solution, random = .ok solution) ↔
    ∃ part, part <+: walk ∧ Pays tuning.fee request.amount part
  minimal_iff : (∃ solution, minimal = .ok solution) ↔
    ∃ chosen, Payment tuning.fee request.amount (source.spendable time tuning request key) chosen
  minimal_of_random : (∃ solution, random = .ok solution) → ∃ solution, minimal = .ok solution
  /-- Both are solved when all spendable outputs together pay. -/
  both_of_pays : Pays tuning.fee request.amount walk →
    (∃ solution, random = .ok solution) ∧ ∃ solution, minimal = .ok solution
  random_unsolved : (¬ ∃ solution, random = .ok solution) →
    Unsolved source request key false random
  minimal_unsolved : (¬ ∃ solution, minimal = .ok solution) →
    Unsolved source request key false minimal

/-- The policy does not matter for which outputs are spendable. -/
theorem Source.Undisturbed.withPolicy
    (undisturbed : source.Undisturbed time tuning address request key) (policy : Policy) :
    source.Undisturbed time tuning address { request with policy } key :=
  ⟨undisturbed.least, undisturbed.most, undisturbed.resolved, undisturbed.neverLate,
    undisturbed.room, undisturbed.stands,
    fun output member => ⟨(undisturbed.judged output member).answered,
      (undisturbed.judged output member).counted⟩,
    undisturbed.consistent, undisturbed.exact⟩

/-- **What the random policy solves in time, the minimal one solves**, with whatever draws; and both
solve a request that all spendable outputs together pay. -/
theorem select_agreement (undisturbed : source.Undisturbed time tuning address request key)
    (first : RandomSource σ) (second : RandomSource τ) (seed : σ) (otherSeed : τ)
    (session otherSession : Session) :
    Agreement source time tuning request key
      (source.selectionWalk time tuning first seed { request with policy := .random } key session)
      ((source.select tuning first seed address { request with policy := .random }).run session).1
      ((source.select tuning second otherSeed address { request with policy := .minimal }).run
        otherSession).1 := by
  obtain ⟨random_iff, random_unsolved⟩ :=
    (undisturbed.withPolicy .random).random_solved_iff rfl first seed session rfl
  have minimal :=
    (undisturbed.withPolicy .minimal).answersSmallest rfl second otherSeed otherSession
  have walk_distinct : Distinct (source.selectionWalk time tuning first seed
      { request with policy := .random } key session) := Source.distinct_selectionWalk _ _ _
  have walk_subset : source.selectionWalk time tuning first seed
      { request with policy := .random } key session ⊆ source.spendable time tuning request key :=
    Source.selectionWalk_subset _ _ _
  have minimal_of_first : ∀ part, part <+:
        source.selectionWalk time tuning first seed { request with policy := .random } key session →
      Pays tuning.fee request.amount part →
      ∃ solution, ((source.select tuning second otherSeed address
        { request with policy := .minimal }).run otherSession).1 = .ok solution :=
    fun part first pays => minimal.solved_iff.mpr ⟨part, walk_distinct.sublist first.sublist,
      List.Subset.trans first.subset walk_subset, pays⟩
  exact {
    walk_distinct
    mem_walk := fun output => ⟨fun walked => walk_subset walked,
      fun usable => ScanPlan.spendable_subset_randomWalk _ undisturbed.consistent usable⟩
    random_iff
    minimal_iff := minimal.solved_iff
    minimal_of_random := fun solved => by
      obtain ⟨part, first, pays⟩ := random_iff.mp solved
      exact minimal_of_first part first pays
    both_of_pays := fun pays =>
      ⟨random_iff.mpr ⟨_, List.prefix_rfl, pays⟩, minimal_of_first _ List.prefix_rfl pays⟩
    random_unsolved
    minimal_unsolved := fun unsolved => minimal.unsolved (mt minimal.solved_iff.mpr unsolved) }

end Selection

/-- Neither output pays alone, both policies are solved by the two together. -/
theorem select_agreement_twoOutputs :
    (∃ solution, (((Source.paying [300000, 500000]).select {} .seeded 0 AddressKey.onesAddress
      { amount := 600000, policy := .random }).run {}).1 = .ok solution) ∧
    ∃ solution, (((Source.paying [300000, 500000]).select {} .seeded 0 AddressKey.onesAddress
      { amount := 600000, policy := .minimal }).run {}).1 = .ok solution := by
  have undisturbed : (Source.paying [300000, 500000]).Undisturbed Clock.defaultUnixTime {}
      AddressKey.onesAddress { amount := 600000 } .ones :=
    Source.undisturbed_paying (by decide) (by decide) (by decide) (by decide +kernel)
      (.of_nonneg (by decide +kernel) (by decide +kernel) (by decide +kernel) (by decide +kernel)
        (by decide +kernel))
  exact (select_agreement undisturbed .seeded .seeded 0 0 {} {}).both_of_pays (by decide +kernel)

/-- Where an input costs as much as the smaller one of two outputs lacks, the policies disagree: the
draws decide whether the larger output is tried alone. -/
theorem random_misses_payment :
    (Source.paying [1000000, 1]).Undisturbed Clock.defaultUnixTime { fee := { inputBytes := 1024 } }
        AddressKey.onesAddress { amount := 900000 } .ones ∧
      (((Source.paying [1000000, 1]).select { fee := { inputBytes := 1024 } } .seeded 0
          AddressKey.onesAddress { amount := 900000, policy := .random }).run {}).1 =
        .error (.balanceInsufficient 900000) ∧
      (∃ solution, (((Source.paying [1000000, 1]).select { fee := { inputBytes := 1024 } } .seeded 1
          AddressKey.onesAddress { amount := 900000, policy := .random }).run {}).1 =
        .ok solution) ∧
      ∃ solution, (((Source.paying [1000000, 1]).select { fee := { inputBytes := 1024 } } .seeded 0
          AddressKey.onesAddress { amount := 900000, policy := .minimal }).run {}).1 =
        .ok solution := by
  have undisturbed : (Source.paying [1000000, 1]).Undisturbed Clock.defaultUnixTime
      { fee := { inputBytes := 1024 } }
      AddressKey.onesAddress { amount := 900000 } .ones :=
    Source.undisturbed_paying (by decide) (by decide) (by decide) (by decide +kernel)
      (.of_nonneg (by decide +kernel) (by decide +kernel) (by decide +kernel) (by decide +kernel)
        (by decide +kernel))
  have random := undisturbed.withPolicy .random
  refine ⟨undisturbed, ?_, ?_, ?_⟩
  · have none : (((Source.paying [1000000, 1]).select { fee := { inputBytes := 1024 } } .seeded 0
        AddressKey.onesAddress { amount := 900000, policy := .random }).run {}).1.toOption =
          none := by
      decide +kernel
    have unsolved := (random.random_solved_iff rfl .seeded 0 {} rfl).2 fun ⟨solution, solved⟩ => by
      rw [solved] at none
      cases none
    rwa [Unsolved, if_neg (by decide +kernel)] at unsolved
  · exact (random.random_solved_iff rfl .seeded 1 {} rfl).1.mpr
      ⟨_, List.take_prefix 1 _, by decide +kernel⟩
  · exact ((undisturbed.withPolicy .minimal).answersSmallest rfl .seeded 0 {}).solved_iff.mpr
      ⟨((Block.paying [1000000, 1]).entriesTo .ones).take 1, by decide +kernel, by decide +kernel,
        by decide +kernel⟩

end CoinLedger
