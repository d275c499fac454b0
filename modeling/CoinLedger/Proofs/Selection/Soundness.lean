import CoinLedger.Proofs.Related
import CoinLedger.Proofs.Selection.Run

/-!
# Soundness of selections

Whatever the policy, the draws and the clock, a solution of a selection is a settled set of outputs
each of which was spendable when it was looked at (`exists_settled_of_select`).  Where the sums are
exact, the numbers of a solution and of its report are those of its outputs
(`select_solution_sound`).
-/

set_option autoImplicit false

namespace CoinLedger

open UnspentOutput Solution

/-- A solution for a key whose numbers are those of its outputs, each of which was spendable at one
of the times between two readings. -/
structure ExactSolution (source : Source) (tuning : SelectionTuning) (request : SelectionRequest)
    (key : AddressKey) (first last : Nat) (solution : Solution) : Prop where
  nonempty : solution.outputs ≠ []
  distinct : Distinct solution.outputs
  recorded : solution.outputs ⊆ source.ledger.unspent key
  spendable : ∀ output ∈ solution.outputs, ∃ reads, first ≤ reads ∧ reads ≤ last ∧
    source.Spendable (source.referenceTime reads) tuning request key output
  total : solution.total.toInt = worth solution.outputs
  fee : solution.fee = tuning.fee.feeForInputs solution.outputs.length
  change : solution.change.toInt =
    solution.total.toInt - request.amount.toInt - solution.fee.toInt
  covered : 0 ≤ solution.change.toInt
  /-- No part that was selected before the last output pays the amount. -/
  shortest : ∀ part, part <+: solution.outputs → part ≠ solution.outputs →
    ¬ Pays tuning.fee request.amount part

/-- What a client is shown of an output. -/
structure SelectedOutput.Shows (source : Source) (output : UnspentOutput)
    (shown : SelectedOutput) : Prop where
  txid : shown.txid = output.txid
  index : shown.index = output.outputIndex
  amount : shown.amount = output.amount
  confirmations : shown.confirmations.toInt = source.ledger.depth output.height

/-- The exact sum of the amounts that are shown. -/
def SelectedOutput.worth (shown : List SelectedOutput) : Int :=
  (shown.map fun output => output.amount.toInt).sum

/-- A report for an address and its key whose numbers are those of the outputs that it shows. -/
structure ExactReport (source : Source) (tuning : SelectionTuning) (address : String)
    (request : SelectionRequest) (key : AddressKey) (solution : Solution)
    (report : SelectionReport) : Prop where
  blockHeight : report.blockHeight = source.ledger.tipHeight
  script : report.script = Script.payTo key
  address : report.address = address
  requested : report.requested = request.amount
  nonempty : report.outputs ≠ []
  distinct : (report.outputs.map fun shown => (shown.txid, shown.index)).Nodup
  /-- The outputs of the solution are shown in their order. -/
  shown : List.Forall₂ (SelectedOutput.Shows source) solution.outputs report.outputs
  total : report.total.toInt = SelectedOutput.worth report.outputs
  fee : report.fee = tuning.fee.feeForInputs report.outputs.length
  change : report.change.toInt =
    report.total.toInt - report.requested.toInt - report.fee.toInt
  covered : 0 ≤ report.change.toInt
  shortest : ∀ part, part <+: report.outputs → part ≠ [] → part ≠ report.outputs →
    SelectedOutput.worth part <
      report.requested.toInt + (tuning.fee.feeForInputs part.length).toInt

section Shown

variable {source : Source} {outputs : List UnspentOutput} {shown : List SelectedOutput}

theorem Source.selectedOutput_eq_ok_iff {output : UnspentOutput} {item : SelectedOutput} :
    source.selectedOutput output = .ok item ↔ SelectedOutput.Shows source output item := by
  rw [selectedOutput, Answer.bind_eq_ok]
  constructor
  · rintro ⟨count, counted, same⟩
    cases same
    exact ⟨rfl, rfl, rfl, Ledger.confirmations_eq_ok_iff.mp counted⟩
  · intro shows
    obtain ⟨txid, index, amount, confirmations⟩ := shows
    refine ⟨item.confirmations, Ledger.confirmations_eq_ok_iff.mpr confirmations, ?_⟩
    rw [← txid, ← index, ← amount]
    rfl

/-- Shown outputs have the numbers and the outpoints of the outputs. -/
theorem SelectedOutput.worth_eq (shows : List.Forall₂ (Shows source) outputs shown) :
    worth shown = UnspentOutput.worth outputs := by
  have amounts := map_eq_of_forall₂ (fun _ _ shows => congrArg Int64.toInt shows.amount.symm) shows
  exact congrArg List.sum amounts.symm

theorem SelectedOutput.nodup_of_distinct (shows : List.Forall₂ (Shows source) outputs shown)
    (distinct : Distinct outputs) :
    (shown.map fun output => (output.txid, output.index)).Nodup := by
  have outpoints : outputs.map outpoint =
      shown.map fun output => OutPoint.mk output.txid output.index :=
    map_eq_of_forall₂ (fun _ _ shows =>
      congrArg₂ OutPoint.mk shows.txid.symm shows.index.symm) shows
  refine List.Nodup.of_map (fun pair => OutPoint.mk pair.1 pair.2) ?_
  rw [List.map_map]
  exact outpoints ▸ distinct

end Shown

section Exact

variable {source : Source} {tuning : SelectionTuning} {request : SelectionRequest}
  {key : AddressKey} {first last : Nat} {solution : Solution}

/-- A report of an exact solution shows its outputs and its numbers. -/
theorem ExactSolution.report {address : String} {report : SelectionReport}
    (exact : ExactSolution source tuning request key first last solution)
    (resolved : source.network.resolve address = .ok key)
    (reported : source.selectionReport address request.amount solution = .ok report) :
    ExactReport source tuning address request key solution report := by
  obtain ⟨_, found, reported⟩ := Answer.bind_eq_ok.mp reported
  cases resolved.symm.trans found
  obtain ⟨shown, looked, same⟩ := Answer.bind_eq_ok.mp reported
  cases same
  have shows : List.Forall₂ (SelectedOutput.Shows source) solution.outputs shown :=
    (mapM_eq_ok.mp looked).imp fun _ _ => Source.selectedOutput_eq_ok_iff.mp
  have length := shows.length_eq
  exact {
    blockHeight := rfl
    script := rfl
    address := rfl
    requested := rfl
    nonempty := by
      rintro rfl
      exact exact.nonempty (List.forall₂_nil_right_iff.mp shows)
    distinct := SelectedOutput.nodup_of_distinct shows exact.distinct
    shown := shows
    total := exact.total.trans (SelectedOutput.worth_eq shows).symm
    fee := length ▸ exact.fee
    change := exact.change
    covered := exact.covered
    shortest := by
      intro part before nonempty different
      -- A first part of the shown outputs shows as many outputs of the solution.
      obtain ⟨front, first, fronts⟩ : ∃ front, front <+: solution.outputs ∧
          List.Forall₂ (SelectedOutput.Shows source) front part := by
        refine ⟨_, List.take_prefix part.length solution.outputs, ?_⟩
        rw [List.prefix_iff_eq_take.mp before, List.length_take_of_le before.length_le]
        exact List.forall₂_take _ shows
      have count := fronts.length_eq
      have short := exact.shortest front first fun whole => by
        rw [whole, length] at count
        exact different (before.eq_of_length count.symm)
      rw [SelectedOutput.worth_eq fronts, ← count]
      by_contra pays
      refine short ⟨fun empty => nonempty ?_, Int.not_lt.mp pays⟩
      rw [empty] at count
      exact List.length_eq_zero_iff.mp count.symm }

/-- There is a report of every solution whose outputs have numbers of confirmations that 32 bits
hold. -/
theorem Source.exists_selectionReport {address : String} (requested : Int64)
    (resolved : source.network.resolve address = .ok key)
    (counted : ∀ output ∈ solution.outputs,
      source.ledger.depth output.height ≤ Int32.maxValue.toInt) :
    ∃ report, source.selectionReport address requested solution = .ok report := by
  have looked : ∀ output ∈ solution.outputs, ∃ shown, source.selectedOutput output = .ok shown := by
    intro output member
    rw [selectedOutput, Ledger.confirmations_eq, if_pos (counted output member)]
    exact ⟨_, rfl⟩
  obtain ⟨shown, traversed⟩ := exists_mapM_eq_ok looked
  rw [selectionReport, resolved, traversed]
  exact ⟨_, rfl⟩

/-- A settled set of outputs whose sums are exact has the numbers of its outputs. -/
theorem ScanPlan.Settled.exactSolution {σ : Type} {plan : ScanPlan σ} {seen : List UnspentOutput}
    (settled : plan.Settled seen solution)
    (spendable : ∀ output ∈ seen, output ∈ plan.source.ledger.unspent plan.key ∧
      ∃ reads, first ≤ reads ∧ reads ≤ last ∧ plan.source.Spendable
        (plan.source.referenceTime reads) plan.tuning plan.request plan.key output)
    (sums : SumsAlong plan.tuning.fee plan.request.amount solution.outputs) :
    ExactSolution plan.source plan.tuning plan.request plan.key first last solution := by
  obtain ⟨nonempty, pays⟩ := (covers_iff_pays sums).mp settled.cover.covers
  obtain ⟨settles, same⟩ := settleChecked_eq_ok.mp settled.settled
  have total : solution.total.toInt = worth solution.outputs := by
    rw [← same]
    exact toInt_clampedTotal fun part before => (sums part before).total
  have fee : solution.fee = plan.tuning.fee.feeForInputs solution.outputs.length := by
    rw [← same]
    exact if_neg nonempty
  have change : solution.change.toInt =
      solution.total.toInt - plan.request.amount.toInt - solution.fee.toInt := by
    rw [← same]
    exact toInt_change_of_settles settles
  exact {
    nonempty
    distinct := settled.distinct
    recorded := fun output member => (spendable output (settled.seen member)).1
    spendable := fun output member => (spendable output (settled.seen member)).2
    total
    fee
    change
    covered := by
      rw [change, total, fee]
      omega
    shortest := by
      intro part before different pays
      exact different (settled.cover.shortest part before
        ((covers_iff_pays (sums.of_leading before)).mpr pays)) }

end Exact

namespace Source

variable {σ : Type} {source : Source} {tuning : SelectionTuning} {random : RandomSource σ}
  {seed : σ} {address : String} {request : SelectionRequest} {session after : Session}
  {solution : Solution}

/-- A solution of a selection is a settled set of outputs of the key, each of which was spendable
when it was looked at. -/
theorem exists_settled_of_select
    (selected : (source.select tuning random seed address request).run session =
      (.ok solution, after)) :
    ∃ key seen, source.network.resolve address = .ok key ∧
      (source.scanPlan tuning random request key session).Settled seen solution ∧
      ∀ output ∈ seen, output ∈ source.ledger.unspent key ∧
        ∃ reads, session.timeReads ≤ reads ∧ reads ≤ after.timeReads ∧
          source.Spendable (source.referenceTime reads) tuning request key output := by
  have selects := source.select_selects tuning random seed address request session
  rw [selected] at selects
  dsimp only at selects
  generalize answered : Except.ok solution = answer at selects
  cases selects with
  | refused _ => cases answered
  | unresolved _ _ => cases answered
  | empty _ _ _ _ => cases answered
  | full _ _ _ _ => cases answered
  | @scanned key ending final _ plan _ resolved _ planned run concluded intact =>
      subst planned
      have ends : final.best = some solution ∧ ∀ error, ending ≠ .failed error := by
        generalize final.best = best at concluded
        cases concluded <;> cases answered <;> exact ⟨rfl, nofun⟩
      obtain ⟨best, succeeds⟩ := ends
      obtain ⟨⟨-, between⟩, -⟩ := intact succeeds
      refine ⟨key, _, resolved, run.settled (ScanPlan.sound_opening _ seed) solution best, ?_⟩
      intro output member
      obtain ⟨look, walked, found⟩ := List.mem_flatMap.mp member
      obtain ⟨listed, reads, least, most, spendable⟩ := ScanPlan.exists_of_mem_fresh found
      obtain ⟨begins, ends⟩ := between look walked
      exact ⟨ScanPlan.sliceOutputs_subset _ look.slice listed, reads, begins.trans least,
        most.trans ends, spendable⟩

/-- **Every solution of a selection is exact, and so is every report of it.** -/
theorem select_solution_sound
    (selected : (source.select tuning random seed address request).run session =
      (.ok solution, after))
    (sums : SumsAlong tuning.fee request.amount solution.outputs) :
    ∃ key, source.network.resolve address = .ok key ∧
      ExactSolution source tuning request key session.timeReads after.timeReads solution ∧
      (∀ report, source.selectionReport address request.amount solution = .ok report →
        ExactReport source tuning address request key solution report) ∧
      ((∀ output ∈ solution.outputs, source.ledger.depth output.height ≤ Int32.maxValue.toInt) →
        ∃ report, source.selectionReport address request.amount solution = .ok report) := by
  obtain ⟨key, seen, resolved, settled, spendable⟩ := exists_settled_of_select selected
  have exact := settled.exactSolution spendable sums
  exact ⟨key, resolved, exact, fun _ => exact.report resolved,
    exists_selectionReport request.amount resolved⟩

/-- A random selection over two slices carries the first output into the second slice. -/
theorem select_solution_sound_carried :
    ∃ solution after,
      ((Source.paying [300000, 500000]).select { sliceSize := 1 } .seeded 0 AddressKey.onesAddress
        { amount := 600000, policy := .random }).run {} = (.ok solution, after) ∧
      solution.outputs.length = 2 ∧
      ∃ key, Network.resolve {} AddressKey.onesAddress = .ok key ∧
        ExactSolution (Source.paying [300000, 500000]) { sliceSize := 1 }
          { amount := 600000, policy := .random } key 0 after.timeReads solution ∧
        ∃ report, (Source.paying [300000, 500000]).selectionReport AddressKey.onesAddress 600000
          solution = .ok report := by
  rcases ran : ((Source.paying [300000, 500000]).select { sliceSize := 1 } .seeded 0
    AddressKey.onesAddress { amount := 600000, policy := .random }).run {} with ⟨answer, after⟩
  obtain ⟨solution, rfl, outputs⟩ : ∃ solution, answer = .ok solution ∧
      solution.outputs = (Block.paying [300000, 500000]).entriesTo .ones := by
    have answered := congrArg Prod.fst ran
    refine ⟨⟨_, 800000, 100000, 100000⟩, ?_, rfl⟩
    exact answered.symm.trans (Answer.eq_ok_of_toOption (by decide +kernel))
  have among : ExactAmong {} 600000 ((Block.paying [300000, 500000]).entriesTo .ones) :=
    .of_nonneg (by decide +kernel) (by decide +kernel) (by decide +kernel) (by decide +kernel)
      (by decide +kernel)
  have distinct : Distinct ((Block.paying [300000, 500000]).entriesTo .ones) := by
    decide +kernel
  obtain ⟨key, resolved, exact, -, reports⟩ := select_solution_sound ran
    (outputs ▸ (among.along (List.Subset.refl _) distinct).sums)
  refine ⟨solution, after, rfl, ?_, key, resolved, exact, reports fun output _ => ?_⟩
  · rw [outputs]
    decide +kernel
  · exact Ledger.depth_le_maxValue (by decide)

end Source

end CoinLedger
