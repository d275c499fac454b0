import CoinLedger.Proofs.Progress.Reports
import CoinLedger.Proofs.Selection.Minimality

/-!
# Selections along a chain

What a selection may use it may use in a later state of the chain
(`Source.Advances.spendable_subset`).  So a minimal selection in time never needs more inputs there,
as long as 32 bits hold the confirmations that instant send asks for
(`Source.Advances.select_length_le`).  Together with the reports this says that progress of the
chain locks nothing (`progress_never_locks`).  Where the blocks on top of an output are more than 32
bits can count, a selection that was solved before is stopped (`uncounted_confirmations`).
-/

set_option autoImplicit false

namespace CoinLedger

open UnspentOutput

section Selections

variable {σ τ : Type} {first second : Source} (advances : first.Advances second)
  {tuning laterTuning : SelectionTuning} {request : SelectionRequest} {address : String}
  {key : AddressKey}

namespace Source.Advances

include advances

theorem unlocked {reads : Nat} (laterReads : Nat) {height : Int32} {txid : Txid}
    (found : first.isTimeLocked (first.referenceTime reads) height txid key = .ok false) :
    second.isTimeLocked (second.referenceTime laterReads) height txid key = .ok false := by
  have agree := advances.isTimeLocked reads laterReads height txid key
  rw [found] at agree
  obtain ⟨locked, later, eased⟩ := agree.exists_ok
  rw [later, Bool.eq_false_iff.mpr fun active => Bool.false_ne_true (eased active)]

theorem answered {output : UnspentOutput} (found : first.Answered key output) :
    second.Answered key output := by
  obtain ⟨deciding, found⟩ := found
  exact ⟨deciding, (advances.lockOutput _ _ _).trans found⟩

section Times

variable {time laterTime : Int64} (stands : first.StandsAt time)
  (laterStands : second.StandsAt laterTime)

include stands laterStands

/-- **What a selection may use it may use in a later state.** -/
theorem spendable_subset
    (depth : laterTuning.instantConfirmations = tuning.instantConfirmations) :
    first.spendable time tuning request key ⊆
      second.spendable laterTime laterTuning request key := by
  intro output member
  obtain ⟨recorded, spendable⟩ := mem_spendable.mp member
  refine mem_spendable.mpr ⟨advances.unspent key ▸ recorded, ?_⟩
  exact {
    unlocked := by
      have found : first.isTimeLocked (first.referenceTime 0) output.height output.txid key =
          .ok false := by
        rw [stands 0]
        exact spendable.unlocked
      rw [← laterStands 0]
      exact advances.unlocked 0 found
    notSpent := (advances.isSpent output.outpoint).trans spendable.notSpent
    deep := fun instant => by
      rw [depth]
      exact (spendable.deep instant).trans (advances.depth_le output.height) }

/-- **A minimal selection in time needs no more inputs in a later state.** -/
theorem select_length_le (resolved : first.network.resolve address = .ok key)
    (distinct : Distinct (first.ledger.unspent key))
    (answered : ∀ output ∈ first.ledger.unspent key, first.Answered key output)
    (fee : laterTuning.fee = tuning.fee)
    (depth : laterTuning.instantConfirmations = tuning.instantConfirmations)
    (neverLate : first.NeverLate tuning) (neverLater : second.NeverLate laterTuning)
    (laterRoom : laterTuning.blockCacheSize ≤ BlockCache.maxCapacity)
    (deterministic : request.policy = .minimal)
    (counted : request.instantOnly = true → ∀ output ∈ first.ledger.unspent key,
      second.ledger.depth output.height ≤ Int32.maxValue.toInt)
    (exact : ExactAmong tuning.fee request.amount
      (second.spendable laterTime laterTuning request key))
    (random : RandomSource σ) (laterRandom : RandomSource τ) (seed : σ) (laterSeed : τ)
    (session laterSession : Session) {solution : Solution}
    (solved : ((first.select tuning random seed address request).run session).1 = .ok solution) :
    ∃ other, ((second.select laterTuning laterRandom laterSeed address request).run
        laterSession).1 = .ok other ∧
      other.outputs.length ≤ solution.outputs.length := by
  have inRange : 1 ≤ request.amount.toInt ∧ request.amount.toInt ≤ Amount.maxRequest := by
    by_contra outside
    obtain ⟨_, refused⟩ := first.select_refused tuning random seed address request session outside
    cases solved.symm.trans refused
  have subset : first.spendable time tuning request key ⊆
      second.spendable laterTime laterTuning request key :=
    advances.spendable_subset stands laterStands depth
  have undisturbed : first.Undisturbed time tuning address request key := {
    least := inRange.1
    most := inRange.2
    resolved
    neverLate
    room := room_of_select solved
    stands
    judged := fun output member => ⟨answered output member, fun instant _ _ =>
      (advances.depth_le output.height).trans (counted instant output member)⟩
    consistent := distinct.consistent
    exact := exact.subset subset }
  have later : second.Undisturbed laterTime laterTuning address request key := {
    least := inRange.1
    most := inRange.2
    resolved := advances.network ▸ resolved
    neverLate := neverLater
    room := laterRoom
    stands := laterStands
    judged := by
      rw [advances.unspent]
      exact fun output member => ⟨advances.answered (answered output member),
        fun instant _ _ => counted instant output member⟩
    consistent := by
      rw [advances.unspent]
      exact distinct.consistent
    exact := fee ▸ exact }
  have before := undisturbed.answersSmallest deterministic random seed session
  have after := later.answersSmallest deterministic laterRandom laterSeed laterSession
  have payment : Payment laterTuning.fee request.amount
      (second.spendable laterTime laterTuning request key) solution.outputs :=
    fee ▸ (before.smallest solution solved).1.mono subset
  obtain ⟨other, answered⟩ := after.solved_iff.mpr ⟨_, payment⟩
  exact ⟨other, answered, (after.smallest other answered).2 _ payment⟩

end Times

end Source.Advances

include advances

/-- **Progress of the chain locks nothing.**  In a later state of the chain a batch of balances is
the same except that less may be locked, a page shows the same outputs of which more may be
spendable, and a request that a minimal selection solves in time is solved with no more inputs, as
long as 32 bits hold the confirmations that instant send asks for. -/
theorem progress_never_locks :
    (∀ (addresses : List String) (size laterSize : Nat) (session laterSession : Session),
      size ≤ BlockCache.maxCapacity → laterSize ≤ BlockCache.maxCapacity →
      first.BatchFits addresses.eraseDups →
      Answer.Agree BalanceReport.Eased ((first.balances size addresses).runIn session).1
        ((second.balances laterSize addresses).runIn laterSession).1) ∧
    (∀ (address : String) (query : UnspentQuery) (session laterSession : Session),
      Answer.Agree UnspentPage.Eased ((first.listUnspent address query).runIn session).1
        ((second.listUnspent address query).runIn laterSession).1) ∧
    ∀ (address : String) (key : AddressKey) (tuning laterTuning : SelectionTuning)
      (request : SelectionRequest),
      first.network.resolve address = .ok key → Distinct (first.ledger.unspent key) →
      (∀ output ∈ first.ledger.unspent key, first.Answered key output) →
      laterTuning.fee = tuning.fee →
      laterTuning.instantConfirmations = tuning.instantConfirmations →
      first.NeverLate tuning → second.NeverLate laterTuning →
      laterTuning.blockCacheSize ≤ BlockCache.maxCapacity → request.policy = .minimal →
      (request.instantOnly = true → ∀ output ∈ first.ledger.unspent key,
        second.ledger.depth output.height ≤ Int32.maxValue.toInt) →
      ∀ laterTime, second.StandsAt laterTime →
      ExactAmong tuning.fee request.amount
        (second.spendable laterTime laterTuning request key) →
      ∀ (random : RandomSource σ) (laterRandom : RandomSource τ) (seed : σ) (laterSeed : τ)
        (session laterSession : Session) (solution : Solution),
        ((first.select tuning random seed address request).run session).1 = .ok solution →
        ∃ other, ((second.select laterTuning laterRandom laterSeed address request).run
            laterSession).1 = .ok other ∧
          other.outputs.length ≤ solution.outputs.length := by
  refine ⟨fun addresses _ _ _ _ room laterRoom fits => ?_, fun address query _ _ => ?_, ?_⟩
  · rw [Source.balances_runIn, Source.balances_runIn, if_pos room, if_pos laterRoom]
    exact advances.batchAnswer fits _ _
  · rw [Source.listUnspent_runIn, Source.listUnspent_runIn]
    exact advances.unspentPage address query _ _
  · intro _ _ _ _ _ resolved distinct answered fee depth neverLate neverLater laterRoom
      deterministic counted laterTime laterStands exact random laterRandom seed laterSeed session
      laterSession _ solved
    obtain ⟨time, _, stands, _⟩ := advances.exists_standsAt
    exact advances.select_length_le stands laterStands resolved distinct answered fee depth
      neverLate neverLater laterRoom deterministic counted exact random laterRandom seed
      laterSeed session laterSession solved

end Selections

/-! ## Two heights of one block -/

namespace Source

/-- A source that reads the ledger of a block that pays to `AddressKey.ones`, at a height of the
tip. -/
def atTip (block : Block) (tipHeight : Int32) : Source where
  ledger := {
    tipHeight
    medianTimePast := some 0
    blocks := [block]
    addresses := [(.ones, {
      deltas := (block.entriesTo .ones).map fun output =>
        ⟨output.txid, output.height, false, output.amount⟩
      unspent := block.entriesTo .ones })] }
  clock := .frozen

theorem advances_atTip (block : Block) {tip laterTip : Int32} (higher : tip ≤ laterTip) :
    (atTip block tip).Advances (atTip block laterTip) where
  network := rfl
  tip := higher
  time := ⟨0, 0, rfl, rfl, Int64.le_refl 0⟩
  blocks := rfl
  addresses := rfl
  pending := rfl
  spent := rfl
  instant := rfl

@[simp] theorem unspent_atTip (block : Block) (tipHeight : Int32) :
    (atTip block tipHeight).ledger.unspent .ones = block.entriesTo .ones := by
  simp [atTip, Ledger.unspent, Ledger.records]

/-- The locks of such a ledger are measured against its median time past. -/
theorem standsAt_atTip (block : Block) (tipHeight : Int32) : (atTip block tipHeight).StandsAt 0 :=
  .of_median rfl

theorem neverLate_atTip (block : Block) (tipHeight : Int32) (tuning : SelectionTuning) :
    (atTip block tipHeight).NeverLate tuning := by
  have frozen : (atTip block tipHeight).clock = .frozen Clock.defaultUnixTime := rfl
  exact neverLate_of_frozen frozen tuning

theorem answered_atTip {block : Block} {tipHeight : Int32}
    (found : ∀ output ∈ block.entriesTo .ones,
      ((atTip block tipHeight).lockOutput output.height output.txid .ones).toOption.isSome = true) :
    ∀ output ∈ (atTip block tipHeight).ledger.unspent .ones,
      (atTip block tipHeight).Answered .ones output := by
  intro output member
  rw [unspent_atTip] at member
  obtain ⟨deciding, decided⟩ := Option.isSome_iff_exists.mp (found output member)
  exact ⟨deciding, Answer.eq_ok_of_toOption decided⟩

/-- A block with two small outputs, and a larger one that is locked up to a height. -/
def savings : Block where
  height := 10
  hash := default
  time := 0
  transactions := [⟨.filled 1, [⟨300000, Script.payTo .ones⟩, ⟨300000, Script.payTo .ones⟩]⟩,
    ⟨.filled 2, [⟨700000, Script.lockScript 5000 ++ Script.payTo .ones⟩]⟩]

/-- While the larger output is locked, both small ones are selected; behind its lock no more than
two outputs are. -/
theorem progress_never_locks_savings :
    (atTip savings 100).BatchFits [AddressKey.onesAddress].eraseDups ∧
      Answer.Agree BalanceReport.Eased
        (((atTip savings 100).balances 1 [AddressKey.onesAddress]).runIn {}).1
        (((atTip savings 6000).balances 256 [AddressKey.onesAddress]).runIn {}).1 ∧
      ∃ solution other,
        (((atTip savings 100).select { sliceSize := 1 } .seeded 0 AddressKey.onesAddress
          { amount := 450000, instantOnly := true }).run {}).1 = .ok solution ∧
        (((atTip savings 6000).select {} .seeded 1 AddressKey.onesAddress
          { amount := 450000, instantOnly := true }).run {}).1 = .ok other ∧
        other.outputs.length ≤ solution.outputs.length := by
  have advances := advances_atTip savings (show (100 : Int32) ≤ 6000 by decide)
  have answered : ∀ output ∈ (atTip savings 100).ledger.unspent .ones,
      (atTip savings 100).Answered .ones output :=
    answered_atTip (by decide +kernel)
  have distinct : Distinct (savings.entriesTo .ones) := by decide +kernel
  have exact : ExactAmong {} 450000 (savings.entriesTo .ones) :=
    .of_nonneg (by decide +kernel) (by decide +kernel) (by decide +kernel) (by decide +kernel)
      (by decide +kernel)
  have single : [AddressKey.onesAddress].eraseDups = [AddressKey.onesAddress] := by
    simp [List.eraseDups_cons]
  have fits : (atTip savings 100).BatchFits [AddressKey.onesAddress].eraseDups := by
    rw [single]
    refine .of_small ?_ ?_
    · rw [evaluated_singleton Network.resolve_onesAddress]
      decide +kernel
    · rw [openBatch, evaluated_singleton Network.resolve_onesAddress]
      decide +kernel
  have undisturbed : (atTip savings 100).Undisturbed 0 { sliceSize := 1 } AddressKey.onesAddress
      { amount := 450000, instantOnly := true } .ones := {
    least := by decide
    most := by decide
    resolved := Network.resolve_onesAddress
    neverLate := neverLate_atTip _ _ _
    room := by decide
    stands := standsAt_atTip _ _
    judged := fun output member =>
      ⟨answered output member, fun _ _ _ => Ledger.depth_le_maxValue (by decide)⟩
    consistent := unspent_atTip savings 100 ▸ distinct.consistent
    exact := exact.subset (unspent_atTip savings 100 ▸ List.filter_subset_self _) }
  obtain ⟨solution, solved⟩ :=
    (undisturbed.answersSmallest rfl .seeded 0 {}).solved_iff.mpr
      ⟨(savings.entriesTo .ones).take 2, by decide +kernel, by decide +kernel, by decide +kernel⟩
  obtain ⟨balances, _, selections⟩ := progress_never_locks advances
  obtain ⟨other, solvedLater, fewer⟩ := selections AddressKey.onesAddress .ones { sliceSize := 1 }
    {} { amount := 450000, instantOnly := true } Network.resolve_onesAddress
    (unspent_atTip savings 100 ▸ distinct) answered rfl rfl
    (neverLate_atTip _ _ _) (neverLate_atTip _ _ _) (by decide) rfl
    (fun _ => by decide +kernel) 0 (standsAt_atTip _ _)
    (exact.subset (unspent_atTip savings 6000 ▸ List.filter_subset_self _)) .seeded .seeded 0 1
    {} {} solution solved
  exact ⟨fits, balances _ _ _ _ _ (by decide) (by decide) fits, solution, other, solved,
    solvedLater, fewer⟩

/-- **The blocks on top of the first one cannot be counted at the greatest height**: what instant
send accepts at an earlier one stops the selection there. -/
theorem uncounted_confirmations :
    (atTip firstBlock 100).Advances (atTip firstBlock Int32.maxValue) ∧
      Distinct ((atTip firstBlock 100).ledger.unspent .ones) ∧
      (∀ output ∈ (atTip firstBlock 100).ledger.unspent .ones,
        (atTip firstBlock 100).Answered .ones output) ∧
      (atTip firstBlock 100).NeverLate {} ∧ (atTip firstBlock Int32.maxValue).NeverLate {} ∧
      ExactAmong {} 300000 ((atTip firstBlock 100).ledger.unspent .ones) ∧
      (∃ solution, (((atTip firstBlock 100).select {} .seeded 0 AddressKey.onesAddress
        { amount := 300000, instantOnly := true }).run {}).1 = .ok solution) ∧
      (((atTip firstBlock Int32.maxValue).select {} .seeded 0 AddressKey.onesAddress
        { amount := 300000, instantOnly := true }).run {}).1 = .error .stopped := by
  have exact : ExactAmong {} 300000 (firstBlock.entriesTo .ones) :=
    .of_nonneg (by decide +kernel) (by decide +kernel) (by decide +kernel) (by decide +kernel)
      (by decide +kernel)
  have solved : (((atTip firstBlock 100).select {} .seeded 0 AddressKey.onesAddress
      { amount := 300000, instantOnly := true }).run {}).1 =
        .ok ⟨firstBlock.entriesTo .ones, 500000, 100000, 100000⟩ :=
    Answer.eq_ok_of_toOption (by decide +kernel)
  have stops : (((atTip firstBlock Int32.maxValue).select {} .seeded 0 AddressKey.onesAddress
      { amount := 300000, instantOnly := true }).run {}).1 = .error .stopped :=
    Answer.eq_stopped_of_isStopped (by decide +kernel)
  exact ⟨advances_atTip firstBlock (by decide), by decide +kernel,
    answered_atTip (by decide +kernel), neverLate_atTip _ _ _, neverLate_atTip _ _ _,
    unspent_atTip firstBlock 100 ▸ exact, ⟨_, solved⟩, stops⟩

end Source

end CoinLedger
