import CoinLedger.Proofs.BlockLedger
import CoinLedger.Proofs.Listing.Unspent
import CoinLedger.Proofs.Selection.Soundness

/-!
# Locks of single outputs

Whether a record is locked is decided by the first output of its transaction that pays to the key,
and not by the output that the record is about.  So an output that is still locked by its own script
counts as unlocked when it is shadowed: an output in front of it pays to the same key and is not
locked (`unlocked_and_ownLocked_iff`).  Selections and listings offer exactly such locked outputs,
and no others (`locked_offered_iff_shadowed`).
-/

set_option autoImplicit false

namespace CoinLedger

open UnspentOutput

namespace Source

/-- The transaction that an unspent output comes from, as far as its block holds it. -/
def transactionOf (source : Source) (output : UnspentOutput) : Option Transaction :=
  match source.ledger.readBlock output.height with
  | .ok block => block.findTransaction output.txid
  | .error _ => none

/-- The output that a record is about, if it pays to the key. -/
def ownOutput (source : Source) (key : AddressKey) (output : UnspentOutput) : Option TxOutput :=
  (source.transactionOf output).bind fun transaction =>
    transaction.outputs[output.outputIndex.toNat]?.filter fun own => own.destination = some key

/-- The first output of the transaction of a record that pays to the key. -/
def firstOutput (source : Source) (key : AddressKey) (output : UnspentOutput) : Option TxOutput :=
  (source.transactionOf output).bind fun transaction => transaction.outputTo key

/-- The output that the record is about pays to the key and is locked by its own script at a time.
-/
def OwnLocked (source : Source) (time : Int64) (key : AddressKey) (output : UnspentOutput) : Prop :=
  ∃ own, source.ownOutput key output = some own ∧ source.lockedAt time (some own) = true

/-- The output that the record is about is locked at a time, but the first output of the transaction
that pays to the key is not. -/
structure Shadowed (source : Source) (time : Int64) (key : AddressKey) (output : UnspentOutput) :
    Prop where
  ownLocked : source.OwnLocked time key output
  unlocked : ∃ first, source.firstOutput key output = some first ∧
    source.lockedAt time (some first) = false

variable {source : Source} {time : Int64} {key : AddressKey} {output : UnspentOutput}

/-- A transaction with an output of the key has a first one. -/
theorem exists_firstOutput {own : TxOutput} (found : source.ownOutput key output = some own) :
    ∃ first, source.firstOutput key output = some first := by
  obtain ⟨transaction, located, kept⟩ := Option.bind_eq_some_iff.mp found
  obtain ⟨listed, pays⟩ := Option.filter_eq_some_iff.mp kept
  rw [firstOutput, located]
  exact Option.isSome_iff_exists.mp
    (List.find?_isSome.mpr ⟨own, List.mem_of_getElem? listed, pays⟩)

/-- The lock of a record is that of the first output of its transaction that pays to the key. -/
theorem isTimeLocked_of_firstOutput {first : TxOutput}
    (found : source.firstOutput key output = some first) (time : Int64) :
    source.isTimeLocked time output.height output.txid key =
      .ok (source.lockedAt time (some first)) := by
  obtain ⟨transaction, located, first⟩ := Option.bind_eq_some_iff.mp found
  unfold transactionOf at located
  rw [isTimeLocked, lockOutput]
  split at located
  next block read =>
    rw [read]
    change (block.outputTo output.height output.txid key).map (source.lockedAt time) = _
    rw [Block.outputTo, located]
    dsimp only
    rw [first]
    rfl
  next => cases located

/-- **A record whose own output is locked counts as unlocked exactly when it is shadowed.** -/
theorem unlocked_and_ownLocked_iff :
    source.isTimeLocked time output.height output.txid key = .ok false ∧
        source.OwnLocked time key output ↔
      source.Shadowed time key output := by
  constructor
  · rintro ⟨unlocked, own, found, locked⟩
    obtain ⟨first, leads⟩ := exists_firstOutput found
    have same := (isTimeLocked_of_firstOutput leads time).symm.trans unlocked
    exact ⟨⟨own, found, locked⟩, first, leads, Except.ok.inj same⟩
  · rintro ⟨ownLocked, first, leads, free⟩
    exact ⟨free ▸ isTimeLocked_of_firstOutput leads time, ownLocked⟩

/-! ## What is offered -/

/-- Which outputs that are locked by their own script selections and listings offer, at the times
between two readings. -/
structure OffersShadowed (source : Source) (tuning : SelectionTuning) (request : SelectionRequest)
    (key : AddressKey) (session : Session) (selected : Answer Solution × Session)
    (listed : Answer UnspentPage × Session) : Prop where
  /-- A selection may use a locked output exactly when it is shadowed and nothing else stands in the
  way. -/
  spendable : ∀ time output,
    source.Spendable time tuning request key output ∧ source.OwnLocked time key output ↔
      source.Shadowed time key output ∧ source.ledger.isSpent output.outpoint = false ∧
        (request.instantOnly = true →
          tuning.instantConfirmations.toInt ≤ source.ledger.depth output.height)
  /-- At the time at which a selected output is looked at it is locked exactly when it is shadowed.
  -/
  solution : ∀ solution, selected.1 = .ok solution → ∀ output ∈ solution.outputs,
    ∃ reads, session.timeReads ≤ reads ∧ reads ≤ selected.2.timeReads ∧
      source.Spendable (source.referenceTime reads) tuning request key output ∧
      (source.OwnLocked (source.referenceTime reads) key output ↔
        source.Shadowed (source.referenceTime reads) key output)
  page : ∀ page, listed.1 = .ok page → ∀ entry ∈ page.entries,
    ∃ reads, session.timeReads ≤ reads ∧ reads ≤ listed.2.timeReads ∧
      (entry.spendable = true ∧ source.OwnLocked (source.referenceTime reads) key entry.output ↔
        source.Shadowed (source.referenceTime reads) key entry.output)

/-- **A locked output is offered exactly when it is shadowed**, by selections of either policy and
by listings in either order.  So no locked output is offered as long as none is shadowed. -/
theorem locked_offered_iff_shadowed {σ : Type} {address : String}
    (resolved : source.network.resolve address = .ok key) (tuning : SelectionTuning)
    (random : RandomSource σ) (seed : σ) (request : SelectionRequest) (query : UnspentQuery)
    (session : Session) :
    source.OffersShadowed tuning request key session
      ((source.select tuning random seed address request).run session)
      ((source.listUnspent address query).runIn session) where
  spendable time output := by
    constructor
    · rintro ⟨spendable, ownLocked⟩
      exact ⟨unlocked_and_ownLocked_iff.mp ⟨spendable.unlocked, ownLocked⟩, spendable.notSpent,
        spendable.deep⟩
    · rintro ⟨shadowed, notSpent, deep⟩
      obtain ⟨unlocked, ownLocked⟩ := unlocked_and_ownLocked_iff.mpr shadowed
      exact ⟨⟨unlocked, notSpent, deep⟩, ownLocked⟩
  solution solution selected output member := by
    obtain ⟨found, seen, same, settled, spendable⟩ :=
      exists_settled_of_select (Prod.ext selected rfl)
    cases resolved.symm.trans same
    obtain ⟨-, reads, least, most, usable⟩ := spendable output (settled.seen member)
    refine ⟨reads, least, most, usable, ?_⟩
    rw [← unlocked_and_ownLocked_iff]
    exact ⟨fun ownLocked => ⟨usable.unlocked, ownLocked⟩, fun both => both.2⟩
  page page answered entry member := by
    obtain ⟨found, same, shows⟩ := listedBetween_of_listUnspent (Prod.ext answered rfl)
    cases resolved.symm.trans same
    obtain ⟨output, _, reads, least, most, listed⟩ := exists_related_of_mem shows member
    refine ⟨reads, least, (Nat.le_add_right _ _).trans most, ?_⟩
    rw [listed.spendable_iff, listed.output_eq]
    exact unlocked_and_ownLocked_iff

/-- A transaction pays twice to one key, and its second output is locked up to height 5000; the tip
is at height 1000. -/
def lockedBehind : Source :=
  .ofBlock 1000
    (.ofOutputs [⟨500000000, Script.payTo .ones⟩,
      ⟨300000000, Script.lockScript 5000 ++ Script.payTo .ones⟩])
    .ones

/-- The second output of the transaction. -/
def lockedRecord : UnspentOutput := ⟨default, 1, 300000000, 10⟩

/-- The second output is locked by a height, so it is locked at all times. -/
theorem ownLocked_lockedRecord (time : Int64) :
    lockedBehind.OwnLocked time .ones lockedRecord := by
  refine ⟨⟨300000000, Script.lockScript 5000 ++ Script.payTo .ones⟩, by decide +kernel, ?_⟩
  rw [lockedAt, lockActive, if_neg (by decide +kernel), if_pos (by decide +kernel)]
  decide +kernel

theorem shadowed_lockedRecord (time : Int64) : lockedBehind.Shadowed time .ones lockedRecord := by
  refine ⟨ownLocked_lockedRecord time, ⟨500000000, Script.payTo .ones⟩, by decide +kernel, ?_⟩
  rw [lockedAt, lockActive, if_pos (by decide +kernel)]

theorem mem_page_lockedBehind :
    ∃ page, ((lockedBehind.listUnspent AddressKey.onesAddress {}).runIn {}).1 = .ok page ∧
      lockedBehind.unspentEntry lockedRecord false ∈ page.entries := by
  have listed : ((lockedBehind.unspentPage AddressKey.onesAddress {} 0).toOption.map
      UnspentPage.entries).map (·.contains (lockedBehind.unspentEntry lockedRecord false)) =
        some true := by
    decide +kernel
  obtain ⟨entries, found, member⟩ := Option.map_eq_some_iff.mp listed
  obtain ⟨page, answered, rfl⟩ := Option.map_eq_some_iff.mp found
  exact ⟨page, (listUnspent_runIn _ _ _).trans (Answer.eq_ok_of_toOption answered),
    List.contains_iff_mem.mp member⟩

/-- The locked second output is shown as spendable, as shadowed ones are. -/
theorem locked_offered_iff_shadowed_second :
    ∃ page, ((lockedBehind.listUnspent AddressKey.onesAddress {}).runIn {}).1 = .ok page ∧
      ∃ entry ∈ page.entries, entry.spendable = true ∧ ∃ reads,
        lockedBehind.OwnLocked (lockedBehind.referenceTime reads) .ones entry.output := by
  obtain ⟨page, answered, member⟩ := mem_page_lockedBehind
  have resolved : lockedBehind.network.resolve AddressKey.onesAddress = .ok .ones :=
    Network.resolve_onesAddress
  have offers := locked_offered_iff_shadowed resolved {} .seeded 0 { amount := 1 } {} {}
  obtain ⟨reads, -, -, offered_iff⟩ := offers.page page answered _ member
  obtain ⟨offered, locked⟩ := offered_iff.mpr (shadowed_lockedRecord _)
  exact ⟨page, answered, _, member, offered, reads, locked⟩

/-- An output that is locked by its own script is selected and is shown as spendable. -/
theorem locked_second_output_offered :
    (∀ time, lockedBehind.OwnLocked time .ones lockedRecord) ∧
      (∃ solution, ((lockedBehind.select {} .seeded 0 AddressKey.onesAddress
          { amount := 600000000, policy := .random }).run {}).1 = .ok solution ∧
        lockedRecord ∈ solution.outputs) ∧
      ∃ page, ((lockedBehind.listUnspent AddressKey.onesAddress {}).runIn {}).1 = .ok page ∧
        ∃ entry ∈ page.entries, entry.output = lockedRecord ∧ entry.spendable = true := by
  refine ⟨ownLocked_lockedRecord, ?_, ?_⟩
  · have selected : ((((lockedBehind.select {} .seeded 0 AddressKey.onesAddress
        { amount := 600000000, policy := .random }).run {}).1.toOption.map Solution.outputs).map
          (·.contains lockedRecord)) = some true := by
      decide +kernel
    obtain ⟨outputs, found, member⟩ := Option.map_eq_some_iff.mp selected
    obtain ⟨solution, solved, rfl⟩ := Option.map_eq_some_iff.mp found
    exact ⟨solution, Answer.eq_ok_of_toOption solved, List.contains_iff_mem.mp member⟩
  · obtain ⟨page, answered, member⟩ := mem_page_lockedBehind
    exact ⟨page, answered, _, member, rfl, rfl⟩

end Source

end CoinLedger
