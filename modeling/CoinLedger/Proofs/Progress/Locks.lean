import CoinLedger.Proofs.Selection.Spendable

/-!
# Locks along a chain

Of two states of one chain the later one has the same records, a tip that is no lower and a median
time past that is no earlier (`Source.Advances`).  A lock that lies behind the earlier state lies
behind the later one (`lockActive_of_advanced`), so a lookup of a lock fails in both alike or finds
no new lock (`Source.Advances.isTimeLocked`).  An output lies no less deep below the tip of the
later state (`Source.Advances.depth_le`).
-/

set_option autoImplicit false

namespace CoinLedger

/-! ## Answers that agree -/

namespace Answer

/-- The same error, or related values. -/
inductive Agree {α β : Type} (related : α → β → Prop) : Answer α → Answer β → Prop
  | fails (error : QueryError) : Agree related (.error error) (.error error)
  | answers {left : α} {right : β} (values : related left right) :
      Agree related (.ok left) (.ok right)

namespace Agree

variable {α β γ δ : Type} {related : α → β → Prop} {relatedNext : γ → δ → Prop}

theorem bind {left : Answer α} {right : Answer β} {nextLeft : α → Answer γ}
    {nextRight : β → Answer δ} (first : Agree related left right)
    (second : ∀ before after, related before after →
      Agree relatedNext (nextLeft before) (nextRight after)) :
    Agree relatedNext (left >>= nextLeft) (right >>= nextRight) := by
  cases first with
  | fails error => exact .fails error
  | answers values => exact second _ _ values

/-- A step that both have in common. -/
theorem bind_same (shared : Answer α) {nextLeft : α → Answer γ} {nextRight : α → Answer δ}
    (next : ∀ value, Agree relatedNext (nextLeft value) (nextRight value)) :
    Agree relatedNext (shared >>= nextLeft) (shared >>= nextRight) := by
  cases shared with
  | error error => exact .fails error
  | ok value => exact next value

theorem exists_ok {value : α} {right : Answer β} (agree : Agree related (.ok value) right) :
    ∃ after, right = .ok after ∧ related value after := by
  cases agree with
  | answers values => exact ⟨_, rfl, values⟩

end Agree

end Answer

/-! ## States of one chain -/

/-- A later state of the same chain, read with whatever clock. -/
structure Source.Advances (first second : Source) : Prop where
  network : second.network = first.network
  tip : first.ledger.tipHeight ≤ second.ledger.tipHeight
  time : ∃ earlier later, first.ledger.medianTimePast = some earlier ∧
    second.ledger.medianTimePast = some later ∧ earlier ≤ later
  blocks : second.ledger.blocks = first.ledger.blocks
  addresses : second.ledger.addresses = first.ledger.addresses
  pending : second.ledger.pending = first.ledger.pending
  spent : second.ledger.spent = first.ledger.spent
  instant : second.ledger.instant = first.ledger.instant

/-- Nothing was locked in between. -/
def Eased (before after : Bool) : Prop :=
  after = true → before = true

/-- A lock that lies ahead of the later state lies ahead of the earlier one. -/
theorem lockActive_of_advanced {lock : UInt32} {tip laterTip : Int32} {time laterTime : Int64}
    (higher : tip ≤ laterTip) (later : time ≤ laterTime) :
    Eased (lockActive lock tip time) (lockActive lock laterTip laterTime) := by
  have heights := Int32.le_iff_toInt_le.mp higher
  have times := Int64.le_iff_toInt_le.mp later
  intro active
  rw [lockActive] at active ⊢
  split at active
  next => cases active
  next locked =>
    rw [if_neg locked]
    split at active
    next height =>
      rw [if_pos height]
      exact decide_eq_true (Int.lt_of_le_of_lt heights (of_decide_eq_true active))
    next time =>
      rw [if_neg time]
      exact decide_eq_true (Int.lt_of_le_of_lt times (of_decide_eq_true active))

namespace Source

namespace Advances

variable {first second : Source} (advances : first.Advances second) {key : AddressKey}

include advances

/-- **An output lies no less deep in a later state.** -/
theorem depth_le (height : Int32) : first.ledger.depth height ≤ second.ledger.depth height := by
  have higher := Int32.le_iff_toInt_le.mp advances.tip
  rw [Ledger.depth, Ledger.depth]
  split <;> split <;> omega

theorem readBlock (height : Int32) :
    second.ledger.readBlock height = first.ledger.readBlock height := by
  rw [Ledger.readBlock, Ledger.readBlock, advances.blocks]

theorem records (key : AddressKey) : second.ledger.records key = first.ledger.records key := by
  rw [Ledger.records, Ledger.records, advances.addresses]

theorem unspent (key : AddressKey) : second.ledger.unspent key = first.ledger.unspent key := by
  rw [Ledger.unspent, Ledger.unspent, advances.records]

theorem unspentCount (key : AddressKey) :
    second.ledger.unspentCount key = first.ledger.unspentCount key := by
  rw [Ledger.unspentCount, Ledger.unspentCount, advances.unspent]

theorem isSpent (outpoint : OutPoint) :
    second.ledger.isSpent outpoint = first.ledger.isSpent outpoint := by
  rw [Ledger.isSpent, Ledger.isSpent, advances.spent]

/-- Both states stand at their median times past. -/
theorem exists_standsAt : ∃ earlier later, first.StandsAt earlier ∧ second.StandsAt later := by
  obtain ⟨earlier, later, before, after, -⟩ := advances.time
  exact ⟨earlier, later, .of_median before, .of_median after⟩

/-- The time that locks by time are measured against is no earlier, whenever it is asked for. -/
theorem referenceTime_le (reads laterReads : Nat) :
    first.referenceTime reads ≤ second.referenceTime laterReads := by
  obtain ⟨earlier, later, before, after, ordered⟩ := advances.time
  rw [referenceTime, referenceTime, before, after]
  exact ordered

theorem lockOutput (height : Int32) (txid : Txid) (key : AddressKey) :
    second.lockOutput height txid key = first.lockOutput height txid key := by
  rw [Source.lockOutput, Source.lockOutput, advances.readBlock]

/-- **A lookup of a lock fails alike, or it finds no lock that the earlier state does not find.** -/
theorem isTimeLocked (reads laterReads : Nat) (height : Int32) (txid : Txid) (key : AddressKey) :
    Answer.Agree Eased (first.isTimeLocked (first.referenceTime reads) height txid key)
      (second.isTimeLocked (second.referenceTime laterReads) height txid key) := by
  rw [Source.isTimeLocked, Source.isTimeLocked, advances.lockOutput]
  cases first.lockOutput height txid key with
  | error error => exact .fails error
  | ok output =>
      cases output with
      | none => exact .answers id
      | some output =>
          exact .answers
            (lockActive_of_advanced advances.tip (advances.referenceTime_le reads laterReads))

end Advances

end Source

end CoinLedger
