import CoinLedger.Proofs.CachedQuery
import CoinLedger.Selection.Scan

/-!
# Spendable outputs

An output is spendable at a time when its lock has expired by then, no pending transaction spends it
and, where instant send asks for that, enough blocks confirm it.  A scan looks at each output of a
slice at a time of its own, and finds exactly the outputs that are spendable then
(`usableAnswer_of_judged`), unless a lookup fails or 32 bits do not hold the confirmations.  Where
the reference time stands still, these are the outputs of the slice that are spendable at that time
(`fresh_of_standsAt`).
-/

set_option autoImplicit false

namespace CoinLedger

/-! ## Confirmations -/

namespace Ledger

variable {ledger : Ledger} {height : Int32}

/-- How many blocks up to the tip confirm what a block at a height holds; none for a height below
zero or above the tip. -/
def depth (ledger : Ledger) (height : Int32) : Int :=
  if 0 ≤ height.toInt ∧ height.toInt ≤ ledger.tipHeight.toInt then
    ledger.tipHeight.toInt - height.toInt + 1
  else 0

theorem depth_nonneg : 0 ≤ ledger.depth height := by
  rw [depth]
  split <;> omega

/-- Below the greatest height 32 bits hold every number of confirmations. -/
theorem depth_le_maxValue (below : ledger.tipHeight < Int32.maxValue) :
    ledger.depth height ≤ Int32.maxValue.toInt := by
  have tip := Int32.lt_iff_toInt_lt.mp below
  have most : 0 ≤ Int32.maxValue.toInt := by decide
  rw [depth]
  split <;> omega

theorem confirmations_eq : ledger.confirmations height =
    if ledger.depth height ≤ Int32.maxValue.toInt then .ok (Int32.ofInt (ledger.depth height))
    else .error .stopped := by
  have low : (isConfirmedHeight height = true) = (0 ≤ height.toInt) := by
    rw [isConfirmedHeight, decide_eq_true_eq, Int32.le_iff_toInt_le]
    rfl
  have high : ledger.tipHeight < height ↔ ledger.tipHeight.toInt < height.toInt :=
    Int32.lt_iff_toInt_lt
  rw [confirmations, confirmationsAt, depth]
  by_cases inside : 0 ≤ height.toInt ∧ height.toInt ≤ ledger.tipHeight.toInt
  · have counted : (!isConfirmedHeight height || decide (ledger.tipHeight < height)) = false := by
      simp [low, high, inside]
    simp only [counted, if_pos inside]
    rfl
  · have outside : (!isConfirmedHeight height || decide (ledger.tipHeight < height)) = true := by
      rw [Bool.or_eq_true, Bool.not_eq_true', ← Bool.not_eq_true, low, decide_eq_true_eq, high]
      omega
    rw [if_pos outside, if_neg inside, if_pos (by decide)]
    rfl

/-- **Confirmations are counted exactly**, when 32 bits hold their number. -/
theorem confirmations_eq_ok_iff {count : Int32} :
    ledger.confirmations height = .ok count ↔ count.toInt = ledger.depth height := by
  have least := @depth_nonneg ledger height
  rw [confirmations_eq]
  split
  next most =>
    have exact : (Int32.ofInt (ledger.depth height)).toInt = ledger.depth height :=
      Int32.toInt_ofInt_of_le (Int.le_trans (by decide) least)
        (Int.lt_of_le_of_lt most (by decide))
    rw [Except.ok.injEq, ← Int32.toInt_inj, exact]
    exact eq_comm
  next more =>
    refine ⟨nofun, fun same => absurd ?_ more⟩
    rw [← same]
    exact Int32.le_iff_toInt_le.mp count.le_maxValue

end Ledger

/-! ## Outputs -/

namespace Source

variable {source : Source} {time : Int64} {tuning : SelectionTuning} {request : SelectionRequest}
  {key : AddressKey} {output : UnspentOutput}

/-- The output may be spent at a time by a selection for the key. -/
structure Spendable (source : Source) (time : Int64) (tuning : SelectionTuning)
    (request : SelectionRequest) (key : AddressKey) (output : UnspentOutput) : Prop where
  unlocked : source.isTimeLocked time output.height output.txid key = .ok false
  notSpent : source.ledger.isSpent output.outpoint = false
  deep : request.instantOnly = true →
    tuning.instantConfirmations.toInt ≤ source.ledger.depth output.height

/-- The lock of the output can be looked up. -/
def Answered (source : Source) (key : AddressKey) (output : UnspentOutput) : Prop :=
  ∃ found, source.lockOutput output.height output.txid key = .ok found

theorem Answered.isTimeLocked (answered : source.Answered key output) (time : Int64) :
    ∃ locked, source.isTimeLocked time output.height output.txid key = .ok locked := by
  obtain ⟨found, looked⟩ := answered
  rw [Source.isTimeLocked, looked]
  exact ⟨_, rfl⟩

theorem answered_of_isTimeLocked {locked : Bool}
    (found : source.isTimeLocked time output.height output.txid key = .ok locked) :
    source.Answered key output := by
  obtain ⟨first, looked, _⟩ := Answer.map_eq_ok.mp found
  exact ⟨first, looked⟩

/-- A selection can tell at a time whether it may use the output: the lock can be looked up, and
where instant send asks for the confirmations of an output that is free otherwise, 32 bits hold
them. -/
structure Judged (source : Source) (time : Int64) (request : SelectionRequest) (key : AddressKey)
    (output : UnspentOutput) : Prop where
  answered : source.Answered key output
  counted : request.instantOnly = true →
    source.isTimeLocked time output.height output.txid key = .ok false →
    source.ledger.isSpent output.outpoint = false →
    source.ledger.depth output.height ≤ Int32.maxValue.toInt

/-- Whether the lock of an output was found and has expired at a time. -/
def foundUnlocked (source : Source) (time : Int64) (key : AddressKey) (output : UnspentOutput) :
    Bool :=
  match source.isTimeLocked time output.height output.txid key with
  | .ok locked => !locked
  | .error _ => false

/-- Whether an output is spendable at a time. -/
def canSpend (source : Source) (time : Int64) (tuning : SelectionTuning)
    (request : SelectionRequest) (key : AddressKey) (output : UnspentOutput) : Bool :=
  source.foundUnlocked time key output &&
    (!source.ledger.isSpent output.outpoint &&
      (!request.instantOnly ||
        tuning.instantConfirmations.toInt ≤ source.ledger.depth output.height))

theorem canSpend_iff : source.canSpend time tuning request key output = true ↔
    source.Spendable time tuning request key output := by
  have unlocked_iff : source.foundUnlocked time key output = true ↔
      source.isTimeLocked time output.height output.txid key = .ok false := by
    unfold foundUnlocked
    rcases source.isTimeLocked time output.height output.txid key with _ | _ | _ <;> simp
  rw [canSpend, Bool.and_eq_true, unlocked_iff]
  constructor
  · intro ⟨unlocked, rest⟩
    simp only [Bool.and_eq_true, Bool.not_eq_true', Bool.or_eq_true, decide_eq_true_eq] at rest
    exact ⟨unlocked, rest.1, fun instant => rest.2.resolve_left (by simp [instant])⟩
  · intro ⟨unlocked, notSpent, deep⟩
    refine ⟨unlocked, ?_⟩
    cases instant : request.instantOnly with
    | false => simp [notSpent]
    | true => simp [notSpent, deep instant]

/-- The outputs of a key that are spendable at a time, in ledger order. -/
def spendable (source : Source) (time : Int64) (tuning : SelectionTuning)
    (request : SelectionRequest) (key : AddressKey) : List UnspentOutput :=
  (source.ledger.unspent key).filter (source.canSpend time tuning request key)

theorem mem_spendable : output ∈ source.spendable time tuning request key ↔
    output ∈ source.ledger.unspent key ∧ source.Spendable time tuning request key output := by
  rw [spendable, List.mem_filter, canSpend_iff]

end Source

/-! ## Slices -/

/-- A slice that is fetched. -/
structure Look where
  slice : Nat
  /-- How often the time of day was asked for before. -/
  timeReads : Nat
  /-- How often the clock was read when the visit of the slice ended. -/
  clockReads : Nat
  deriving DecidableEq, Repr

namespace ScanPlan

variable {σ : Type} {plan : ScanPlan σ}

/-- The outputs of a slice, each with the readings of the time of day before it is looked at. -/
def seen (plan : ScanPlan σ) (look : Look) : List (UnspentOutput × Nat) :=
  withReads (plan.source.outputReads plan.key) look.timeReads (plan.sliceOutputs look.slice)

/-- The outputs of a slice that are spendable when they are looked at, in ledger order. -/
def fresh (plan : ScanPlan σ) (look : Look) : List UnspentOutput :=
  ((plan.seen look).filter fun output =>
    plan.source.canSpend (plan.source.referenceTime output.2) plan.tuning plan.request plan.key
      output.1).map Prod.fst

/-- The outputs of a slice that are spendable at a time, in ledger order. -/
def freshAt (plan : ScanPlan σ) (time : Int64) (slice : Nat) : List UnspentOutput :=
  (plan.sliceOutputs slice).filter (plan.source.canSpend time plan.tuning plan.request plan.key)

/-- How often the time of day is asked for when the outputs of a slice are looked at. -/
def sliceReads (plan : ScanPlan σ) (slice : Nat) : Nat :=
  ((plan.sliceOutputs slice).map (plan.source.outputReads plan.key)).sum

theorem fresh_of_standsAt {time : Int64} (stands : plan.source.StandsAt time) (look : Look) :
    plan.fresh look = plan.freshAt time look.slice :=
  map_fst_filter_withReads (fun output => by rw [stands output.2]) _ _ _

theorem sliceOutputs_subset (plan : ScanPlan σ) (slice : Nat) :
    plan.sliceOutputs slice ⊆ plan.source.ledger.unspent plan.key := fun _ member =>
  List.mem_of_mem_drop (List.mem_of_mem_take member)

theorem mem_sliceOutputs_of_mem_seen {look : Look} {output : UnspentOutput × Nat}
    (member : output ∈ plan.seen look) : output.1 ∈ plan.sliceOutputs look.slice :=
  mem_of_mem_withReads member

/-- An output that is found in a slice is spendable when it is looked at. -/
theorem exists_of_mem_fresh {look : Look} {output : UnspentOutput}
    (member : output ∈ plan.fresh look) :
    output ∈ plan.sliceOutputs look.slice ∧ ∃ reads, look.timeReads ≤ reads ∧
      reads ≤ look.timeReads + plan.sliceReads look.slice ∧
      plan.source.Spendable (plan.source.referenceTime reads) plan.tuning plan.request plan.key
        output := by
  obtain ⟨⟨_, reads⟩, kept, rfl⟩ := List.mem_map.mp member
  obtain ⟨seen, spendable⟩ := List.mem_filter.mp kept
  obtain ⟨least, most⟩ := reads_bounds seen
  exact ⟨mem_of_mem_withReads seen, reads, least, Nat.le_trans (Nat.le_add_right _ _) most,
    Source.canSpend_iff.mp spendable⟩

theorem fresh_subset (plan : ScanPlan σ) (look : Look) :
    plan.fresh look ⊆ plan.source.ledger.unspent plan.key := fun _ member =>
  plan.sliceOutputs_subset look.slice (exists_of_mem_fresh member).1

theorem freshAt_subset (plan : ScanPlan σ) (time : Int64) (slice : Nat) :
    plan.freshAt time slice ⊆ plan.source.spendable time plan.tuning plan.request plan.key :=
  List.filter_subset _ (plan.sliceOutputs_subset slice)

/-! ## The filter of a slice -/

/-- Whether an output may be used when it is looked at. -/
def judge (plan : ScanPlan σ) (output : UnspentOutput × Nat) : Answer Bool := do
  let locked ← plan.source.isTimeLocked (plan.source.referenceTime output.2) output.1.height
    output.1.txid plan.key
  plan.isUsable output.1 locked

/-- The answer of the filter of a slice: the outputs that may be used, or the first error. -/
def usableAnswer (plan : ScanPlan σ) : List (UnspentOutput × Nat) → Answer (List UnspentOutput)
  | [] => .ok []
  | output :: rest => do
    let kept ← plan.judge output
    let usable ← plan.usableAnswer rest
    return if kept then output.1 :: usable else usable

theorem usableOutputs_answers (plan : ScanPlan σ) (outputs : List UnspentOutput) :
    Query.Answers plan.source (plan.usableOutputs outputs)
      (outputs.map (plan.source.outputReads plan.key)).sum
      fun reads =>
        plan.usableAnswer (withReads (plan.source.outputReads plan.key) reads outputs) := by
  induction outputs with
  | nil => exact Query.answers_pure []
  | cons output rest ih =>
      have asked : plan.source.timeReads output.height output.txid plan.key +
            (0 + ((rest.map (plan.source.outputReads plan.key)).sum + 0)) =
          ((output :: rest).map (plan.source.outputReads plan.key)).sum := by
        simp [Source.outputReads]
      rw [usableOutputs]
      refine ((Source.checkTimeLockCached_answers output.height output.txid plan.key).bind
        fun locked => (Query.answers_ofAnswer (plan.isUsable output locked)).bind fun kept =>
          ih.bind fun usable => Query.answers_pure _).congr asked fun reads => ?_
      rw [withReads_cons, usableAnswer, judge, bind_assoc]
      rfl

/-- **An output is judged by whether it is spendable**, if that can be told. -/
theorem judge_eq_ok_iff {output : UnspentOutput × Nat} {kept : Bool} :
    plan.judge output = .ok kept ↔
      plan.source.Judged (plan.source.referenceTime output.2) plan.request plan.key output.1 ∧
        plan.source.canSpend (plan.source.referenceTime output.2) plan.tuning plan.request plan.key
          output.1 = kept := by
  have judged_iff : plan.source.Judged (plan.source.referenceTime output.2) plan.request plan.key
        output.1 ↔
      ∃ locked, plan.source.isTimeLocked (plan.source.referenceTime output.2) output.1.height
        output.1.txid plan.key = .ok locked ∧
        (locked = false → plan.source.ledger.isSpent output.1.outpoint = false →
          plan.request.instantOnly = true →
          plan.source.ledger.depth output.1.height ≤ Int32.maxValue.toInt) := by
    constructor
    · intro judged
      obtain ⟨locked, found⟩ := judged.answered.isTimeLocked (plan.source.referenceTime output.2)
      exact ⟨locked, found, fun unlocked notSpent instant =>
        judged.counted instant (unlocked ▸ found) notSpent⟩
    · rintro ⟨locked, found, counted⟩
      refine ⟨Source.answered_of_isTimeLocked found, fun instant unlocked notSpent => ?_⟩
      exact counted (Except.ok.inj (found.symm.trans unlocked)) notSpent instant
  rw [judged_iff, judge, Source.canSpend, Source.foundUnlocked]
  cases plan.source.isTimeLocked (plan.source.referenceTime output.2) output.1.height
      output.1.txid plan.key with
  | error error => exact ⟨nofun, fun ⟨⟨_, impossible, _⟩, _⟩ => nomatch impossible⟩
  | ok locked =>
      dsimp only [bind, Except.bind]
      rw [isUsable, Ledger.confirmations_eq]
      cases locked with
      | true => simp [pure, Except.pure]
      | false =>
          cases plan.source.ledger.isSpent output.1.outpoint with
          | true => simp [pure, Except.pure]
          | false =>
              cases plan.request.instantOnly with
              | false => simp [pure, Except.pure]
              | true =>
                  by_cases fits : plan.source.ledger.depth output.1.height ≤ Int32.maxValue.toInt
                  · have counted := Ledger.confirmations_eq_ok_iff.mp
                      (Ledger.confirmations_eq.trans (if_pos fits))
                    rw [if_pos fits]
                    simp [pure, Except.pure, bind, Except.bind, Int32.le_iff_toInt_le, counted,
                      fits]
                  · rw [if_neg fits]
                    simp [bind, Except.bind, fits]

/-- Where every output can be judged, the filter keeps the spendable ones. -/
theorem usableAnswer_of_judged {outputs : List (UnspentOutput × Nat)}
    (judged : ∀ output ∈ outputs, plan.source.Judged (plan.source.referenceTime output.2)
      plan.request plan.key output.1) :
    plan.usableAnswer outputs = .ok ((outputs.filter fun output =>
      plan.source.canSpend (plan.source.referenceTime output.2) plan.tuning plan.request plan.key
        output.1).map Prod.fst) := by
  induction outputs with
  | nil => rfl
  | cons output rest ih =>
      have kept := judge_eq_ok_iff.mpr ⟨judged output List.mem_cons_self, rfl⟩
      have later := ih fun other member => judged other (List.mem_cons_of_mem _ member)
      rw [usableAnswer, kept, later, List.filter_cons]
      simp only [bind, Except.bind, pure, Except.pure]
      split <;> rfl

/-- An error of the filter is met at one of the outputs. -/
theorem exists_of_usableAnswer_error {outputs : List (UnspentOutput × Nat)}
    {error : QueryError} (fails : plan.usableAnswer outputs = .error error) :
    ∃ output ∈ outputs, plan.judge output = .error error := by
  induction outputs with
  | nil => cases fails
  | cons output rest ih =>
      rcases Answer.bind_eq_error fails with found | ⟨_, _, fails⟩
      · exact ⟨output, List.mem_cons_self, found⟩
      rcases Answer.bind_eq_error fails with later | ⟨_, _, impossible⟩
      · obtain ⟨other, member, cause⟩ := ih later
        exact ⟨other, List.mem_cons_of_mem _ member, cause⟩
      · cases impossible

/-- When the filter of a slice has an answer, every output could be judged. -/
theorem judged_of_usableAnswer {outputs : List (UnspentOutput × Nat)} {kept : List UnspentOutput}
    (ends : plan.usableAnswer outputs = .ok kept) :
    ∀ output ∈ outputs, plan.source.Judged (plan.source.referenceTime output.2) plan.request
      plan.key output.1 := by
  induction outputs generalizing kept with
  | nil => exact fun _ member => absurd member List.not_mem_nil
  | cons output rest ih =>
      obtain ⟨keeps, first, ends⟩ := Answer.bind_eq_ok.mp ends
      obtain ⟨usable, later, _⟩ := Answer.bind_eq_ok.mp ends
      intro other member
      rcases List.mem_cons.mp member with rfl | member
      · exact (judge_eq_ok_iff.mp first).1
      · exact ih later other member

end ScanPlan

end CoinLedger
