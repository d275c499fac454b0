import CoinLedger.TimeLock
import Mathlib.Algebra.BigOperators.Group.List.Basic
import Mathlib.Algebra.GroupWithZero.Nat
import Mathlib.Data.List.Forall2

/-!
# The times at which locks are decided

A lock by time is measured against the median time past, or else against the time of day, which is
asked for anew at every lock that is decided.  So the reference time depends on how often the time
of day was asked for before (`referenceTime`).  Whether the decision about a record asks for it
depends on the record alone (`timeReads`), and a row of decisions finds each record at a number of
earlier readings of its own (`withReads`).  A source with a median time, or with a clock whose time
of day stands still, stands at one time (`StandsAt`), and there the order of the decisions does not
matter.
-/

set_option autoImplicit false

namespace CoinLedger

/-! ## Rows of readings -/

section Rows

variable {α : Type}

/-- The items of a row, each with the number of readings before it; an item takes as many readings
as it asks for. -/
def withReads (asks : α → Nat) : Nat → List α → List (α × Nat)
  | _, [] => []
  | reads, item :: rest => (item, reads) :: withReads asks (reads + asks item) rest

@[simp] theorem withReads_nil (asks : α → Nat) (reads : Nat) : withReads asks reads [] = [] := rfl

@[simp] theorem withReads_cons (asks : α → Nat) (reads : Nat) (item : α) (rest : List α) :
    withReads asks reads (item :: rest) =
      (item, reads) :: withReads asks (reads + asks item) rest := rfl

@[simp] theorem map_fst_withReads (asks : α → Nat) (reads : Nat) (items : List α) :
    (withReads asks reads items).map Prod.fst = items := by
  induction items generalizing reads with
  | nil => rfl
  | cons item rest ih => exact congrArg (item :: ·) (ih _)

theorem mem_of_mem_withReads {asks : α → Nat} {reads : Nat} {items : List α} {look : α × Nat}
    (member : look ∈ withReads asks reads items) : look.1 ∈ items := by
  rw [← map_fst_withReads asks reads items]
  exact List.mem_map_of_mem member

/-- Every item of a row is met after the first readings and before the last ones. -/
theorem reads_bounds {asks : α → Nat} {reads : Nat} {items : List α} {look : α × Nat}
    (member : look ∈ withReads asks reads items) :
    reads ≤ look.2 ∧ look.2 + asks look.1 ≤ reads + (items.map asks).sum := by
  induction items generalizing reads with
  | nil => cases member
  | cons item rest ih =>
      rcases List.mem_cons.mp member with rfl | later
      · simp
      · obtain ⟨least, most⟩ := ih later
        simp only [List.map_cons, List.sum_cons]
        omega

/-- What is told of every item at its reading is told at some reading between the first and the last
one. -/
theorem forall₂_of_withReads {β : Type} {related : α → Nat → β → Prop} {asks : α → Nat}
    {reads : Nat} {items : List α} {others : List β}
    (all : List.Forall₂ (fun look other => related look.1 look.2 other)
      (withReads asks reads items) others) :
    List.Forall₂
      (fun item other => ∃ between, reads ≤ between ∧
        between + asks item ≤ reads + (items.map asks).sum ∧ related item between other)
      items others := by
  induction items generalizing reads others with
  | nil =>
      cases all
      exact .nil
  | cons item rest ih =>
      obtain _ | ⟨head, later⟩ := all
      rw [List.map_cons, List.sum_cons]
      refine .cons ⟨reads, Nat.le_refl reads, by omega, head⟩ ((ih later).imp ?_)
      rintro item other ⟨between, least, most, related⟩
      exact ⟨between, by omega, by omega, related⟩

/-- Where the readings do not matter, they can be left out. -/
theorem map_fst_filter_withReads {keeps : α × Nat → Bool} {kept : α → Bool}
    (same : ∀ look, keeps look = kept look.1) (asks : α → Nat) (reads : Nat) (items : List α) :
    ((withReads asks reads items).filter keeps).map Prod.fst = items.filter kept := by
  have drops : keeps = kept ∘ Prod.fst := funext same
  rw [drops, ← List.filter_map, map_fst_withReads]

end Rows

namespace Source

variable {source : Source}

/-! ## The lock of a record -/

/-- The time that locks by time are measured against after the given number of readings. -/
def referenceTime (source : Source) (reads : Nat) : Int64 :=
  source.ledger.medianTimePast.getD (source.clock.unixTime reads)

/-- The output that decides the lock of a record: the first one by which its transaction pays to the
key. -/
def lockOutput (source : Source) (height : Int32) (txid : Txid) (key : AddressKey) :
    Answer (Option TxOutput) := do
  let block ← source.ledger.readBlock height
  block.outputTo height txid key

/-- Whether an output is locked at a time; no output is not. -/
def lockedAt (source : Source) (time : Int64) : Option TxOutput → Bool
  | none => false
  | some output => lockActive output.lockTime source.ledger.tipHeight time

/-- Whether a record is locked at a time. -/
def isTimeLocked (source : Source) (time : Int64) (height : Int32) (txid : Txid)
    (key : AddressKey) : Answer Bool :=
  (source.lockOutput height txid key).map (source.lockedAt time)

/-- How often the time of day is asked for when an output is looked at: once for an output without a
median time past. -/
def lookReads (source : Source) (output : Option TxOutput) : Nat :=
  if source.ledger.medianTimePast.isNone && output.isSome then 1 else 0

/-- How often the time of day is asked for when the lock of a record is decided. -/
def timeReads (source : Source) (height : Int32) (txid : Txid) (key : AddressKey) : Nat :=
  match source.lockOutput height txid key with
  | .ok output => source.lookReads output
  | .error _ => 0

/-- How often the time of day is asked for when the lock of an unspent output is
decided. -/
def outputReads (source : Source) (key : AddressKey) (output : UnspentOutput) : Nat :=
  source.timeReads output.height output.txid key

/-! ## Times that stand still -/

/-- The reference time is the given one, however often the time of day was asked for. -/
def StandsAt (source : Source) (time : Int64) : Prop :=
  ∀ reads, source.referenceTime reads = time

/-- A ledger with a median time past stands at it. -/
theorem StandsAt.of_median {time : Int64} (median : source.ledger.medianTimePast = some time) :
    source.StandsAt time := by
  intro reads
  rw [referenceTime, median]
  rfl

/-- A clock whose time of day stands still makes the source stand. -/
theorem StandsAt.of_clock {time : Int64} (still : ∀ reads, source.clock.unixTime reads = time) :
    source.StandsAt (source.ledger.medianTimePast.getD time) := by
  intro reads
  rw [referenceTime, still]

end Source

end CoinLedger
