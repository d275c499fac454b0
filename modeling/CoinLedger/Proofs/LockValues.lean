import CoinLedger.Proofs.Locks
import CoinLedger.Proofs.Script.Grammar

/-!
# Values of locks

The values that a lock can push are those below `2 ^ 39` (`exists_pushesNumber_iff`).  A value from
one up to the greatest 32-bit word locks an output exactly as long as it lies ahead, of the tip if
it is a height and of the reference time if it is a time.  A greater value counts as no lock, as
zero and the negative ones do (`lockActive_iff_of_locked`).  So with a smaller value of the same
kind an output is free whenever it is free with a greater one, except where the greater value is no
32-bit word (`locks_honoured`).  There the exception is met (`oversized_lock_free`).
-/

set_option autoImplicit false

namespace CoinLedger

open Script

/-- The value lies ahead: of the tip where it is a height, of the reference time where it is a time.
-/
def Ahead (value : Int) (tipHeight : Int32) (referenceTime : Int64) : Prop :=
  if value < lockTimeThreshold.toNat then tipHeight.toInt < value else referenceTime.toInt < value

/-- Two values are both heights or both times. -/
def SameKind (value other : Int) : Prop :=
  value < lockTimeThreshold.toNat ↔ other < lockTimeThreshold.toNat

instance (value : Int) (tipHeight : Int32) (referenceTime : Int64) :
    Decidable (Ahead value tipHeight referenceTime) :=
  inferInstanceAs (Decidable (if value < lockTimeThreshold.toNat then _ else _))

instance (value other : Int) : Decidable (SameKind value other) :=
  inferInstanceAs (Decidable (_ ↔ _))

variable {script rest : List UInt8} {value : Int} {tipHeight : Int32} {referenceTime : Int64}

/-! ## Values that are pushed -/

theorem lt_of_pushesNumber {push : List UInt8} (pushes : PushesNumber push value) :
    value < 2 ^ 39 := by
  cases pushes with
  | zero => decide
  | small least most => omega
  | @counted front last short =>
      have low := Number.littleEndian_lt front
      have power : 256 ^ front.length ≤ 256 ^ 4 :=
        Nat.pow_le_pow_right (by decide) (Nat.le_of_lt_succ short)
      have top : last.toNat % 128 ≤ 127 := Nat.le_of_lt_succ (Nat.mod_lt _ (by decide))
      have high := Nat.mul_le_mul_left (256 ^ front.length) top
      unfold Number.signed
      extract_lets magnitude
      have bounded : magnitude < 2 ^ 39 := by omega
      split <;> omega

/-- Five bytes push every value that is small enough. -/
theorem exists_pushesNumber {value : Nat} (small : value < 2 ^ 39) :
    ∃ push, PushesNumber push value := by
  let front := [UInt8.ofNat value, UInt8.ofNat (value / 2 ^ 8), UInt8.ofNat (value / 2 ^ 16),
    UInt8.ofNat (value / 2 ^ 24)]
  let last := UInt8.ofNat (value / 2 ^ 32)
  have positive : last < 0x80 := by
    rw [UInt8.lt_iff_toNat_lt, UInt8.toNat_ofNat']
    change _ < 128
    omega
  have spelled : Number.signed front last = value := by
    rw [Number.signed, if_pos positive]
    simp only [front, last, Number.littleEndian, UInt8.toNat_ofNat', List.length_cons,
      List.length_nil]
    omega
  rw [← spelled]
  exact ⟨_, @PushesNumber.counted front last (Nat.lt_succ_self 4)⟩

/-- **The values that can be pushed are those below `2 ^ 39`.** -/
theorem exists_pushesNumber_iff {value : Nat} :
    (∃ push, PushesNumber push value) ↔ value < 2 ^ 39 := by
  constructor
  · rintro ⟨push, pushes⟩
    have small := lt_of_pushesNumber pushes
    omega
  · intro small
    exact exists_pushesNumber small

/-! ## Values that lock -/

/-- **A pushed value locks an output exactly as long as it lies ahead**, if it is a word of 32 bits
other than zero. -/
theorem lockActive_iff_of_locked (locked : LockedBy script value rest) :
    lockActive (lockTime script) tipHeight referenceTime = true ↔
      0 < value ∧ value < 2 ^ 32 ∧ Ahead value tipHeight referenceTime := by
  have lock := (splitLock_of_locked locked).2
  change ((lockTime script).toNat : Int) = _ at lock
  generalize lockTime script = word at lock ⊢
  have threshold : isHeightLock word = true ↔ (word.toNat : Int) < lockTimeThreshold.toNat := by
    rw [isHeightLock, decide_eq_true_eq, UInt32.lt_iff_toNat_lt, Int.ofNat_lt]
  by_cases held : 0 ≤ value ∧ value < 2 ^ 32
  · rw [if_pos held] at lock
    rw [← lock, lockActive]
    by_cases zero : word = 0
    · simp [zero]
    · have positive : 0 < word.toNat :=
        Nat.pos_of_ne_zero fun none => zero (UInt32.toNat_inj.mp none)
      rw [if_neg zero, Ahead]
      by_cases height : isHeightLock word = true
      · rw [if_pos height, if_pos (threshold.mp height), decide_eq_true_eq]
        omega
      · rw [if_neg height, if_neg (mt threshold.mpr height), decide_eq_true_eq]
        omega
  · rw [if_neg held] at lock
    have zero : word = 0 := UInt32.toNat_inj.mp (Int.ofNat_inj.mp lock)
    rw [zero, lockActive, if_pos rfl]
    constructor
    · intro active
      cases active
    · rintro ⟨positive, below, -⟩
      exact absurd ⟨Int.le_of_lt positive, below⟩ held

/-- A smaller value of the same kind lies ahead only where the greater one does. -/
theorem Ahead.mono {later : Int} (ahead : Ahead value tipHeight referenceTime)
    (le : value ≤ later) (same : SameKind value later) : Ahead later tipHeight referenceTime := by
  unfold Ahead at ahead ⊢
  by_cases height : value < lockTimeThreshold.toNat
  · rw [if_pos height] at ahead
    rw [if_pos (same.mp height)]
    exact Int.lt_of_lt_of_le ahead le
  · rw [if_neg height] at ahead
    rw [if_neg (mt same.mpr height)]
    exact Int.lt_of_lt_of_le ahead le

/-! ## Evaluation -/

namespace Source

/-- How the values of locks decide whether outputs are locked. -/
structure HonoursLocks (source : Source) : Prop where
  /-- A pushed value locks an output exactly as long as it lies ahead, if it is a word of 32 bits
  other than zero. -/
  locked_iff : ∀ {time} {output : TxOutput} {value rest}, LockedBy output.script value rest →
    (source.lockedAt time (some output) = true ↔ 0 < value ∧ value < 2 ^ 32 ∧
      Ahead value source.ledger.tipHeight time)
  /-- An output is free with a smaller value of the same kind where it is free with a greater one
  that is a word of 32 bits. -/
  free_of_le : ∀ {time} {output other : TxOutput} {value later rest},
    LockedBy output.script value rest → LockedBy other.script later rest → 0 ≤ value →
      value ≤ later → later < 2 ^ 32 → SameKind value later →
        source.lockedAt time (some other) = false → source.lockedAt time (some output) = false
  /-- The lock of a record is that of the first output of its transaction that pays to the key, at
  the reference time at which it is decided. -/
  reported : ∀ session key record {output}, source.firstOutput key record = some output →
    ((source.checkTimeLock record.height record.txid key).runIn session).1 =
      .ok (source.lockedAt (source.referenceTime session.timeReads) (some output))

/-- **Locks are honoured for every value that is a word of 32 bits**, at every tip and every
reference time.  All values below `2 ^ 39` can be pushed; those that are no words lock nothing. -/
theorem locks_honoured :
    (∀ value : Nat, (∃ push, PushesNumber push value) ↔ value < 2 ^ 39) ∧
      ∀ source : Source, source.HonoursLocks := by
  refine ⟨fun value => exists_pushesNumber_iff, fun source => ⟨lockActive_iff_of_locked, ?_,
    fun session key record output found => ?_⟩⟩
  case refine_2 =>
    rw [checkTimeLock_runIn]
    exact isTimeLocked_of_firstOutput found _
  intro time output other value later rest locked lockedLater least le word same free
  rw [← Bool.not_eq_true] at free ⊢
  intro held
  obtain ⟨positive, _, ahead⟩ := (lockActive_iff_of_locked locked).mp held
  exact free ((lockActive_iff_of_locked lockedLater).mpr
    ⟨Int.lt_of_lt_of_le positive le, word, ahead.mono le same⟩)

/-- A source at height 1000 with one output, which is locked by the value of a push. -/
def pushing (push : List UInt8) : Source :=
  .ofBlock 1000 (.ofOutputs [⟨500000000, push ++ [0xb1, 0x75] ++ payTo .ones⟩]) .ones

/-- An output that is locked up to height 5000 is reported as locked, and one that is locked up to
height 1000 as free. -/
theorem locks_honoured_heights :
    (((pushing [2, 0x88, 0x13]).checkTimeLock 10 default .ones).runIn {}).1 = .ok true ∧
      (((pushing [2, 0xe8, 0x03]).checkTimeLock 10 default .ones).runIn {}).1 = .ok false := by
  have later : LockedBy ([2, 0x88, 0x13] ++ [0xb1, 0x75] ++ payTo .ones) 5000 (payTo .ones) :=
    ⟨_, @PushesNumber.counted [0x88] 0x13 (by decide), rfl⟩
  have reached : LockedBy ([2, 0xe8, 0x03] ++ [0xb1, 0x75] ++ payTo .ones) 1000 (payTo .ones) :=
    ⟨_, @PushesNumber.counted [0xe8] 0x03 (by decide), rfl⟩
  constructor
  · have honours := locks_honoured.2 (pushing [2, 0x88, 0x13])
    have held : (pushing [2, 0x88, 0x13]).lockedAt Clock.defaultUnixTime
        (some ⟨500000000, _⟩) = true :=
      (honours.locked_iff later).mpr (by decide)
    exact held ▸ honours.reported {} .ones ⟨default, 0, 500000000, 10⟩ (by decide +kernel)
  · have honours := locks_honoured.2 (pushing [2, 0xe8, 0x03])
    have free : (pushing [2, 0xe8, 0x03]).lockedAt Clock.defaultUnixTime
        (some ⟨500000000, _⟩) = false :=
      Bool.eq_false_iff.mpr (mt (honours.locked_iff reached).mp (by decide))
    exact free ▸ honours.reported {} .ones ⟨default, 0, 500000000, 10⟩ (by decide +kernel)

/-- The greatest word of 32 bits locks an output, and the next value does not. -/
theorem oversized_lock_free :
    ∃ word next, PushesNumber word 4294967295 ∧ PushesNumber next 4294967296 ∧
      SameKind 4294967295 4294967296 ∧
      (((pushing next).checkTimeLock 10 default .ones).runIn {}).1 = .ok false ∧
      (((pushing word).checkTimeLock 10 default .ones).runIn {}).1 = .ok true := by
  refine ⟨[5, 0xff, 0xff, 0xff, 0xff, 0], [5, 0, 0, 0, 0, 1], ?_, ?_, by decide, ?_, ?_⟩
  · exact @PushesNumber.counted [0xff, 0xff, 0xff, 0xff] 0 (by decide)
  · exact @PushesNumber.counted [0, 0, 0, 0] 1 (by decide)
  · exact Answer.eq_ok_of_toOption (by decide +kernel)
  · exact Answer.eq_ok_of_toOption (by decide +kernel)

end Source

end CoinLedger
