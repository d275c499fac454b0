import CoinLedger.Proofs.Script.Number
import CoinLedger.Script

/-!
# Locks and destinations of scripts

The bytes that push a lock value are read as that value, whatever follows them: a single operation
up to sixteen (`readLockValue_small`), a number of up to five bytes beyond that
(`readLockValue_number`).  So a lock is split off the script that it was put in front of
(`splitLock_lockScript_append`).  The script that pays to a key begins with no lock and names the
key as its destination, with or without a lock in front (`lock_payTo_roundTrip`).
-/

set_option autoImplicit false

namespace CoinLedger.Script

open Number

variable {lock : UInt32}

/-! ## Pushed lock values -/

theorem toInt_ofNat_lock (lock : UInt32) : (Int64.ofNat lock.toNat).toInt = lock.toNat :=
  Int64.toInt_ofNat_of_lt (Nat.lt_trans lock.toNat_lt (by decide))

theorem lockOfValue_ofNat (lock : UInt32) : lockOfValue (Int64.ofNat lock.toNat) = lock := by
  have below := lock.toNat_lt
  rw [lockOfValue, toInt_ofNat_lock, if_pos (by omega), Int.toNat_natCast, UInt32.ofNat_toNat]

/-- The operations from one to sixteen push their number. -/
theorem readLockValue_small (nonzero : lock ≠ 0) (small : lock ≤ 16) (rest : List UInt8) :
    readLockValue ((opOne + lock.toUInt8 - 1) :: rest) = some (Int64.ofNat lock.toNat, rest) := by
  have most : lock.toNat ≤ 16 := small
  have least : lock.toNat ≠ 0 := fun zero => nonzero (UInt32.toNat_inj.mp zero)
  have code : (opOne + lock.toUInt8 - 1).toNat = opOne.toNat - 1 + lock.toNat := by
    rw [UInt8.toNat_sub, UInt8.toNat_add, UInt32.toNat_toUInt8]
    change (2 ^ 8 - 1 + (0x51 + _) % _) % _ = 0x51 - 1 + _
    omega
  have first : opOne ≤ opOne + lock.toUInt8 - 1 := by
    rw [UInt8.le_iff_toNat_le, code]
    omega
  have last : opOne + lock.toUInt8 - 1 ≤ opSixteen := by
    rw [UInt8.le_iff_toNat_le, code]
    change 0x51 - 1 + _ ≤ 0x60
    omega
  have notZero : opOne + lock.toUInt8 - 1 ≠ opZero := by
    intro same
    rw [same] at first
    exact absurd first (by decide)
  have value : opOne.toNat - 1 + lock.toNat - opOne.toNat + 1 = lock.toNat := by
    change 0x51 - 1 + lock.toNat - 0x51 + 1 = lock.toNat
    omega
  rw [readLockValue, if_neg notZero, if_pos ⟨first, last⟩, code, value]

/-- A number of one to five bytes is pushed behind its length. -/
theorem readLockValue_number {number : List UInt8} {value : Int64} (nonempty : number ≠ [])
    (short : number.length ≤ maxLockBytes) (spelled : decode? number = some value)
    (rest : List UInt8) :
    readLockValue (UInt8.ofNat number.length :: (number ++ rest)) = some (value, rest) := by
  have most : number.length ≤ 5 := short
  have least : 0 < number.length := List.length_pos_iff.mpr nonempty
  have size : (UInt8.ofNat number.length).toNat = number.length := by
    rw [UInt8.toNat_ofNat']
    omega
  have notZero : UInt8.ofNat number.length ≠ opZero := by
    intro same
    rw [same] at size
    exact absurd size (Nat.ne_of_lt least)
  have notSmall : ¬ (opOne ≤ UInt8.ofNat number.length ∧
      UInt8.ofNat number.length ≤ opSixteen) := by
    rintro ⟨first, -⟩
    rw [UInt8.le_iff_toNat_le, size] at first
    change 0x51 ≤ number.length at first
    omega
  rw [readLockValue, if_neg notZero, if_neg notSmall, size, if_pos short, if_neg (by simp),
    List.take_left, List.drop_left, spelled]
  rfl

/-- **A pushed lock value is read as that value.** -/
theorem readLockValue_pushLock (lock : UInt32) (rest : List UInt8) :
    readLockValue (pushLock lock ++ rest) = some (Int64.ofNat lock.toNat, rest) := by
  rw [pushLock]
  split
  next zero =>
    subst zero
    rfl
  next nonzero =>
    split
    next small => exact readLockValue_small nonzero small rest
    next =>
      have positive : 0 < lock.toNat :=
        Nat.pos_of_ne_zero fun zero => nonzero (UInt32.toNat_inj.mp zero)
      have encoded : Number.encode (Int64.ofNat lock.toNat) =
          withSign false (magnitudeBytes lock.toNat) := by
        have notNegative : ¬ Int64.ofNat lock.toNat < 0 := by
          rw [Int64.lt_iff_toInt_lt, toInt_ofNat_lock]
          exact Int.not_lt.mpr (Int.natCast_nonneg _)
        rw [Number.encode, toInt_ofNat_lock, Int.natAbs_natCast, decide_eq_false notNegative]
      have bytes := magnitudeBytes_ne_nil positive
      have fourBytes : (magnitudeBytes lock.toNat).length ≤ 4 :=
        length_magnitudeBytes_le lock.toNat_lt
      obtain ⟨nonempty, oneMore⟩ := length_withSign_false bytes
      have spelled := decode?_withSign_false bytes (by omega)
      rw [littleEndian_magnitudeBytes] at spelled
      dsimp only
      rw [encoded, List.cons_append]
      exact readLockValue_number nonempty (Nat.le_trans oneMore (Nat.succ_le_succ fourBytes))
        spelled rest

/-- A lock is split off whatever script follows it. -/
theorem splitLock_lockScript_append (lock : UInt32) (rest : List UInt8) :
    splitLock (lockScript lock ++ rest) = (lock, rest) := by
  have read : readLockValue (lockScript lock ++ rest) = some (Int64.ofNat lock.toNat,
      opCheckLockTimeVerify :: opDrop :: rest) := by
    rw [lockScript, List.append_assoc]
    exact readLockValue_pushLock lock _
  rw [splitLock, read]
  dsimp only
  rw [if_pos ⟨rfl, rfl⟩, lockOfValue_ofNat]

/-! ## Destinations -/

theorem between?_eq_some_iff {head tail script middle : List UInt8} :
    between? head tail script = some middle ↔ head ++ middle ++ tail = script := by
  unfold between?
  dsimp only
  constructor
  · intro found
    split at found
    next same =>
      cases found
      exact same
    next => cases found
  · rintro rfl
    have inside : ((head ++ middle ++ tail).drop head.length).take
        ((head ++ middle ++ tail).length - head.length - tail.length) = middle := by
      simp
    rw [inside, if_pos rfl]

theorem hashBetween?_eq_some_iff {head tail script : List UInt8} {hash : Hash160} :
    hashBetween? head tail script = some hash ↔ head ++ hash.bytes ++ tail = script := by
  rw [hashBetween?, Option.bind_eq_some_iff]
  constructor
  · rintro ⟨middle, found, sized⟩
    split at sized
    next =>
      cases sized
      exact between?_eq_some_iff.mp found
    next => cases sized
  · intro same
    exact ⟨hash.bytes, between?_eq_some_iff.mpr same, dif_pos hash.length_bytes⟩

theorem plainDestination_payTo (key : AddressKey) : plainDestination (payTo key) = some key := by
  obtain ⟨hash, kind⟩ := key
  cases kind with
  | pubKeyHash => rw [plainDestination, payTo, hashBetween?_eq_some_iff.mpr rfl]
  | scriptHash =>
      have other : hashBetween? pubKeyHashHead pubKeyHashTail (payTo ⟨hash, .scriptHash⟩) =
          none := by
        refine Option.eq_none_iff_forall_ne_some.mpr fun found spelled => ?_
        have same := hashBetween?_eq_some_iff.mp spelled
        exact absurd (List.cons.inj same).1 (by decide)
      rw [plainDestination, other, payTo, hashBetween?_eq_some_iff.mpr rfl]

/-- A script that pays to a key does not begin with a lock value. -/
theorem splitLock_payTo (key : AddressKey) : splitLock (payTo key) = (0, payTo key) := by
  have noValue : readLockValue (payTo key) = none := by
    obtain ⟨hash, kind⟩ := key
    cases kind <;> rfl
  rw [splitLock, noValue]

/-- **Locks and destinations are read back from the scripts that they are written into**: a lock in
front of any script, and the key of a payment with or without a lock. -/
theorem lock_payTo_roundTrip :
    (∀ lock rest, splitLock (lockScript lock ++ rest) = (lock, rest)) ∧
    (∀ lock key, lockTime (lockScript lock ++ payTo key) = lock ∧
      destination (lockScript lock ++ payTo key) = some key) ∧
    ∀ key, splitLock (payTo key) = (0, payTo key) ∧ lockTime (payTo key) = 0 ∧
      destination (payTo key) = some key := by
  refine ⟨splitLock_lockScript_append, fun lock key => ⟨?_, ?_⟩,
    fun key => ⟨splitLock_payTo key, ?_, ?_⟩⟩
  · rw [lockTime, splitLock_lockScript_append]
  · rw [destination, splitLock_lockScript_append]
    exact plainDestination_payTo key
  · rw [lockTime, splitLock_payTo]
  · rw [destination, splitLock_payTo]
    exact plainDestination_payTo key

end CoinLedger.Script
