import CoinLedger.Proofs.Script.Lock
import Mathlib.Algebra.Order.Ring.Int

/-!
# The grammar of scripts

A lock in front of a script is a pushed number and the operations that check and drop it.  The
number is pushed by one operation, or as one to five bytes behind their count (`PushesNumber`).  A
lock is split off exactly where one stands, and its value is the pushed number if a lock can have it
(`splitLock_of_pushes`, `splitLock_of_not_locked`).  What is left names a destination exactly if it
is one of the three standard forms (`plainDestination_eq_some_iff`).
-/

set_option autoImplicit false

namespace CoinLedger.Script

open Number

/-- The bytes that push a number as a lock value. -/
inductive PushesNumber : List UInt8 → Int → Prop
  | zero : PushesNumber [0x00] 0
  | small {number : Nat} (least : 1 ≤ number) (most : number ≤ 16) :
      PushesNumber [UInt8.ofNat (0x50 + number)] number
  | counted {front : List UInt8} (last : UInt8) (short : front.length < 5) :
      PushesNumber (UInt8.ofNat (front.length + 1) :: (front ++ [last])) (signed front last)

/-- A lock that pushes the number stands in front of the rest of the script. -/
def LockedBy (script : List UInt8) (number : Int) (rest : List UInt8) : Prop :=
  ∃ push, PushesNumber push number ∧ script = push ++ [0xb1, 0x75] ++ rest

/-- The scripts that name a destination: payments to the hash of a public key, to the hash of a
script, and to a public key of 33 or 65 bytes. -/
inductive Names : List UInt8 → AddressKey → Prop
  | pubKeyHash (hash : Hash160) :
      Names ([0x76, 0xa9, 0x14] ++ hash.bytes ++ [0x88, 0xac]) ⟨hash, .pubKeyHash⟩
  | scriptHash (hash : Hash160) :
      Names ([0xa9, 0x14] ++ hash.bytes ++ [0x87]) ⟨hash, .scriptHash⟩
  | pubKey {key : List UInt8} (sized : key.length = 33 ∨ key.length = 65) :
      Names ([UInt8.ofNat key.length] ++ key ++ [0xac]) ⟨Hash160.ofData key, .pubKeyHash⟩

variable {script push rest : List UInt8} {number : Int}

/-! ## Pushed numbers -/

/-- A pushed number is read whatever follows it. -/
theorem PushesNumber.readLockValue_append (pushes : PushesNumber push number) (rest : List UInt8) :
    ∃ value, readLockValue (push ++ rest) = some (value, rest) ∧ value.toInt = number := by
  cases pushes with
  | zero => exact ⟨0, rfl, rfl⟩
  | @small small least most =>
      have code : (UInt8.ofNat (0x50 + small)).toNat = 0x50 + small := by
        rw [UInt8.toNat_ofNat']
        omega
      have notZero : UInt8.ofNat (0x50 + small) ≠ opZero := by
        intro same
        rw [same] at code
        change 0 = _ at code
        omega
      have between : opOne ≤ UInt8.ofNat (0x50 + small) ∧
          UInt8.ofNat (0x50 + small) ≤ opSixteen := by
        rw [UInt8.le_iff_toNat_le, UInt8.le_iff_toNat_le, code]
        change 0x51 ≤ _ ∧ _ ≤ 0x60
        omega
      refine ⟨Int64.ofNat small, ?_, Int64.toInt_ofNat_of_lt (by omega)⟩
      rw [List.singleton_append, readLockValue, if_neg notZero, if_pos between, code]
      change some (Int64.ofNat (0x50 + small - 0x51 + 1), rest) = _
      rw [show 0x50 + small - 0x51 + 1 = small by omega]
  | @counted front last short =>
      obtain ⟨value, spelled, same⟩ := decode?_eq_signed last (show front.length < 8 by omega)
      refine ⟨value, ?_, same⟩
      have nonempty := List.append_ne_nil_of_right_ne_nil front (List.cons_ne_nil last [])
      have read := readLockValue_number nonempty
        (by rw [List.length_append, List.length_singleton]; exact short) spelled rest
      rwa [List.length_append, List.length_singleton] at read

/-- The operations between one and sixteen push their number. -/
theorem pushes_of_between {first : UInt8} (between : opOne ≤ first ∧ first ≤ opSixteen) :
    PushesNumber [first] (Int64.ofNat (first.toNat - opOne.toNat + 1)).toInt := by
  have least : 0x51 ≤ first.toNat := between.1
  have most : first.toNat ≤ 0x60 := between.2
  have value : (Int64.ofNat (first.toNat - 0x51 + 1)).toInt = (first.toNat - 0x50 : Nat) := by
    rw [Int64.toInt_ofNat_of_lt (by omega)]
    omega
  have code : first = UInt8.ofNat (0x50 + (first.toNat - 0x50)) := by
    rw [Nat.add_sub_cancel' (by omega), UInt8.ofNat_toNat]
  have pushes := PushesNumber.small (show 1 ≤ first.toNat - 0x50 by omega) (by omega)
  rwa [← code, ← value] at pushes

/-- One to five bytes behind their count push the number that they spell. -/
theorem pushes_of_counted {first : UInt8} {bytes : List UInt8} {value : Int64}
    (notZero : first ≠ opZero)
    (short : first.toNat ≤ maxLockBytes) (sized : bytes.length = first.toNat)
    (spelled : decode? bytes = some value) : PushesNumber (first :: bytes) value.toInt := by
  have nonempty : bytes ≠ [] := by
    rintro rfl
    exact notZero (UInt8.toNat_inj.mp sized.symm)
  obtain ⟨front, last, rfl⟩ : ∃ front last, bytes = front ++ [last] :=
    ⟨_, _, (List.dropLast_concat_getLast nonempty).symm⟩
  rw [List.length_append, List.length_singleton] at sized
  have fits : front.length < 5 := by
    change first.toNat ≤ 5 at short
    omega
  obtain ⟨found, decoded, same⟩ := decode?_eq_signed last (show front.length < 8 by omega)
  cases spelled.symm.trans decoded
  have count : first = UInt8.ofNat (front.length + 1) := by
    rw [sized, UInt8.ofNat_toNat]
  rw [same, count]
  exact .counted last fits

/-- What is read as a lock value is a pushed number. -/
theorem pushes_of_readLockValue {value : Int64} (read : readLockValue script = some (value, rest)) :
    ∃ push, PushesNumber push value.toInt ∧ script = push ++ rest := by
  cases script with
  | nil => cases read
  | cons first others =>
      rw [readLockValue] at read
      split at read
      next zero =>
        cases read
        subst zero
        exact ⟨[0x00], .zero, rfl⟩
      next notZero =>
        split at read
        next between =>
          cases read
          exact ⟨[first], pushes_of_between between, rfl⟩
        next =>
          split at read
          next short =>
            split at read
            next => cases read
            next enough =>
              obtain ⟨found, spelled, pair⟩ := Option.map_eq_some_iff.mp read
              cases pair
              have sized : (others.take first.toNat).length = first.toNat :=
                List.length_take_of_le (Nat.not_lt.mp enough)
              refine ⟨_, pushes_of_counted notZero short sized spelled, ?_⟩
              rw [List.cons_append, List.take_append_drop]
          next => cases read

/-! ## Locks -/

/-- The value that a lock has when it pushes a number. -/
theorem toNat_lockOfValue (value : Int64) :
    ((lockOfValue value).toNat : Int) =
      if 0 ≤ value.toInt ∧ value.toInt < 2 ^ 32 then value.toInt else 0 := by
  rw [lockOfValue]
  by_cases held : 0 ≤ value.toInt ∧ value.toInt < 2 ^ 32
  · have below : value.toInt.toNat < 2 ^ 32 := by omega
    rw [if_pos held, if_pos ⟨held.1, by omega⟩, UInt32.toNat_ofNat_of_lt' below,
      Int.toNat_of_nonneg held.1]
  · rw [if_neg held, if_neg (by omega)]
    rfl

/-- **A lock is split off where one stands**, with its value. -/
theorem splitLock_of_locked (locked : LockedBy script number rest) :
    (splitLock script).2 = rest ∧
      ((splitLock script).1.toNat : Int) = if 0 ≤ number ∧ number < 2 ^ 32 then number else 0 := by
  obtain ⟨push, pushes, rfl⟩ := locked
  obtain ⟨value, read, rfl⟩ := pushes.readLockValue_append ([0xb1, 0x75] ++ rest)
  rw [List.append_assoc, splitLock, read]
  exact ⟨rfl, toNat_lockOfValue value⟩

/-- **Nothing is split off where no lock stands.** -/
theorem splitLock_of_not_locked (free : ¬ ∃ number rest, LockedBy script number rest) :
    splitLock script = (0, script) := by
  rw [splitLock]
  split
  next value check drop rest read =>
    rw [if_neg]
    rintro ⟨rfl, rfl⟩
    obtain ⟨push, pushes, rfl⟩ := pushes_of_readLockValue read
    exact free ⟨_, rest, push, pushes, by rw [List.append_assoc]; rfl⟩
  next => rfl

theorem length_lt_of_locked (locked : LockedBy script number rest) :
    rest.length < script.length := by
  obtain ⟨push, _, rfl⟩ := locked
  rw [List.length_append, List.length_append]
  exact Nat.lt_add_of_pos_left (Nat.add_pos_right _ (by decide))

/-- A proper last part of the script is left exactly where a lock stands. -/
theorem splitLock_proper_iff :
    ((splitLock script).2 <:+ script ∧ (splitLock script).2 ≠ script) ↔
      ∃ number rest, LockedBy script number rest := by
  constructor
  · rintro ⟨-, proper⟩
    by_contra free
    exact proper (congrArg Prod.snd (splitLock_of_not_locked free))
  · rintro ⟨number, rest, locked⟩
    have shorter := length_lt_of_locked locked
    rw [(splitLock_of_locked locked).1]
    obtain ⟨push, _, whole⟩ := locked
    exact ⟨⟨_, whole.symm⟩, fun same => Nat.ne_of_lt shorter (congrArg List.length same)⟩

/-! ## Destinations -/

theorem pubKey?_eq_some_iff {length : Nat} {key : List UInt8} :
    pubKey? length script = some key ↔
      key.length = length ∧ [UInt8.ofNat length] ++ key ++ [opCheckSig] = script := by
  rw [pubKey?, Option.bind_eq_some_iff]
  constructor
  · rintro ⟨middle, found, sized⟩
    split at sized
    next same =>
      cases sized
      exact ⟨same, between?_eq_some_iff.mp found⟩
    next => cases sized
  · rintro ⟨sized, whole⟩
    exact ⟨key, between?_eq_some_iff.mpr whole, if_pos sized⟩

theorem hashBetween?_eq_none {first other : UInt8} (differs : first ≠ other)
    (head tail others : List UInt8) :
    hashBetween? (first :: head) tail (other :: others) = none := by
  refine Option.eq_none_iff_forall_ne_some.mpr fun hash found => ?_
  exact differs (List.cons.inj (hashBetween?_eq_some_iff.mp found)).1

theorem pubKey?_eq_none {length : Nat} {other : UInt8} (differs : UInt8.ofNat length ≠ other)
    (key tail : List UInt8) : pubKey? length ([other] ++ key ++ tail) = none := by
  refine Option.eq_none_iff_forall_ne_some.mpr fun other found => ?_
  exact differs (List.cons.inj (pubKey?_eq_some_iff.mp found).2).1

theorem names_of_plainDestination {key : AddressKey} (found : plainDestination script = some key) :
    Names script key := by
  rw [plainDestination] at found
  split at found
  next hash paid =>
    cases found
    rw [← hashBetween?_eq_some_iff.mp paid]
    exact .pubKeyHash hash
  next =>
    split at found
    next hash paid =>
      cases found
      rw [← hashBetween?_eq_some_iff.mp paid]
      exact .scriptHash hash
    next =>
      split at found
      next data paid =>
        cases found
        cases short : pubKey? 33 script with
        | some key =>
            rw [short] at paid
            cases paid
            obtain ⟨sized, whole⟩ := pubKey?_eq_some_iff.mp short
            rw [← whole, ← sized]
            exact .pubKey (.inl sized)
        | none =>
            rw [short] at paid
            have held : pubKey? 65 script = some data := paid
            obtain ⟨sized, whole⟩ := pubKey?_eq_some_iff.mp held
            rw [← whole, ← sized]
            exact .pubKey (.inr sized)
      next => cases found

theorem plainDestination_of_names {key : AddressKey} (names : Names script key) :
    plainDestination script = some key := by
  cases names with
  | pubKeyHash hash => exact plainDestination_payTo ⟨hash, .pubKeyHash⟩
  | scriptHash hash => exact plainDestination_payTo ⟨hash, .scriptHash⟩
  | @pubKey data sized =>
      have noHash : hashBetween? pubKeyHashHead pubKeyHashTail
          ([UInt8.ofNat data.length] ++ data ++ [0xac]) = none ∧
          hashBetween? scriptHashHead scriptHashTail
            ([UInt8.ofNat data.length] ++ data ++ [0xac]) = none := by
        rcases sized with sized | sized <;> rw [sized]
        · exact ⟨hashBetween?_eq_none (by decide) _ _ _, hashBetween?_eq_none (by decide) _ _ _⟩
        · exact ⟨hashBetween?_eq_none (by decide) _ _ _, hashBetween?_eq_none (by decide) _ _ _⟩
      have found : (pubKey? 33 ([UInt8.ofNat data.length] ++ data ++ [0xac]) <|>
          pubKey? 65 ([UInt8.ofNat data.length] ++ data ++ [0xac])) = some data := by
        rcases sized with sized | sized
        · have short : pubKey? 33 ([UInt8.ofNat 33] ++ data ++ [0xac]) = some data :=
            pubKey?_eq_some_iff.mpr ⟨sized, rfl⟩
          rw [sized, short]
          rfl
        · have long : pubKey? 65 ([UInt8.ofNat 65] ++ data ++ [0xac]) = some data :=
            pubKey?_eq_some_iff.mpr ⟨sized, rfl⟩
          have notShort : pubKey? 33 ([UInt8.ofNat 65] ++ data ++ [0xac]) = none :=
            pubKey?_eq_none (by decide) data [0xac]
          rw [sized, notShort, long]
          rfl
      rw [plainDestination, noHash.1, noHash.2, found]

/-- **A script without a lock in front names a destination exactly if it has a standard form.** -/
theorem plainDestination_eq_some_iff {key : AddressKey} :
    plainDestination script = some key ↔ Names script key :=
  ⟨names_of_plainDestination, plainDestination_of_names⟩

end CoinLedger.Script
