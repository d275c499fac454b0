import CoinLedger.Script.Number
import Mathlib.Algebra.Order.Group.Nat

/-!
# Script numbers

The bytes of a magnitude are read as the magnitude (`littleEndian_magnitudeBytes`).  A number
without a sign is written with these bytes, and a zero behind them when their top bit is taken, so
it is read back as it was (`decode?_withSign_false`).  Any one to eight bytes are read as the number
that they spell with the sign in their top bit (`decode?_eq_signed`).
-/

set_option autoImplicit false

namespace CoinLedger.Script.Number

/-! ## Magnitudes -/

theorem littleEndian_magnitudeBytes (value : Nat) :
    littleEndian (magnitudeBytes value) = value := by
  induction value using magnitudeBytes.induct with
  | case1 value positive ih =>
      rw [magnitudeBytes, if_pos positive, littleEndian, ih, UInt8.toNat_ofNat', Nat.mod_mod]
      exact Nat.mod_add_div value 256
  | case2 value zero =>
      rw [magnitudeBytes, if_neg zero, littleEndian]
      omega

theorem magnitudeBytes_ne_nil {value : Nat} (positive : 0 < value) : magnitudeBytes value ≠ [] := by
  rw [magnitudeBytes, if_pos positive]
  exact List.cons_ne_nil _ _

/-- A magnitude below a power of 256 has no more bytes than the exponent. -/
theorem length_magnitudeBytes_le {value count : Nat} (small : value < 256 ^ count) :
    (magnitudeBytes value).length ≤ count := by
  induction count generalizing value with
  | zero =>
      have zero : ¬ 0 < value := by simpa using small
      rw [magnitudeBytes, if_neg zero]
      exact Nat.le_refl 0
  | succ count ih =>
      rw [magnitudeBytes]
      split
      · have rest : value / 256 < 256 ^ count := Nat.div_lt_of_lt_mul (by rwa [← Nat.pow_succ'])
        exact Nat.succ_le_succ (ih rest)
      · exact Nat.zero_le _

theorem littleEndian_append_zero (bytes : List UInt8) :
    littleEndian (bytes ++ [0]) = littleEndian bytes := by
  induction bytes with
  | nil => rfl
  | cons byte rest ih => rw [List.cons_append, littleEndian, littleEndian, ih]

/-! ## Signs -/

/-- Only the last byte has to do with the sign. -/
theorem withSign_concat (negative : Bool) (front : List UInt8) (last : UInt8) :
    withSign negative (front ++ [last]) = front ++ withSign negative [last] := by
  induction front with
  | nil => rfl
  | cons byte rest ih =>
      rw [List.cons_append, List.cons_append, ← ih]
      cases rest <;> rfl

/-- Without a sign the bytes stay as they are, unless their top bit is taken. -/
theorem withSign_false_cases (front : List UInt8) (last : UInt8) :
    (last < 0x80 ∧ withSign false (front ++ [last]) = front ++ [last]) ∨
      withSign false (front ++ [last]) = front ++ [last] ++ [0] := by
  rw [withSign_concat, withSign]
  split
  next => exact .inr (List.append_assoc front [last] [0]).symm
  next free => exact .inl ⟨UInt8.not_le.mp free, rfl⟩

/-- The sign takes one byte at most. -/
theorem length_withSign_false {bytes : List UInt8} (nonempty : bytes ≠ []) :
    withSign false bytes ≠ [] ∧ (withSign false bytes).length ≤ bytes.length + 1 := by
  obtain ⟨front, last, rfl⟩ : ∃ front last, bytes = front ++ [last] :=
    ⟨_, _, (List.dropLast_concat_getLast nonempty).symm⟩
  rcases withSign_false_cases front last with ⟨_, same⟩ | longer
  · rw [same]
    exact ⟨nonempty, Nat.le_succ _⟩
  · rw [longer]
    exact ⟨by simp, by simp⟩

/-! ## Reading -/

theorem decode?_concat {front : List UInt8} {last : UInt8} (positive : last < 0x80)
    (short : front.length < 8) :
    decode? (front ++ [last]) = some (Int64.ofNat (littleEndian (front ++ [last]))) := by
  have ends : (front ++ [last]).getLast? = some last := by simp
  have fits : ¬ 8 < (front ++ [last]).length := by
    rw [List.length_append, List.length_singleton]
    omega
  rw [decode?, ends]
  dsimp only
  rw [if_neg fits, if_neg (UInt8.not_le.mpr positive)]

/-- **A number without a sign is read back from its bytes.** -/
theorem decode?_withSign_false {bytes : List UInt8} (nonempty : bytes ≠ [])
    (short : bytes.length < 8) :
    decode? (withSign false bytes) = some (Int64.ofNat (littleEndian bytes)) := by
  obtain ⟨front, last, rfl⟩ : ∃ front last, bytes = front ++ [last] :=
    ⟨_, _, (List.dropLast_concat_getLast nonempty).symm⟩
  rw [List.length_append, List.length_singleton] at short
  rcases withSign_false_cases front last with ⟨free, same⟩ | longer
  · rw [same, decode?_concat free (by omega)]
  · rw [longer, decode?_concat (by decide) (by simpa using short), littleEndian_append_zero]

/-! ## Signed values -/

/-- The number whose magnitude takes the given bytes and the lower seven bits of one more, the top
bit of which is the sign. -/
def signed (front : List UInt8) (last : UInt8) : Int :=
  let magnitude := littleEndian front + 256 ^ front.length * (last.toNat % 128)
  if last < 0x80 then magnitude else -magnitude

theorem littleEndian_concat (front : List UInt8) (last : UInt8) :
    littleEndian (front ++ [last]) = littleEndian front + 256 ^ front.length * last.toNat := by
  induction front with
  | nil => simp [littleEndian]
  | cons byte rest ih =>
      rw [List.cons_append, littleEndian, littleEndian, ih, List.length_cons, Nat.pow_succ',
        Nat.mul_add, Nat.mul_assoc, Nat.add_assoc]

theorem littleEndian_lt (bytes : List UInt8) : littleEndian bytes < 256 ^ bytes.length := by
  induction bytes with
  | nil => exact Nat.one_pos
  | cons byte rest ih =>
      have below := byte.toNat_lt
      rw [littleEndian, List.length_cons, Nat.pow_succ']
      omega

/-- The magnitude takes all bits of the bytes but the sign. -/
theorem magnitude_lt_power (front : List UInt8) (last : UInt8) :
    littleEndian front + 256 ^ front.length * (last.toNat % 128) < 128 * 256 ^ front.length := by
  have rest := littleEndian_lt front
  have top : last.toNat % 128 ≤ 127 := Nat.le_of_lt_succ (Nat.mod_lt _ (by decide))
  calc littleEndian front + 256 ^ front.length * (last.toNat % 128)
      < 256 ^ front.length + 256 ^ front.length * 127 :=
        Nat.add_lt_add_of_lt_of_le rest (Nat.mul_le_mul_left _ top)
    _ = 128 * 256 ^ front.length := by omega

/-- The magnitude of up to eight bytes leaves the sign bit of 64 free. -/
theorem magnitude_lt {front : List UInt8} (last : UInt8) (short : front.length < 8) :
    littleEndian front + 256 ^ front.length * (last.toNat % 128) < 2 ^ 63 := by
  calc littleEndian front + 256 ^ front.length * (last.toNat % 128)
      < 128 * 256 ^ front.length := magnitude_lt_power front last
    _ ≤ 128 * 256 ^ 7 :=
        Nat.mul_le_mul_left _ (Nat.pow_le_pow_right (by decide) (Nat.le_of_lt_succ short))
    _ = 2 ^ 63 := by decide

/-- When the sign bit is set, the bytes are its value above the magnitude. -/
theorem littleEndian_of_negative (front : List UInt8) {last : UInt8} (negative : 0x80 ≤ last) :
    littleEndian (front ++ [last]) =
      littleEndian front + 256 ^ front.length * (last.toNat % 128) + 128 * 256 ^ front.length := by
  have top : last.toNat = last.toNat % 128 + 128 := by
    have least : 128 ≤ last.toNat := negative
    have most := last.toNat_lt
    omega
  rw [littleEndian_concat, Nat.add_assoc, Nat.mul_comm 128, ← Nat.mul_add, ← top]

/-- **One to eight bytes are read as the number that they spell.** -/
theorem decode?_eq_signed {front : List UInt8} (last : UInt8) (short : front.length < 8) :
    ∃ value, decode? (front ++ [last]) = some value ∧ value.toInt = signed front last := by
  have small := magnitude_lt last short
  have ends : (front ++ [last]).getLast? = some last := by simp
  have fits : ¬ 8 < (front ++ [last]).length := by
    rw [List.length_append, List.length_singleton]
    omega
  by_cases negative : 0x80 ≤ last
  · have signBit : 0x80 <<< (8 * ((front ++ [last]).length - 1)) = 128 * 256 ^ front.length := by
      rw [List.length_append, List.length_singleton, Nat.add_sub_cancel, Nat.shiftLeft_eq,
        Nat.pow_mul]
    refine ⟨Int64.ofInt (-(littleEndian front + 256 ^ front.length * (last.toNat % 128) : Nat)),
      ?_, ?_⟩
    · rw [decode?, ends]
      dsimp only
      rw [if_neg fits, if_pos negative, signBit, littleEndian_of_negative front negative,
        Nat.add_sub_cancel]
    · rw [Int64.toInt_ofInt_of_le (by omega) (by omega), signed, if_neg (UInt8.not_lt.mpr negative)]
  · have positive := UInt8.not_le.mp negative
    have top : last.toNat = last.toNat % 128 := by
      have most : last.toNat < 128 := positive
      omega
    rw [← top] at small
    refine ⟨_, decode?_concat positive short, ?_⟩
    rw [Int64.toInt_ofNat_of_lt (by rw [littleEndian_concat]; omega), littleEndian_concat, signed,
      if_pos positive, ← top]

end CoinLedger.Script.Number
