import CoinLedger.Proofs.Text.Blank
import CoinLedger.Text.Hex

/-!
# Hexadecimal texts of bytes

Every byte is written as the digits of its two halves (`encode_eq_map`).  A character is a digit in
either letter case, which is one byte of the text, or else its first byte is that of no digit
(`digit_cases`).  So a text is read as the bytes whose digits it is in lower case, and no other text
is read (`decodeExactly_eq_ok_iff`); the texts that are read are those of enough digits
(`exists_encode_iff`).  Written bytes are read back as they are (`decode_encode`), and trimming
takes nothing from them (`trim_encode`).
-/

set_option autoImplicit false

namespace CoinLedger.Text.Hex

/-! ## Digits in either letter case -/

/-- A digit of base sixteen, in either letter case. -/
def IsDigit (character : Char) : Prop :=
  ('0' ≤ character ∧ character ≤ '9') ∨ ('a' ≤ character ∧ character ≤ 'f') ∨
    ('A' ≤ character ∧ character ≤ 'F')

instance (character : Char) : Decidable (IsDigit character) :=
  inferInstanceAs (Decidable (_ ∨ _ ∨ _))

theorem toNat_digit_lt : ∀ nibble < 16, (digit nibble).toNat < 128 := by decide +kernel

theorem digit_injective : ∀ left < 16, ∀ right < 16, digit left = digit right → left = right := by
  decide +kernel

theorem isBlank_digit {nibble : Nat} (below : nibble < 16) : isBlank (digit nibble) = false := by
  have printed : ∀ nibble < 16, isBlank (digit nibble) = false := by decide +kernel
  exact printed nibble below

theorem toLower_digit {nibble : Nat} (below : nibble < 16) :
    (digit nibble).toLower = digit nibble := by
  have lower : ∀ nibble < 16, (digit nibble).toLower = digit nibble := by decide +kernel
  exact lower nibble below

theorem digitValue?_lt {code : UInt8} {value : Nat} (valued : digitValue? code = some value) :
    value < 16 := by
  unfold digitValue? at valued
  grind

theorem digitValue?_beyond {code : Nat} (least : 128 ≤ code) (most : code < 256) :
    digitValue? (UInt8.ofNat code) = none := by
  rw [digitValue?, UInt8.toNat_ofNat_of_lt' most, if_neg (by omega), if_neg (by omega),
    if_neg (by omega)]

section Beyond

variable {character : Char} (beyond : 128 ≤ character.toNat)

include beyond

theorem toLower_beyond : character.toLower = character := by
  have above : ¬ (character.val ≥ 'A'.val ∧ character.val ≤ 'Z'.val) := by
    rintro ⟨_, upper⟩
    exact absurd (Nat.le_trans beyond upper) (by decide)
  exact dif_neg above

/-- Beyond ASCII the first byte of a character is above those of the digits. -/
theorem head?_utf8_beyond :
    ((String.utf8EncodeChar character).map digitValue?).head? = some none := by
  have wide : ¬ character.val.toNat ≤ 127 := Nat.not_le.mpr beyond
  rw [String.utf8EncodeChar, if_neg wide]
  split
  · exact congrArg some (digitValue?_beyond (by omega) (by omega))
  · split
    · exact congrArg some (digitValue?_beyond (by omega) (by omega))
    · exact congrArg some (digitValue?_beyond (by omega) (by omega))

end Beyond

/-- **A character is the digit of a value, in one byte, or its first byte is that of no digit.** -/
theorem digit_cases (character : Char) :
    (∃ nibble < 16, character.toLower = digit nibble ∧
      (String.utf8EncodeChar character).map digitValue? = [some nibble]) ∨
    (∀ nibble < 16, character.toLower ≠ digit nibble) ∧
      ((String.utf8EncodeChar character).map digitValue?).head? = some none := by
  rcases Nat.lt_or_ge character.toNat 128 with ascii | beyond
  · have table : ∀ code < 128,
        (∃ nibble < 16, (Char.ofNat code).toLower = digit nibble ∧
          (String.utf8EncodeChar (Char.ofNat code)).map digitValue? = [some nibble]) ∨
        (∀ nibble < 16, (Char.ofNat code).toLower ≠ digit nibble) ∧
          ((String.utf8EncodeChar (Char.ofNat code)).map digitValue?).head? = some none := by
      decide +kernel
    simpa using table character.toNat ascii
  · refine .inr ⟨fun nibble below same => ?_, head?_utf8_beyond beyond⟩
    have low := toNat_digit_lt nibble below
    rw [← same, toLower_beyond beyond] at low
    omega

/-- The digits in either letter case are those that are a digit in lower case. -/
theorem isDigit_iff {character : Char} :
    IsDigit character ↔ ∃ nibble < 16, character.toLower = digit nibble := by
  rcases Nat.lt_or_ge character.toNat 128 with ascii | beyond
  · have table : ∀ code < 128, IsDigit (Char.ofNat code) ↔
        ∃ nibble < 16, (Char.ofNat code).toLower = digit nibble := by
      decide +kernel
    simpa using table character.toNat ascii
  · constructor
    · rintro (⟨_, last⟩ | ⟨_, last⟩ | ⟨_, last⟩)
      · exact absurd (Nat.le_trans beyond last) (by decide)
      · exact absurd (Nat.le_trans beyond last) (by decide)
      · exact absurd (Nat.le_trans beyond last) (by decide)
    · rintro ⟨nibble, below, same⟩
      have low := toNat_digit_lt nibble below
      rw [← same, toLower_beyond beyond] at low
      omega

/-! ## Halves of bytes -/

/-- The high and the low half of every byte. -/
def nibbles : List UInt8 → List Nat
  | [] => []
  | byte :: rest => byte.toNat / 16 :: byte.toNat % 16 :: nibbles rest

theorem lt_of_mem_nibbles {bytes : List UInt8} : ∀ nibble ∈ nibbles bytes, nibble < 16 := by
  induction bytes with
  | nil => exact nofun
  | cons byte rest ih =>
      have bound : byte.toNat < 256 := byte.toNat_lt
      intro nibble member
      rcases List.mem_cons.mp member with rfl | member
      · omega
      · rcases List.mem_cons.mp member with rfl | member
        · omega
        · exact ih nibble member

theorem length_nibbles (bytes : List UInt8) : (nibbles bytes).length = 2 * bytes.length := by
  induction bytes with
  | nil => rfl
  | cons byte rest ih =>
      rw [nibbles, List.length_cons, List.length_cons, List.length_cons, ih]
      omega

theorem encode_eq_map (bytes : List UInt8) : encode bytes = (nibbles bytes).map digit := by
  induction bytes with
  | nil => rfl
  | cons byte rest ih => rw [encode, nibbles, ih, List.map_cons, List.map_cons]

theorem length_encode (bytes : List UInt8) : (encode bytes).length = 2 * bytes.length := by
  rw [encode_eq_map, List.length_map, length_nibbles]

theorem toLower_encode (bytes : List UInt8) : (encode bytes).map Char.toLower = encode bytes := by
  rw [encode_eq_map, List.map_map]
  exact List.map_congr_left fun nibble member => toLower_digit (lt_of_mem_nibbles nibble member)

/-- Two numbers below sixteen are the halves of the byte that they make. -/
theorem ofNat_halves_iff {high low : Nat} (highest : high < 16) (lowest : low < 16) {byte : UInt8} :
    UInt8.ofNat (16 * high + low) = byte ↔ high = byte.toNat / 16 ∧ low = byte.toNat % 16 := by
  have whole : (UInt8.ofNat (16 * high + low)).toNat = 16 * high + low :=
    UInt8.toNat_ofNat_of_lt' (show 16 * high + low < 256 by omega)
  rw [← UInt8.toNat_inj, whole]
  omega

/-! ## Reading -/

/-- A pair is read when both codes are digits and the rest is read. -/
theorem decodePairs_pair_eq_ok {position : Nat} {high low : UInt8} {rest bytes : List UInt8} :
    decodePairs position (high :: low :: rest) = .ok bytes ↔
      ∃ highValue lowValue others, digitValue? high = some highValue ∧
        digitValue? low = some lowValue ∧ decodePairs (position + 2) rest = .ok others ∧
        UInt8.ofNat (16 * highValue + lowValue) :: others = bytes := by
  rw [decodePairs, digitAt, digitAt]
  cases digitValue? high with
  | none => exact ⟨nofun, nofun⟩
  | some highValue =>
      cases digitValue? low with
      | none => exact ⟨nofun, nofun⟩
      | some lowValue =>
          cases decodePairs (position + 2) rest with
          | error fault => exact ⟨nofun, nofun⟩
          | ok others => simp [bind, Except.bind, pure, Except.pure]

/-- Pairs of digits are read as the bytes whose halves are their values. -/
theorem decodePairs_eq_ok_iff {position : Nat} {codes bytes : List UInt8} :
    decodePairs position codes = .ok bytes ↔
      codes.map digitValue? = (nibbles bytes).map some := by
  induction position, codes using decodePairs.induct generalizing bytes with
  | case1 position => cases bytes <;> simp [decodePairs, nibbles]
  | case2 position code => cases bytes <;> simp [decodePairs, nibbles]
  | case3 position high low rest ih =>
      rw [decodePairs_pair_eq_ok, List.map_cons, List.map_cons]
      cases bytes with
      | nil => simp [nibbles]
      | cons byte tail =>
          simp only [nibbles, List.map_cons, List.cons.injEq, ← ih]
          constructor
          · rintro ⟨highValue, lowValue, _, first, second, later, whole, rfl⟩
            obtain ⟨rfl, rfl⟩ :=
              (ofNat_halves_iff (digitValue?_lt first) (digitValue?_lt second)).mp whole
            exact ⟨first, second, later⟩
          · rintro ⟨first, second, later⟩
            have whole := (ofNat_halves_iff (digitValue?_lt first) (digitValue?_lt second)).mpr
              ⟨rfl, rfl⟩
            exact ⟨_, _, tail, first, second, later, whole, rfl⟩

/-- The bytes of a text are the codes of some digits exactly when the text is these digits in lower
case. -/
theorem map_digitValue?_utf8 {text : List Char} {values : List Nat}
    (below : ∀ value ∈ values, value < 16) :
    (utf8 text).map digitValue? = values.map some ↔ text.map Char.toLower = values.map digit := by
  induction text generalizing values with
  | nil => cases values <;> simp [utf8]
  | cons character rest ih =>
      rw [utf8, List.flatMap_cons, ← utf8, List.map_append, List.map_cons]
      rcases digit_cases character with ⟨nibble, small, lower, value⟩ | ⟨other, none⟩
      · rw [value, lower]
        cases values with
        | nil => simp
        | cons first others =>
            obtain ⟨least, below⟩ := List.forall_mem_cons.mp below
            rw [List.map_cons, List.map_cons, List.singleton_append, List.cons.injEq,
              List.cons.injEq, ih below, Option.some.injEq]
            exact and_congr_left' ⟨congrArg digit, digit_injective _ small _ least⟩
      · refine iff_of_false (fun same => ?_) fun same => ?_
        · have listed : Option.none ∈ values.map some := by
            rw [← same]
            exact List.mem_append_left _ (List.mem_of_head? none)
          simp at listed
        · have listed : character.toLower ∈ values.map digit := by
            rw [← same]
            exact List.mem_cons_self
          obtain ⟨value, member, lower⟩ := List.mem_map.mp listed
          exact other value (below value member) lower.symm

theorem decodePairs_utf8_eq_ok_iff {position : Nat} {text : List Char} {bytes : List UInt8} :
    decodePairs position (utf8 text) = .ok bytes ↔ text.map Char.toLower = encode bytes := by
  rw [decodePairs_eq_ok_iff, map_digitValue?_utf8 lt_of_mem_nibbles, encode_eq_map]

/-- What is read has two digits for each byte. -/
theorem length_utf8_of_toLower {text : List Char} {bytes : List UInt8}
    (lower : text.map Char.toLower = encode bytes) : (utf8 text).length = 2 * bytes.length := by
  have read : decodePairs 0 (utf8 text) = .ok bytes := decodePairs_utf8_eq_ok_iff.mpr lower
  exact (length_decodePairs read).symm

/-- **A text is read as the bytes whose digits it is in lower case**, and no other text is read. -/
theorem decodeExactly_eq_ok_iff {size : Nat} {text : List Char} {bytes : List UInt8} :
    decodeExactly size text = .ok bytes ↔
      bytes.length = size ∧ text.map Char.toLower = encode bytes := by
  rw [decodeExactly]
  constructor
  · intro read
    refine ⟨length_of_decodeExactly read, ?_⟩
    split at read
    · cases read
    · split at read
      · cases read
      · exact decodePairs_utf8_eq_ok_iff.mp read
  · rintro ⟨rfl, lower⟩
    rw [length_utf8_of_toLower lower, if_neg (by omega),
      Nat.mul_div_cancel_left _ (by decide), if_neg (by simp), decodePairs_utf8_eq_ok_iff]
    exact lower

/-- **The texts that are read are those of enough digits**, in either letter case. -/
theorem exists_encode_iff {size : Nat} {text : List Char} :
    (∃ bytes, bytes.length = size ∧ text.map Char.toLower = encode bytes) ↔
      text.length = 2 * size ∧ ∀ character ∈ text, IsDigit character := by
  constructor
  · rintro ⟨bytes, rfl, lower⟩
    constructor
    · rw [← length_encode, ← lower, List.length_map]
    · intro character member
      have listed : character.toLower ∈ encode bytes := lower ▸ List.mem_map_of_mem member
      rw [encode_eq_map] at listed
      obtain ⟨nibble, half, same⟩ := List.mem_map.mp listed
      exact isDigit_iff.mpr ⟨nibble, lt_of_mem_nibbles nibble half, same.symm⟩
  · rintro ⟨length, digits⟩
    -- Two digits make the first byte, and the others are made from what follows them.
    induction size generalizing text with
    | zero =>
        rw [List.length_eq_zero_iff.mp length]
        exact ⟨[], rfl, rfl⟩
    | succ size ih =>
        match text, length with
        | high :: low :: rest, length =>
            obtain ⟨highDigit, digits⟩ := List.forall_mem_cons.mp digits
            obtain ⟨lowDigit, digits⟩ := List.forall_mem_cons.mp digits
            obtain ⟨highValue, highest, first⟩ := isDigit_iff.mp highDigit
            obtain ⟨lowValue, lowest, second⟩ := isDigit_iff.mp lowDigit
            obtain ⟨bytes, rfl, later⟩ := ih (by simpa [Nat.mul_succ] using length) digits
            obtain ⟨highHalf, lowHalf⟩ := (ofNat_halves_iff highest lowest).mp rfl
            refine ⟨UInt8.ofNat (16 * highValue + lowValue) :: bytes, rfl, ?_⟩
            rw [List.map_cons, List.map_cons, encode, first, second, later, ← highHalf, ← lowHalf]

/-! ## Written bytes -/

/-- **Written bytes are read back.** -/
theorem decode_encode (bytes : List UInt8) : decode (encode bytes) = .ok bytes := by
  have lower := toLower_encode bytes
  rw [decode, length_utf8_of_toLower lower, if_neg (by omega), decodePairs_utf8_eq_ok_iff]
  exact lower

theorem trim_encode (bytes : List UInt8) : trim (encode bytes) = encode bytes := by
  have printed : ∀ character ∈ encode bytes, isBlank character = false := by
    intro character member
    rw [encode_eq_map] at member
    obtain ⟨nibble, half, rfl⟩ := List.mem_map.mp member
    exact isBlank_digit (lt_of_mem_nibbles nibble half)
  rw [trim, trimLeft_of_printed printed, trimRight_of_printed printed]

end CoinLedger.Text.Hex
