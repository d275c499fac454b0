import CoinLedger.Proofs.Script.Number

/-!
# Script numbers written and read back

Reading needs no more than signed words of 64 bits: shifting the bytes to their places, joining them
and masking out the sign gives the number that the bytes spell (`wordDecode?_eq`), and one to eight
bytes spell each a number of that width.

A number is written by bytes that spell it and that a shorter row has no room for
(`exists_encode_eq`).  As many bytes spell another number, unless they are the same
(`eq_of_signed_eq`).  So every number other than zero and the least one is read back from the bytes
it is written by, which are the one shortest row that spells it (`decode?_encode_shortest`).
-/

set_option autoImplicit false

namespace CoinLedger.Script.Number

/-! ## Reading in words -/

/-- A word joined with bytes, each of them shifted to its place. -/
def joinFrom (place : Nat) (word : Int64) : List UInt8 → Int64
  | [] => word
  | byte :: rest =>
    joinFrom (place + 1) (word ||| Int64.ofNat byte.toNat <<< Int64.ofNat (8 * place)) rest

/-- The sign bit of a row of bytes, at its place in a word. -/
def signBit (length : Nat) : Int64 :=
  Int64.ofNat 0x80 <<< Int64.ofNat (8 * (length - 1))

/-- The number spelled by one to eight bytes, joined in a signed word of 64 bits.  When the sign bit
is set it is masked out, and what is left is negated. -/
def wordDecode? (bytes : List UInt8) : Option Int64 :=
  match bytes.getLast? with
  | none => none
  | some last =>
    if 8 < bytes.length then none
    else
      let word := joinFrom 0 0 bytes
      if last &&& 0x80 ≠ 0 then some (-(word &&& ~~~signBit bytes.length)) else some word

theorem pow_eq_two_pow (place : Nat) : 256 ^ place = 2 ^ (8 * place) :=
  (Nat.pow_mul 2 8 place).symm

/-- A byte that is shifted to one of eight places stays in the word. -/
theorem toNat_shifted {value place : Nat} (small : value < 256) (inside : place < 8) :
    (Int64.ofNat value <<< Int64.ofNat (8 * place)).toBitVec.toNat = 256 ^ place * value := by
  have amount : ∀ place < 8,
      ((Int64.ofNat (8 * place)).toBitVec.smod 64).toNat = 8 * place := by decide +kernel
  have whole : (Int64.ofNat value).toBitVec.toNat = value := Nat.mod_eq_of_lt (by omega)
  have room : 256 ^ place * value < 2 ^ 64 := by
    calc 256 ^ place * value
        < 256 ^ place * 256 := Nat.mul_lt_mul_of_pos_left small (Nat.pow_pos (by decide))
      _ = 256 ^ (place + 1) := (Nat.pow_succ ..).symm
      _ ≤ 256 ^ 8 := Nat.pow_le_pow_right (by decide) inside
      _ = 2 ^ 64 := by decide
  rw [Int64.toBitVec_shiftLeft, BitVec.shiftLeft_eq', amount place inside, BitVec.toNat_shiftLeft,
    whole, Nat.shiftLeft_eq, ← pow_eq_two_pow, Nat.mul_comm, Nat.mod_eq_of_lt room]

/-- Joined bytes stand above the word that they are joined with. -/
theorem toNat_joinFrom {bytes : List UInt8} {place : Nat} {word : Int64}
    (room : place + bytes.length ≤ 8) (below : word.toBitVec.toNat < 256 ^ place) :
    (joinFrom place word bytes).toBitVec.toNat =
      word.toBitVec.toNat + 256 ^ place * littleEndian bytes := by
  induction bytes generalizing place word with
  | nil => rfl
  | cons byte rest ih =>
      rw [List.length_cons] at room
      have small : byte.toNat < 256 := byte.toNat_lt
      have joined : (word ||| Int64.ofNat byte.toNat <<< Int64.ofNat (8 * place)).toBitVec.toNat =
          word.toBitVec.toNat + 256 ^ place * byte.toNat := by
        rw [Int64.toBitVec_or, BitVec.toNat_or, toNat_shifted small (by omega), pow_eq_two_pow,
          Nat.or_comm, ← Nat.two_pow_add_eq_or_of_lt (pow_eq_two_pow place ▸ below), Nat.add_comm]
      have higher : word.toBitVec.toNat + 256 ^ place * byte.toNat < 256 ^ (place + 1) := by
        calc word.toBitVec.toNat + 256 ^ place * byte.toNat
            < 256 ^ place + 256 ^ place * 255 :=
              Nat.add_lt_add_of_lt_of_le below (Nat.mul_le_mul_left _ (Nat.le_of_lt_succ small))
          _ = 256 ^ (place + 1) := by omega
      rw [joinFrom, ih (by omega) (joined ▸ higher), joined, littleEndian, Nat.pow_succ,
        Nat.mul_add, Nat.mul_assoc, Nat.add_assoc]

/-- Masking out the highest bit of a word takes its value off. -/
theorem toNat_and_not {word bit : BitVec 64} {low place : Nat} (lower : low < 2 ^ place)
    (inside : place < 64) (whole : word.toNat = low + 2 ^ place) (alone : bit.toNat = 2 ^ place) :
    (word &&& ~~~bit).toNat = low := by
  have joined : low + 2 ^ place = 2 ^ place ||| low := by
    have sum := Nat.two_pow_add_eq_or_of_lt lower 1
    rw [Nat.mul_one] at sum
    rw [← sum, Nat.add_comm]
  have room : 2 ^ place < 2 ^ 64 := Nat.pow_lt_pow_right (by decide) inside
  rw [BitVec.toNat_and, BitVec.toNat_not, whole, alone, joined]
  refine Nat.eq_of_testBit_eq fun position => ?_
  rw [Nat.testBit_and, Nat.testBit_or, Nat.sub_sub, Nat.add_comm 1,
    Nat.testBit_two_pow_sub_succ room, Nat.testBit_two_pow]
  by_cases own : place = position
  · subst own
    simp [Nat.testBit_lt_two_pow lower]
  · by_cases within : position < 64
    · simp [own, within]
    · have beyond : low < 2 ^ position :=
        Nat.lt_of_lt_of_le lower (Nat.pow_le_pow_right (by decide) (by omega))
      simp [own, Nat.testBit_lt_two_pow beyond]

theorem and_signBit_iff (byte : UInt8) : byte &&& 0x80 ≠ 0 ↔ 0x80 ≤ byte := by
  have table : ∀ value < 256, UInt8.ofNat value &&& 0x80 ≠ 0 ↔ 0x80 ≤ UInt8.ofNat value := by
    decide +kernel
  simpa using table byte.toNat byte.toNat_lt

theorem eq_ofNat_of_toNat {word : Int64} {value : Nat} (whole : word.toBitVec.toNat = value) :
    word = Int64.ofNat value := by
  subst whole
  have same : word.toBitVec.toNat % 2 ^ 64 = word.toBitVec.toNat := Nat.mod_eq_of_lt (BitVec.isLt _)
  exact Int64.toBitVec_inj.mp (BitVec.eq_of_toNat_eq same.symm)

/-- **Words of 64 bits are wide enough to read in.** -/
theorem wordDecode?_eq (bytes : List UInt8) : wordDecode? bytes = decode? bytes := by
  rw [wordDecode?, decode?]
  cases ends : bytes.getLast? with
  | none => rfl
  | some last =>
      dsimp only
      by_cases long : 8 < bytes.length
      · rw [if_pos long, if_pos long]
      · obtain ⟨front, rfl⟩ := List.getLast?_eq_some_iff.mp ends
        have short : front.length < 8 := by
          rw [List.length_append, List.length_singleton] at long
          omega
        have word : (joinFrom 0 0 (front ++ [last])).toBitVec.toNat =
            littleEndian (front ++ [last]) := by
          rw [toNat_joinFrom (by omega) (by decide)]
          simp
        rw [if_neg long, if_neg long, List.length_append, List.length_singleton, Nat.add_sub_cancel]
        by_cases negative : 0x80 ≤ last
        · have power : 128 * 256 ^ front.length = 2 ^ (8 * front.length + 7) := by
            rw [pow_eq_two_pow, Nat.pow_add, Nat.mul_comm]
          have bit : (signBit (front.length + 1)).toBitVec.toNat = 2 ^ (8 * front.length + 7) := by
            rw [signBit, Nat.add_sub_cancel, toNat_shifted (by decide) short, Nat.mul_comm, power]
          have whole := littleEndian_of_negative front negative
          have low := magnitude_lt_power front last
          rw [power] at whole low
          have masked := toNat_and_not low (by omega) (word.trans whole) bit
          rw [← Int64.toBitVec_not, ← Int64.toBitVec_and] at masked
          rw [if_pos ((and_signBit_iff last).mpr negative), if_pos negative,
            eq_ofNat_of_toNat masked, littleEndian_of_negative front negative, Nat.shiftLeft_eq,
            ← pow_eq_two_pow, Nat.add_sub_cancel, Int64.ofInt_neg, Int64.ofInt_eq_ofNat]
        · rw [if_neg (mt (and_signBit_iff last).mp negative), if_neg negative,
            eq_ofNat_of_toNat word]

/-! ## What bytes spell -/

/-- What is read is spelled by one to eight bytes, and nothing else is read. -/
theorem decode?_eq_some_iff {bytes : List UInt8} {value : Int64} :
    decode? bytes = some value ↔ ∃ front last, bytes = front ++ [last] ∧ front.length < 8 ∧
      signed front last = value.toInt := by
  constructor
  · intro read
    cases ends : bytes.getLast? with
    | none =>
        rw [decode?, ends] at read
        cases read
    | some last =>
        obtain ⟨front, rfl⟩ := List.getLast?_eq_some_iff.mp ends
        have short : front.length < 8 := by
          by_contra long
          have beyond : 8 < (front ++ [last]).length := by
            rw [List.length_append, List.length_singleton]
            omega
          rw [decode?, ends] at read
          dsimp only at read
          rw [if_pos beyond] at read
          cases read
        obtain ⟨found, decoded, spelled⟩ := decode?_eq_signed last short
        cases read.symm.trans decoded
        exact ⟨front, last, rfl, short, spelled.symm⟩
  · rintro ⟨front, last, rfl, short, spelled⟩
    obtain ⟨found, decoded, same⟩ := decode?_eq_signed last short
    rw [decoded, Int64.toInt_inj.mp (same.trans spelled)]

theorem natAbs_signed (front : List UInt8) (last : UInt8) :
    (signed front last).natAbs =
      littleEndian front + 256 ^ front.length * (last.toNat % 128) := by
  rw [signed]
  split
  · exact Int.natAbs_natCast _
  · rw [Int.natAbs_neg]
    exact Int.natAbs_natCast _

/-- A row of bytes has no room for greater magnitudes. -/
theorem natAbs_signed_lt (front : List UInt8) (last : UInt8) :
    (signed front last).natAbs < 128 * 256 ^ front.length := by
  rw [natAbs_signed]
  exact magnitude_lt_power front last

theorem eq_of_littleEndian_eq {left right : List UInt8} (length : left.length = right.length)
    (same : littleEndian left = littleEndian right) : left = right := by
  induction left generalizing right with
  | nil => exact (List.length_eq_zero_iff.mp length.symm).symm
  | cons byte rest ih =>
      match right, length with
      | other :: others, length =>
          have bound := byte.toNat_lt
          have otherBound := other.toNat_lt
          rw [littleEndian, littleEndian] at same
          have bytes : byte = other := UInt8.toNat_inj.mp (by omega)
          have tails : rest = others := ih (Nat.succ.inj length) (by omega)
          rw [bytes, tails]

/-- A number other than zero is positive exactly when the sign bit is free. -/
theorem signed_pos_iff {front : List UInt8} {last : UInt8} (nonzero : signed front last ≠ 0) :
    0 < signed front last ↔ last < 0x80 := by
  rw [signed] at nonzero ⊢
  by_cases free : last < 0x80
  · rw [if_pos free] at nonzero ⊢
    exact iff_of_true (by omega) free
  · rw [if_neg free]
    exact iff_of_false (by omega) free

/-- **As many bytes spell another number**, unless they are the same or spell zero. -/
theorem eq_of_signed_eq {front others : List UInt8} {last other : UInt8}
    (length : front.length = others.length) (nonzero : signed front last ≠ 0)
    (same : signed front last = signed others other) : front = others ∧ last = other := by
  have magnitudes := congrArg Int.natAbs same
  rw [natAbs_signed, natAbs_signed, length] at magnitudes
  have below := littleEndian_lt front
  have otherBelow := littleEndian_lt others
  rw [length] at below
  -- The lower bytes are what is left of the magnitude at the place of the last one.
  have low : littleEndian front = littleEndian others := by
    have rests := congrArg (· % 256 ^ others.length) magnitudes
    simpa [Nat.mod_eq_of_lt below, Nat.mod_eq_of_lt otherBelow] using rests
  have high : last.toNat % 128 = other.toNat % 128 := by
    rw [low] at magnitudes
    exact Nat.eq_of_mul_eq_mul_left (Nat.pow_pos (by decide)) (Nat.add_left_cancel magnitudes)
  have signs : last.toNat < 128 ↔ other.toNat < 128 :=
    (signed_pos_iff nonzero).symm.trans (same ▸ signed_pos_iff (same ▸ nonzero))
  have bound := last.toNat_lt
  have otherBound := other.toNat_lt
  exact ⟨eq_of_littleEndian_eq length low, UInt8.toNat_inj.mp (by omega)⟩

/-! ## Written numbers -/

/-- The bytes of a magnitude end with one that is not zero. -/
theorem exists_magnitudeBytes_eq {value : Nat} (positive : 0 < value) :
    ∃ front top, magnitudeBytes value = front ++ [top] ∧ 0 < top.toNat := by
  induction value using magnitudeBytes.induct with
  | case1 value _ ih =>
      rw [magnitudeBytes, if_pos positive]
      by_cases more : 0 < value / 256
      · obtain ⟨front, top, rest, least⟩ := ih more
        exact ⟨UInt8.ofNat (value % 256) :: front, top, by rw [rest]; rfl, least⟩
      · rw [magnitudeBytes, if_neg more]
        refine ⟨[], UInt8.ofNat (value % 256), rfl, ?_⟩
        rw [UInt8.toNat_ofNat', Nat.mod_mod]
        omega
  | case2 value zero => exact absurd positive zero

/-- A magnitude with a sign. -/
def withSignOf (negative : Bool) (magnitude : Nat) : Int :=
  if negative then -magnitude else magnitude

theorem toNat_or_signBit {byte : UInt8} (free : byte < 0x80) :
    (byte ||| 0x80).toNat = byte.toNat + 128 := by
  have table : ∀ value < 128, (UInt8.ofNat value ||| 0x80).toNat = value + 128 := by decide +kernel
  simpa using table byte.toNat free

/-- A sign goes into the last byte when its top bit is free. -/
theorem signed_of_free (negative : Bool) (front : List UInt8) {top : UInt8} (free : top < 0x80) :
    signed front (if negative then top ||| 0x80 else top) =
      withSignOf negative (littleEndian (front ++ [top])) := by
  have small : top.toNat < 128 := free
  rw [littleEndian_concat]
  cases negative with
  | false =>
      rw [if_neg Bool.false_ne_true, signed, if_pos free, Nat.mod_eq_of_lt small]
      rfl
  | true =>
      have taken : ¬ (top ||| 0x80) < 0x80 := by
        rw [UInt8.lt_iff_toNat_lt, toNat_or_signBit free]
        exact Nat.not_lt.mpr (Nat.le_add_left _ _)
      rw [if_pos rfl, signed, if_neg taken, toNat_or_signBit free, Nat.add_mod_right,
        Nat.mod_eq_of_lt small]
      rfl

/-- A sign of its own behind the bytes is their sign. -/
theorem signed_of_taken (negative : Bool) (bytes : List UInt8) :
    signed bytes (if negative then 0x80 else 0x00) = withSignOf negative (littleEndian bytes) := by
  cases negative with
  | false =>
      rw [if_neg Bool.false_ne_true, signed, if_pos (by decide)]
      rfl
  | true =>
      rw [if_pos rfl, signed, if_neg (by decide)]
      rfl

/-- Bytes with a sign spell what they spelled, with the sign, and no shorter row has room for it. -/
theorem exists_withSign_eq (negative : Bool) (front : List UInt8) {top : UInt8}
    (least : 0 < top.toNat) :
    ∃ lower last, withSign negative (front ++ [top]) = lower ++ [last] ∧
      signed lower last = withSignOf negative (littleEndian (front ++ [top])) ∧
      (lower ≠ [] → 128 * 256 ^ (lower.length - 1) ≤ littleEndian (front ++ [top])) := by
  rw [withSign_concat, withSign]
  split
  next taken =>
    refine ⟨front ++ [top], if negative then 0x80 else 0, by simp, signed_of_taken negative _, ?_⟩
    intro _
    have most : 128 ≤ top.toNat := taken
    rw [List.length_append, List.length_singleton, Nat.add_sub_cancel, littleEndian_concat,
      Nat.mul_comm]
    exact (Nat.mul_le_mul_left _ most).trans (Nat.le_add_left _ _)
  next free =>
    refine ⟨front, if negative then top ||| 0x80 else top, rfl,
      signed_of_free negative front (UInt8.not_le.mp free), fun nonempty => ?_⟩
    obtain ⟨length, some⟩ : ∃ length, front.length = length + 1 :=
      Nat.exists_eq_succ_of_ne_zero (mt List.length_eq_zero_iff.mp nonempty)
    calc 128 * 256 ^ (front.length - 1)
        ≤ 256 * 256 ^ length := by
            rw [some]
            exact Nat.mul_le_mul_right _ (by decide)
      _ = 256 ^ front.length := by rw [some, Nat.pow_succ']
      _ ≤ 256 ^ front.length * top.toNat := Nat.le_mul_of_pos_right _ least
      _ ≤ littleEndian (front ++ [top]) := by
            rw [littleEndian_concat]
            exact Nat.le_add_left _ _

/-- **A number is written by bytes that spell it**, and no shorter row has room for it. -/
theorem exists_encode_eq {value : Int64} (nonzero : value ≠ 0) :
    ∃ front last, encode value = front ++ [last] ∧ signed front last = value.toInt ∧
      (front ≠ [] → 128 * 256 ^ (front.length - 1) ≤ value.toInt.natAbs) := by
  have positive : 0 < value.toInt.natAbs := by
    refine Int.natAbs_pos.mpr fun zero => nonzero ?_
    exact Int64.toInt_inj.mp zero
  obtain ⟨front, top, bytes, least⟩ := exists_magnitudeBytes_eq positive
  have whole : littleEndian (front ++ [top]) = value.toInt.natAbs := by
    rw [← bytes, littleEndian_magnitudeBytes]
  obtain ⟨lower, last, written, spelled, room⟩ := exists_withSign_eq (value < 0) front least
  rw [whole] at spelled room
  refine ⟨lower, last, ?_, spelled.trans ?_, room⟩
  · rw [encode, bytes, written]
  · have negative : value < 0 ↔ value.toInt < 0 := Int64.lt_iff_toInt_lt
    rw [withSignOf]
    by_cases below : value < 0
    · have lower := negative.mp below
      rw [if_pos (decide_eq_true below)]
      omega
    · have upper := mt negative.mpr below
      rw [if_neg (by simpa using below)]
      omega

/-! ## The shortest row -/

/-- Every word other than the least one has a magnitude that eight bytes have room for. -/
theorem natAbs_lt_iff {value : Int64} :
    value.toInt.natAbs < 128 * 256 ^ 7 ↔ value ≠ Int64.minValue := by
  have least : Int64.minValue.toInt = -(128 * 256 ^ 7) := by decide
  have lower := value.le_toInt
  have upper := value.toInt_lt
  rw [← Int64.toInt_inj.ne, least]
  omega

theorem decode?_encode {value : Int64} (nonzero : value ≠ 0) (regular : value ≠ Int64.minValue) :
    decode? (encode value) = some value := by
  obtain ⟨front, last, written, spelled, room⟩ := exists_encode_eq nonzero
  refine decode?_eq_some_iff.mpr ⟨front, last, written, ?_, spelled⟩
  by_contra long
  have nonempty : front ≠ [] := by
    rintro rfl
    exact long (by decide)
  have most : 256 ^ (front.length - 1) < 256 ^ 7 :=
    Nat.lt_of_mul_lt_mul_left ((room nonempty).trans_lt (natAbs_lt_iff.mpr regular))
  have few := (Nat.pow_lt_pow_iff_right (by decide)).mp most
  omega

/-- Zero has no bytes, and the least number needs nine. -/
theorem ne_of_decode?_encode {value : Int64} (read : decode? (encode value) = some value) :
    value ≠ 0 ∧ value ≠ Int64.minValue := by
  constructor
  · rintro rfl
    have none : encode 0 = [] := by decide +kernel
    rw [none] at read
    cases read
  · obtain ⟨front, last, _, short, spelled⟩ := decode?_eq_some_iff.mp read
    rw [← natAbs_lt_iff, ← spelled]
    calc (signed front last).natAbs < 128 * 256 ^ front.length := natAbs_signed_lt front last
      _ ≤ 128 * 256 ^ 7 :=
          Nat.mul_le_mul_left _ (Nat.pow_le_pow_right (by decide) (Nat.le_of_lt_succ short))

/-- **No other row that is read as a number is as short as the one that it is written by.** -/
theorem eq_encode_or_longer {value : Int64} (nonzero : value ≠ 0) {bytes : List UInt8}
    (read : decode? bytes = some value) :
    bytes = encode value ∨ (encode value).length < bytes.length := by
  obtain ⟨front, last, written, spelled, room⟩ := exists_encode_eq nonzero
  obtain ⟨others, other, rfl, _, same⟩ := decode?_eq_some_iff.mp read
  rw [written]
  rcases Nat.lt_trichotomy others.length front.length with shorter | equal | longer
  · have nonempty : front ≠ [] := List.ne_nil_of_length_pos (Nat.zero_lt_of_lt shorter)
    have bound := natAbs_signed_lt others other
    rw [same] at bound
    have wide : 256 ^ others.length ≤ 256 ^ (front.length - 1) :=
      Nat.pow_le_pow_right (by decide) (Nat.le_sub_one_of_lt shorter)
    have least := room nonempty
    omega
  · have nonzero : signed others other ≠ 0 := by
      rw [same]
      exact fun zero => nonzero (Int64.toInt_inj.mp zero)
    obtain ⟨rfl, rfl⟩ := eq_of_signed_eq equal nonzero (same.trans spelled.symm)
    exact .inl rfl
  · refine .inr ?_
    rw [List.length_append, List.length_append, List.length_singleton, List.length_singleton]
    omega

/-- **Script numbers are read back from the shortest row of bytes that spells them.**  Every number
other than zero and the least one is written in at most eight bytes that are read as the number, and
any other row that is read as the number is longer.  All rows of one to eight bytes are read as the
numbers that they spell, in words of 64 bits as well. -/
theorem decode?_encode_shortest :
    (∀ value : Int64, decode? (encode value) = some value ↔ value ≠ 0 ∧ value ≠ Int64.minValue) ∧
    (∀ value : Int64, value ≠ 0 → value ≠ Int64.minValue → (encode value).length ≤ 8 ∧
      ∀ bytes, decode? bytes = some value →
        bytes = encode value ∨ (encode value).length < bytes.length) ∧
    (∀ (front : List UInt8) (last : UInt8), front.length < 8 →
      ∃ value, decode? (front ++ [last]) = some value ∧ value.toInt = signed front last) ∧
    ∀ bytes, wordDecode? bytes = decode? bytes := by
  refine ⟨fun value => ⟨ne_of_decode?_encode, fun regular => decode?_encode regular.1 regular.2⟩,
    fun value nonzero regular => ⟨?_, fun bytes => eq_encode_or_longer nonzero⟩,
    fun front last => decode?_eq_signed last, wordDecode?_eq⟩
  obtain ⟨front, last, written, short, _⟩ :=
    decode?_eq_some_iff.mp (decode?_encode nonzero regular)
  rw [written, List.length_append, List.length_singleton]
  exact short

/-- The number −255 takes a second byte for its sign, and nothing shorter decodes to it. -/
theorem decode?_encode_shortest_negative :
    encode (-255) = [0xff, 0x80] ∧ decode? [0xff, 0x80] = some (-255) ∧
      ∀ bytes, decode? bytes = some (-255) → bytes = [0xff, 0x80] ∨ 2 < bytes.length := by
  have spelled : encode (-255) = [0xff, 0x80] := by decide +kernel
  obtain ⟨decodes, shortest, _⟩ := decode?_encode_shortest
  have least := (shortest (-255) (by decide) (by decide)).2
  have decoded := (decodes (-255)).mpr ⟨by decide, by decide⟩
  rw [spelled] at least decoded
  exact ⟨spelled, decoded, least⟩

end CoinLedger.Script.Number
