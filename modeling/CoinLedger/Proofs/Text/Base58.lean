import CoinLedger.Text.Base58
import CoinLedger.Text.Blank
import Mathlib.Data.Nat.Digits.Lemmas

/-!
# Base 58 text is read back

A row of digits is its leading zeros and a rest that does not begin with a zero.  Between two bases
the zeros are carried over one by one and the rest as a number, so a row that is converted there and
back is the row it was (`convert_convert`).  Every row of bytes is therefore read back from its text
(`decode?_encode`), and a text that is read is the text of the bytes it gives
(`encode_of_decode?`): the two are inverse to each other, and no second text stands for the same
bytes.
-/

set_option autoImplicit false

namespace CoinLedger.Text.Base58

/-! ## Numbers and their digits -/

theorem digitsFromLow_eq_digits {base : Nat} (wide : 1 < base) (value : Nat) :
    digitsFromLow base value = base.digits value := by
  induction value using digitsFromLow.induct base with
  | case1 value positive ih =>
      rw [digitsFromLow, if_pos positive, ih, Nat.digits_def' wide positive.2]
  | case2 value exhausted =>
      have zero : value = 0 := by omega
      rw [digitsFromLow, if_neg exhausted, zero, Nat.digits_zero]

/-- A row is read as the number whose digits from the low end are the row from its end. -/
theorem numberOf_eq_ofDigits (base : Nat) (digits : List Nat) :
    numberOf base digits = Nat.ofDigits base digits.reverse := by
  induction digits using List.reverseRecOn with
  | nil => rfl
  | append_singleton front last ih =>
      rw [List.reverse_concat, Nat.ofDigits_cons, ← ih, numberOf, List.foldl_append]
      change numberOf base front * base + last = last + base * numberOf base front
      rw [Nat.mul_comm, Nat.add_comm]

theorem numberOf_digitsOf {base : Nat} (wide : 1 < base) (value : Nat) :
    numberOf base (digitsOf base value) = value := by
  rw [numberOf_eq_ofDigits, digitsOf, List.reverse_reverse, digitsFromLow_eq_digits wide,
    Nat.ofDigits_digits]

theorem lt_of_mem_digitsOf {base value digit : Nat} (wide : 1 < base)
    (mem : digit ∈ digitsOf base value) : digit < base := by
  rw [digitsOf, List.mem_reverse, digitsFromLow_eq_digits wide] at mem
  exact Nat.digits_lt_base wide mem

/-- The digits of a number do not begin with a zero. -/
theorem head?_digitsOf {base : Nat} (wide : 1 < base) (value : Nat) :
    (digitsOf base value).head? ≠ some 0 := by
  rw [digitsOf, List.head?_reverse, digitsFromLow_eq_digits wide]
  intro last
  have nonempty : base.digits value ≠ [] := by
    intro none
    simp [none] at last
  rw [List.getLast?_eq_some_getLast nonempty, Option.some.injEq] at last
  exact Nat.getLast_digit_ne_zero base (Nat.digits_ne_nil_iff_ne_zero.mp nonempty) last

/-- A row that does not begin with a zero is told by its number. -/
theorem digitsOf_numberOf {base : Nat} (wide : 1 < base) {digits : List Nat}
    (below : ∀ digit ∈ digits, digit < base) (headed : digits.head? ≠ some 0) :
    digitsOf base (numberOf base digits) = digits := by
  have last : ∀ nonempty : digits.reverse ≠ [], digits.reverse.getLast nonempty ≠ 0 := by
    intro nonempty zero
    apply headed
    rw [← List.getLast?_reverse, List.getLast?_eq_getLast_of_ne_nil nonempty, zero]
  rw [digitsOf, numberOf_eq_ofDigits, digitsFromLow_eq_digits wide,
    Nat.digits_ofDigits base wide _ (by simpa using below) last, List.reverse_reverse]

/-! ## Leading zeros -/

/-- A row is its leading zeros and a rest that begins with no zero. -/
theorem exists_significant (digits : List Nat) :
    ∃ rest : List Nat, rest.head? ≠ some 0 ∧
      digits = List.replicate (leadingZeros digits) 0 ++ rest := by
  induction digits with
  | nil => exact ⟨[], by simp, rfl⟩
  | cons first rest ih =>
      by_cases zero : first = 0
      · obtain ⟨significant, headed, split⟩ := ih
        refine ⟨significant, headed, ?_⟩
        subst zero
        have longer : leadingZeros (0 :: rest) = leadingZeros rest + 1 := rfl
        rw [longer, List.replicate_succ, List.cons_append, ← split]
      · refine ⟨first :: rest, by simpa using zero, ?_⟩
        simp [leadingZeros, zero]

theorem leadingZeros_replicate_append {count : Nat} {rest : List Nat}
    (headed : rest.head? ≠ some 0) : leadingZeros (List.replicate count 0 ++ rest) = count := by
  have stops : rest.takeWhile (· == 0) = [] := by
    cases rest with
    | nil => rfl
    | cons first _ =>
        have nonzero : first ≠ 0 := by simpa using headed
        simp [nonzero]
  rw [leadingZeros, List.takeWhile_append_of_pos (by simp), stops, List.append_nil,
    List.length_replicate]

theorem numberOf_replicate_append (base count : Nat) (rest : List Nat) :
    numberOf base (List.replicate count 0 ++ rest) = numberOf base rest := by
  induction count with
  | zero => rfl
  | succ count ih =>
      rw [← ih, List.replicate_succ, List.cons_append, numberOf, List.foldl_cons]
      simp only [Nat.zero_mul, Nat.zero_add]
      rfl

/-! ## Conversion -/

theorem lt_of_mem_convert {source target digit : Nat} (wide : 1 < target) {digits : List Nat}
    (mem : digit ∈ convert source target digits) : digit < target := by
  rw [convert, List.mem_append] at mem
  rcases mem with zero | mem
  · rw [List.eq_of_mem_replicate zero]
    exact Nat.lt_of_succ_lt wide
  · exact lt_of_mem_digitsOf wide mem

/-- **Conversion to another base is undone by the conversion back.** -/
theorem convert_convert {source target : Nat} (sourceWide : 1 < source) (targetWide : 1 < target)
    {digits : List Nat} (below : ∀ digit ∈ digits, digit < source) :
    convert target source (convert source target digits) = digits := by
  obtain ⟨rest, headed, split⟩ := exists_significant digits
  generalize leadingZeros digits = count at split
  subst split
  have belowRest : ∀ digit ∈ rest, digit < source :=
    fun digit mem => below digit (List.mem_append_right _ mem)
  rw [convert, convert, leadingZeros_replicate_append headed,
    leadingZeros_replicate_append (head?_digitsOf targetWide _), numberOf_replicate_append,
    numberOf_replicate_append, numberOf_digitsOf targetWide,
    digitsOf_numberOf sourceWide belowRest headed]

/-! ## Digits as characters -/

theorem digitValue?_digit : ∀ value < 58, digitValue? (digit value) = some value := by
  decide +kernel

theorem eq_digit_of_digitValue? {character : Char} {value : Nat}
    (known : digitValue? character = some value) : value < 58 ∧ digit value = character := by
  obtain ⟨inside, found, _⟩ := List.idxOf?_eq_some_iff.mp known
  refine ⟨inside, ?_⟩
  rw [digit, List.getD_eq_getElem?_getD, List.getElem?_eq_getElem inside, Option.getD_some, found]

theorem digitValues?_map_digit {values : List Nat} (below : ∀ value ∈ values, value < 58) :
    digitValues? (values.map digit) = some values := by
  induction values with
  | nil => rfl
  | cons value rest ih =>
      rw [List.forall_mem_cons] at below
      rw [List.map_cons, digitValues?, digitValue?_digit value below.1, ih below.2]
      rfl

theorem eq_map_digit_of_digitValues? {text : List Char} {values : List Nat}
    (known : digitValues? text = some values) :
    (∀ value ∈ values, value < 58) ∧ values.map digit = text := by
  induction text generalizing values with
  | nil =>
      cases known
      exact ⟨by simp, rfl⟩
  | cons character rest ih =>
      obtain ⟨value, first, known⟩ := Option.bind_eq_some_iff.mp known
      obtain ⟨others, later, known⟩ := Option.bind_eq_some_iff.mp known
      cases known
      obtain ⟨below, same⟩ := eq_digit_of_digitValue? first
      obtain ⟨belowRest, sameRest⟩ := ih later
      exact ⟨List.forall_mem_cons.mpr ⟨below, belowRest⟩, by rw [List.map_cons, same, sameRest]⟩

/-! ## Texts and bytes -/

/-- **Bytes are read back from their text.** -/
theorem decode?_encode (bytes : List UInt8) : decode? (encode bytes) = some bytes := by
  have below : ∀ value ∈ bytes.map UInt8.toNat, value < 256 := by
    intro value mem
    obtain ⟨byte, _, rfl⟩ := List.mem_map.mp mem
    exact byte.toNat_lt
  rw [decode?, encode, digitValues?_map_digit fun _ => lt_of_mem_convert (by decide),
    Option.map_some, convert_convert (by decide) (by decide) below, List.map_map]
  simp [Function.comp_def]

/-- **A text is the only one that stands for its bytes.** -/
theorem encode_of_decode? {text : List Char} {bytes : List UInt8}
    (known : decode? text = some bytes) : encode bytes = text := by
  obtain ⟨values, read, rfl⟩ := Option.map_eq_some_iff.mp known
  obtain ⟨below, same⟩ := eq_map_digit_of_digitValues? read
  have bytes : ∀ value ∈ convert 58 256 values, (UInt8.toNat ∘ UInt8.ofNat) value = value :=
    fun value mem => UInt8.toNat_ofNat_of_lt' (lt_of_mem_convert (by decide) mem)
  rw [encode, List.map_map, List.map_congr_left bytes, List.map_id',
    convert_convert (by decide) (by decide) below, same]

/-- No digit is a blank. -/
theorem isBlank_eq_false_of_mem_encode {character : Char} {bytes : List UInt8}
    (mem : character ∈ encode bytes) : isBlank character = false := by
  have printed : ∀ value < 58, isBlank (digit value) = false := by decide +kernel
  obtain ⟨value, inside, rfl⟩ := List.mem_map.mp mem
  exact printed value (lt_of_mem_convert (by decide) inside)

end CoinLedger.Text.Base58
