import CoinLedger.Proofs.Text.Blank
import CoinLedger.Text.Decimal
import Mathlib.Algebra.Order.Group.Nat

/-!
# Reading written numerals

Digits are not blank, and the digits of a number spell that number, with zeros in front
(`digitsValue_zeroPadded`) or without (`digitsValue_decimal`).
-/

set_option autoImplicit false

namespace CoinLedger.Text

variable {character : Char} {text : List Char}

theorem allDigits_eq_true_iff :
    allDigits text = true ↔ ∀ character ∈ text, character.isDigit = true :=
  List.all_eq_true

theorem isBlank_of_isDigit (digit : character.isDigit = true) : isBlank character = false := by
  rw [Char.isDigit, Bool.and_eq_true, decide_eq_true_eq, decide_eq_true_eq] at digit
  have least : 48 ≤ character.toNat := digit.1
  have most : character.toNat ≤ 57 := digit.2
  simp only [isBlank, Bool.or_eq_false_iff, Bool.and_eq_false_iff, decide_eq_false_iff_not,
    beq_eq_false_iff_ne]
  omega

/-! ## Numerals -/

theorem isDigit_of_mem_decimal {value : Nat} (member : character ∈ decimal value) :
    character.isDigit = true :=
  Nat.isDigit_of_mem_toDigits (by decide) (by decide) member

theorem digitsValue_eq_ofDigitChars (digits : List Char) :
    digitsValue digits = Nat.ofDigitChars 10 digits 0 := rfl

theorem digitsValue_decimal (value : Nat) : digitsValue (decimal value) = value :=
  Nat.ofDigitChars_ten_toDigits

/-- Zeros in front do not matter. -/
theorem digitsValue_replicate_append (count : Nat) (digits : List Char) :
    digitsValue (List.replicate count '0' ++ digits) = digitsValue digits := by
  induction count with
  | zero => rfl
  | succ count ih => exact ih

theorem digitsValue_zeroPadded (width value : Nat) : digitsValue (zeroPadded width value) = value :=
  (digitsValue_replicate_append _ _).trans (digitsValue_decimal value)

theorem isDigit_of_mem_zeroPadded {width value : Nat}
    (member : character ∈ zeroPadded width value) :
    character.isDigit = true := by
  rcases List.mem_append.mp member with zero | digit
  · rw [List.eq_of_mem_replicate zero]
    rfl
  · exact isDigit_of_mem_decimal digit

/-- A number that a field has room for fills it. -/
theorem length_zeroPadded {width value : Nat} (positive : 0 < width) (below : value < 10 ^ width) :
    (zeroPadded width value).length = width := by
  have room : (decimal value).length ≤ width :=
    (Nat.length_toDigits_le_iff (by decide) positive).mpr below
  rw [zeroPadded, List.length_append, List.length_replicate]
  omega

end CoinLedger.Text
