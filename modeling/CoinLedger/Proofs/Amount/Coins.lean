import CoinLedger.Proofs.Amount
import CoinLedger.Proofs.Text.Decimal
import Mathlib.Data.List.TakeWhile

/-!
# Amounts in coins

An amount is spelled by digits, behind which a point may stand with up to eight digits more
(`SpellsCoins`).  Reading a text gives an amount exactly if the text without the blanks around it
spells it and a request may ask for it, and refuses every other text as an invalid parameter
(`parse_eq_ok_iff`, `parse_cases`).  Writing an amount spells it behind its sign
(`spellsCoins_format`), so what a request may ask for is read back as it was written, and no two
amounts are written alike (`parse_format_spelling`).
-/

set_option autoImplicit false

namespace CoinLedger.Amount

open Text

/-! ## Spellings -/

/-- A text with digits for the whole coins and, behind a point, at most eight more digits.  Either
part may be empty, but not both. -/
structure SpellsCoins (text whole places : List Char) : Prop where
  joined : (text = whole ∧ places = []) ∨ text = whole ++ '.' :: places
  wholeDigits : ∀ character ∈ whole, character.isDigit = true
  placeDigits : ∀ character ∈ places, character.isDigit = true
  short : places.length ≤ 8
  nonempty : ¬ (whole = [] ∧ places = [])

/-- The units of a spelled amount, with zeros behind the places up to the eighth. -/
def spelledUnits (whole places : List Char) : Nat :=
  Nat.ofDigitChars 10 whole 0 * 10 ^ 8 +
    Nat.ofDigitChars 10 (places ++ List.replicate (8 - places.length) '0') 0

variable {text whole places : List Char} {units : Nat} {amount : Int64}

theorem not_point_of_isDigit {character : Char} (digit : character.isDigit = true) :
    decide (character ≠ '.') = true := by
  refine decide_eq_true ?_
  rintro rfl
  exact absurd digit (by decide)

/-- The two parts of a spelling are the ones that the first point divides. -/
theorem SpellsCoins.splitAtPoint_eq (spells : SpellsCoins text whole places) :
    splitAtPoint text = (whole, places) := by
  have noPoint : ∀ character ∈ whole, decide (character ≠ '.') = true := fun character member =>
    not_point_of_isDigit (spells.wholeDigits character member)
  rcases spells.joined with ⟨rfl, rfl⟩ | rfl
  · rw [splitAtPoint, List.takeWhile_eq_self_iff.mpr noPoint, List.dropWhile_eq_nil_iff.mpr noPoint,
      List.drop_nil]
  · rw [splitAtPoint, List.takeWhile_append_of_pos noPoint, List.dropWhile_append_of_pos noPoint,
      List.takeWhile_cons_of_neg (by decide), List.dropWhile_cons_of_neg (by decide),
      List.append_nil, List.drop_one, List.tail_cons]

/-- The first point divides every text into the parts that it joins. -/
theorem joined_splitAtPoint (text : List Char) :
    (text = (splitAtPoint text).1 ∧ (splitAtPoint text).2 = []) ∨
      text = (splitAtPoint text).1 ++ '.' :: (splitAtPoint text).2 := by
  unfold splitAtPoint
  have whole := List.takeWhile_append_dropWhile (p := (· ≠ '.')) (l := text)
  cases rest : text.dropWhile (· ≠ '.') with
  | nil =>
      rw [rest, List.append_nil] at whole
      exact .inl ⟨whole.symm, rfl⟩
  | cons point places =>
      have stopped := List.head_dropWhile_not (· ≠ '.') (l := text) (rest ▸ List.cons_ne_nil _ _)
      simp only [rest, List.head_cons, decide_eq_false_iff_not, not_not] at stopped
      rw [rest, stopped] at whole
      exact .inr whole.symm

/-- The parts of a spelling, and no others, stand for units. -/
theorem units?_eq_some_iff :
    units? (splitAtPoint text).1 (splitAtPoint text).2 = some units ↔
      SpellsCoins text (splitAtPoint text).1 (splitAtPoint text).2 ∧
        spelledUnits (splitAtPoint text).1 (splitAtPoint text).2 = units := by
  have joined := joined_splitAtPoint text
  generalize (splitAtPoint text).1 = whole, (splitAtPoint text).2 = places at joined ⊢
  have empty : (whole.isEmpty && places.isEmpty) = true ↔ whole = [] ∧ places = [] := by
    rw [Bool.and_eq_true, List.isEmpty_iff, List.isEmpty_iff]
  have digits : (decide (8 < places.length) || !allDigits whole || !allDigits places) = true ↔
      ¬ (places.length ≤ 8 ∧ allDigits whole = true ∧ allDigits places = true) := by
    cases allDigits whole <;> cases allDigits places <;> simp
  rw [allDigits_eq_true_iff, allDigits_eq_true_iff] at digits
  rw [units?]
  split
  next nothing =>
    exact ⟨nofun, fun ⟨spells, _⟩ => absurd (empty.mp nothing) spells.nonempty⟩
  next something =>
    split
    next malformed =>
      exact ⟨nofun, fun ⟨spells, _⟩ => absurd ⟨spells.short, spells.wholeDigits, spells.placeDigits⟩
        (digits.mp malformed)⟩
    next wellFormed =>
      obtain ⟨short, wholeDigits, placeDigits⟩ := Decidable.not_not.mp (wellFormed ∘ digits.mpr)
      have spells : SpellsCoins text whole places :=
        ⟨joined, wholeDigits, placeDigits, short, something ∘ empty.mpr⟩
      exact Option.some_inj.trans ⟨fun same => ⟨spells, same⟩, fun same => same.2⟩

/-! ## Reading -/

theorem parse_eq_ok_iff_units (text : String) (amount : Int64) :
    parse text = .ok amount ↔
      units? (splitAtPoint (trim text.toList)).1 (splitAtPoint (trim text.toList)).2 =
          some amount.toInt.toNat ∧
        1 ≤ amount.toInt ∧ amount.toInt ≤ maxRequest := by
  have below := amount.toInt_lt
  rw [parse]
  split
  next malformed =>
    rw [malformed]
    exact ⟨nofun, nofun⟩
  next units spelled =>
    rw [spelled, Option.some_inj]
    split
    next beyond =>
      rw [Int64.toInt_maxValue] at beyond
      refine ⟨nofun, fun ⟨same, least, _⟩ => ?_⟩
      omega
    next held =>
      rw [Int64.toInt_maxValue] at held
      have value : (Int64.ofNat units).toInt = units := Int64.toInt_ofNat_of_lt (by omega)
      have same_iff : Int64.ofNat units = amount ↔ (units : Int) = amount.toInt := by
        rw [← Int64.toInt_inj, value]
      dsimp only
      by_cases asked : 1 ≤ (Int64.ofNat units).toInt ∧ (Int64.ofNat units).toInt ≤ maxRequest
      · rw [check_eq_ok asked.1 asked.2]
        rw [Except.map, Except.ok.injEq, same_iff]
        omega
      · rw [check, if_neg asked]
        refine ⟨nofun, fun ⟨same, asks⟩ => absurd ?_ asked⟩
        omega

/-- **A text is read as an amount exactly if, without the blanks around it, it spells the amount and
a request may ask for it.** -/
theorem parse_eq_ok_iff (text : String) (amount : Int64) :
    parse text = .ok amount ↔
      ∃ whole places, SpellsCoins (trim text.toList) whole places ∧
        amount.toInt = spelledUnits whole places ∧ 1 ≤ amount.toInt ∧
        amount.toInt ≤ maxRequest := by
  rw [parse_eq_ok_iff_units, units?_eq_some_iff]
  constructor
  · rintro ⟨⟨spells, same⟩, asked⟩
    exact ⟨_, _, spells, by omega, asked⟩
  · rintro ⟨whole, places, spells, same, asked⟩
    have units : spelledUnits whole places = amount.toInt.toNat := by omega
    rw [spells.splitAtPoint_eq]
    exact ⟨⟨spells, units⟩, asked⟩

/-- **Every other text is refused as an invalid parameter.** -/
theorem parse_cases (text : String) :
    (∃ amount, parse text = .ok amount) ∨
      ∃ message, parse text = .error (.invalidParameter message) := by
  rw [parse]
  split
  next => exact .inr ⟨_, rfl⟩
  next units spelled =>
    split
    next => exact .inr ⟨_, rfl⟩
    next =>
      dsimp only
      rw [check]
      split
      next => exact .inl ⟨_, rfl⟩
      next => exact .inr ⟨_, rfl⟩

/-! ## Writing -/

/-- The text of an amount without its sign. -/
def magnitudeText (amount : Int64) : List Char :=
  decimal (amount.toInt.natAbs / unitsPerCoin) ++
    '.' :: zeroPadded 8 (amount.toInt.natAbs % unitsPerCoin)

theorem toList_format (amount : Int64) :
    (format amount).toList = (if amount < 0 then ['-'] else []) ++ magnitudeText amount := by
  rw [format, String.toList_ofList, magnitudeText]
  simp only [List.append_assoc, List.singleton_append]

theorem length_places (amount : Int64) :
    (zeroPadded 8 (amount.toInt.natAbs % unitsPerCoin)).length = 8 :=
  length_zeroPadded (by decide) (Nat.mod_lt _ (by decide))

/-- **What is written behind the sign spells the amount.** -/
theorem spellsCoins_magnitudeText (amount : Int64) :
    SpellsCoins (magnitudeText amount) (decimal (amount.toInt.natAbs / unitsPerCoin))
      (zeroPadded 8 (amount.toInt.natAbs % unitsPerCoin)) where
  joined := .inr rfl
  wholeDigits _ := isDigit_of_mem_decimal
  placeDigits _ := isDigit_of_mem_zeroPadded
  short := Nat.le_of_eq (length_places amount)
  nonempty := fun ⟨nothing, _⟩ => Nat.toDigits_ne_nil nothing

theorem spelledUnits_magnitudeText (amount : Int64) :
    spelledUnits (decimal (amount.toInt.natAbs / unitsPerCoin))
      (zeroPadded 8 (amount.toInt.natAbs % unitsPerCoin)) = amount.toInt.natAbs := by
  rw [spelledUnits, length_places, Nat.sub_self, List.replicate_zero, List.append_nil,
    ← digitsValue_eq_ofDigitChars, ← digitsValue_eq_ofDigitChars, digitsValue_decimal,
    digitsValue_zeroPadded]
  exact Nat.div_add_mod' _ _

/-- The magnitude of an amount is read off its text. -/
theorem natAbs_eq_of_magnitudeText {left right : Int64}
    (same : magnitudeText left = magnitudeText right) : left.toInt.natAbs = right.toInt.natAbs := by
  have parts := (spellsCoins_magnitudeText left).splitAtPoint_eq
  rw [same, (spellsCoins_magnitudeText right).splitAtPoint_eq, Prod.mk.injEq] at parts
  rw [← spelledUnits_magnitudeText left, ← spelledUnits_magnitudeText right, parts.1, parts.2]

theorem isBlank_of_mem_magnitudeText {character : Char}
    (member : character ∈ magnitudeText amount) :
    isBlank character = false := by
  rcases List.mem_append.mp member with digit | member
  · exact isBlank_of_isDigit (isDigit_of_mem_decimal digit)
  · rcases List.mem_cons.mp member with rfl | digit
    · rfl
    · exact isBlank_of_isDigit (isDigit_of_mem_zeroPadded digit)

/-- The text behind a sign does not begin with a sign. -/
theorem magnitudeText_ne_minus (amount : Int64) (rest : List Char) :
    magnitudeText amount ≠ '-' :: rest := by
  intro same
  obtain ⟨digit, digits, whole⟩ := List.exists_cons_of_ne_nil
    (Nat.toDigits_ne_nil (n := amount.toInt.natAbs / unitsPerCoin) (b := 10))
  have first : digit ∈ decimal (amount.toInt.natAbs / unitsPerCoin) := by
    rw [decimal, whole]
    exact List.mem_cons_self
  rw [magnitudeText, decimal, whole, List.cons_append] at same
  rw [(List.cons.inj same).1] at first
  exact absurd (isDigit_of_mem_decimal first) (by decide)

/-- **What a request may ask for is read back as it was written.** -/
theorem parse_format {amount : Int64} (least : 1 ≤ amount.toInt)
    (most : amount.toInt ≤ maxRequest) :
    parse (format amount) = .ok amount := by
  have positive : ¬ amount < 0 := fun negative => by
    have below := Int64.lt_iff_toInt_lt.mp negative
    rw [Int64.toInt_zero] at below
    omega
  have trimmed : trim (format amount).toList = magnitudeText amount := by
    have printed : ∀ character ∈ magnitudeText amount, isBlank character = false :=
      fun _ => isBlank_of_mem_magnitudeText
    rw [toList_format, if_neg positive, List.nil_append]
    rw [trim, trimLeft_of_printed printed, trimRight_of_printed printed]
  have units := spelledUnits_magnitudeText amount
  refine (parse_eq_ok_iff _ amount).mpr
    ⟨_, _, trimmed ▸ spellsCoins_magnitudeText amount, ?_, least, most⟩
  omega

theorem negative_iff (amount : Int64) : amount < 0 ↔ amount.toInt < 0 := by
  rw [Int64.lt_iff_toInt_lt, Int64.toInt_zero]

/-- **No two amounts are written alike.** -/
theorem format_injective : Function.Injective format := by
  intro left right same
  have texts := congrArg String.toList same
  rw [toList_format, toList_format] at texts
  have signs : (left < 0 ↔ right < 0) ∧ magnitudeText left = magnitudeText right := by
    by_cases first : left < 0 <;> by_cases second : right < 0
    · rw [if_pos first, if_pos second] at texts
      exact ⟨iff_of_true first second, (List.cons.inj texts).2⟩
    · rw [if_pos first, if_neg second] at texts
      exact absurd texts.symm (magnitudeText_ne_minus right _)
    · rw [if_neg first, if_pos second] at texts
      exact absurd texts (magnitudeText_ne_minus left _)
    · rw [if_neg first, if_neg second] at texts
      exact ⟨iff_of_false first second, texts⟩
  have magnitudes := natAbs_eq_of_magnitudeText signs.2
  have sign := signs.1
  rw [negative_iff, negative_iff] at sign
  exact Int64.toInt_inj.mp (by omega)

/-- **Amounts in coins.**  A text is read as an amount exactly if, without the blanks around it, it
is digits, behind which a point may stand with at most eight digits more, that spell an amount a
request may ask for; every other text is an invalid parameter.  What a request may ask for is read
back as it was written, and no two amounts are written alike. -/
theorem parse_format_spelling :
    (∀ text amount, parse text = .ok amount ↔
      ∃ whole places, SpellsCoins (trim text.toList) whole places ∧
        amount.toInt = spelledUnits whole places ∧ 1 ≤ amount.toInt ∧
        amount.toInt ≤ maxRequest) ∧
    (∀ text, (∀ amount, parse text ≠ .ok amount) →
      ∃ message, parse text = .error (.invalidParameter message)) ∧
    (∀ amount : Int64, 1 ≤ amount.toInt → amount.toInt ≤ maxRequest →
      parse (format amount) = .ok amount) ∧
    Function.Injective format :=
  ⟨parse_eq_ok_iff,
    fun text unread => (parse_cases text).resolve_left fun ⟨amount, read⟩ => unread amount read,
    fun _ => parse_format, format_injective⟩

/-- Zeros in front and blanks around do not matter to a spelled amount, a second point refuses the
text, the largest request is read back, and the least amount is written like no other. -/
theorem parse_format_spelling_padded :
    parse " 0006.5\n" = .ok 650000000 ∧
    (∃ message, parse "6.5." = .error (.invalidParameter message)) ∧
    parse (format 500000000000000000) = .ok 500000000000000000 ∧
    format Int64.minValue ≠ format (-Int64.maxValue) := by
  obtain ⟨read, refused, readBack, apart⟩ := parse_format_spelling
  have spells : SpellsCoins (trim " 0006.5\n".toList) ['0', '0', '0', '6'] ['5'] :=
    ⟨.inr (by decide +kernel), allDigits_eq_true_iff.mp rfl, allDigits_eq_true_iff.mp rfl,
      by decide, by decide⟩
  have secondPoint : (parse "6.5.").toOption = none := by decide +kernel
  refine ⟨(read _ _).mpr ⟨_, _, spells, by decide +kernel, by decide, by decide⟩,
    refused _ fun amount readAs => ?_, readBack _ (by decide) (by decide),
    fun same => absurd (apart same) (by decide)⟩
  rw [readAs] at secondPoint
  cases secondPoint

end CoinLedger.Amount
