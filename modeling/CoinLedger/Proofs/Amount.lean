import CoinLedger.Amount

/-!
# Exact amounts

Amounts are held within 64 signed bits.  A checked sum is the exact value, and there is one exactly
when that value is an amount (`add_eq_ok_iff`).  A clamped sum is the exact value as long as that is
an amount (`toInt_addClamped`), and so are two differences in a row (`toInt_sub_sub`), whatever the
first one comes to.
-/

set_option autoImplicit false

namespace CoinLedger.Amount

/-! ## Checked sums -/

theorem inRange_toInt (amount : Int64) : InRange amount.toInt :=
  ⟨Int64.le_iff_toInt_le.mp amount.minValue_le, Int64.le_iff_toInt_le.mp amount.le_maxValue⟩

/-- The amount of an exact value that is one. -/
theorem toInt_ofInt_of_inRange {value : Int} (fits : InRange value) :
    (Int64.ofInt value).toInt = value :=
  Int64.toInt_ofInt_of_le fits.1 (Int.lt_of_le_of_lt fits.2 (by decide))

theorem ofExact_of_inRange {value : Int} (fits : InRange value) :
    ofExact value = .ok (Int64.ofInt value) :=
  if_pos fits

theorem ofExact_eq_ok_iff {value : Int} {amount : Int64} :
    ofExact value = .ok amount ↔ amount.toInt = value := by
  constructor
  · intro found
    by_cases fits : InRange value
    · rw [ofExact_of_inRange fits] at found
      cases found
      exact toInt_ofInt_of_inRange fits
    · rw [ofExact, if_neg fits] at found
      cases found
  · rintro rfl
    rw [ofExact_of_inRange (inRange_toInt amount), Int64.ofInt_toInt]

/-- **Amounts have a sum exactly when it is an amount**, and the sum is that one. -/
theorem add_eq_ok_iff {left right sum : Int64} :
    add left right = .ok sum ↔ sum.toInt = left.toInt + right.toInt :=
  ofExact_eq_ok_iff

/-! ## Clamped sums -/

theorem toInt_addClamped {left right : Int64} (fits : InRange (left.toInt + right.toInt)) :
    (addClamped left right).toInt = left.toInt + right.toInt := by
  obtain ⟨least, greatest⟩ := fits
  rw [addClamped, if_neg (Int.not_lt.mpr least), if_neg (Int.not_lt.mpr greatest)]
  exact Int64.toInt_ofInt_of_le least (Int.lt_of_le_of_lt greatest (by decide))

/-- A sum that does not fall below the range is cut at the largest amount. -/
theorem toInt_addClamped_of_le {left right : Int64}
    (least : Int64.minValue.toInt ≤ left.toInt + right.toInt) :
    (addClamped left right).toInt = min (left.toInt + right.toInt) Int64.maxValue.toInt := by
  by_cases fits : left.toInt + right.toInt ≤ Int64.maxValue.toInt
  · rw [toInt_addClamped ⟨least, fits⟩, Int.min_eq_left fits]
  · have above := Int.not_le.mp fits
    rw [addClamped, if_neg (Int.not_lt.mpr least), if_pos above,
      Int.min_eq_right (Int.le_of_lt above)]

theorem inRange_of_le {value bound : Int} (least : 0 ≤ value) (most : value ≤ bound)
    (fits : InRange bound) : InRange value :=
  ⟨Int.le_trans (by decide) least, Int.le_trans most fits.2⟩

/-- A positive amount taken away is exact. -/
theorem toInt_neg_of_pos {amount : Int64} (positive : 0 < amount) :
    (-amount).toInt = -amount.toInt := by
  have least : 0 < amount.toInt := Int64.lt_iff_toInt_lt.mp positive
  have most := amount.toInt_lt
  rw [Int64.toInt_neg]
  exact Int.bmod_eq_of_le (by omega) (by omega)

/-- Two differences in a row are exact when the value that comes out is an amount. -/
theorem toInt_sub_sub {total requested fee : Int64}
    (fits : InRange (total.toInt - requested.toInt - fee.toInt)) :
    (total - requested - fee).toInt = total.toInt - requested.toInt - fee.toInt := by
  obtain ⟨least, greatest⟩ := fits
  rw [Int64.toInt_sub, Int64.toInt_sub, Int.bmod_sub_bmod]
  exact Int.bmod_eq_of_le least (Int.lt_of_le_of_lt greatest (by decide))

theorem check_eq_ok {amount : Int64} (least : 1 ≤ amount.toInt)
    (most : amount.toInt ≤ maxRequest) : check amount = .ok () :=
  if_pos ⟨least, most⟩

end CoinLedger.Amount
