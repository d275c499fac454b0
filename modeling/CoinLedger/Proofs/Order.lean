import CoinLedger.Hash

/-!
# The orders of hashes and outpoints

Hashes are ordered by their bytes as they are stored (`compare_bytes_eq_lt`).  Hashes and outpoints
are ordered linearly: the comparison is transitive, and two of them that compare equal are equal.
-/

set_option autoImplicit false

namespace CoinLedger

open Std

/-- Bytes are compared one after the other, and a first part comes before the whole. -/
theorem compare_bytes_eq_lt {left right : List UInt8} :
    compare left right = .lt ↔ left < right := by
  induction left generalizing right with
  | nil => cases right <;> simp
  | cons byte rest ih =>
      cases right with
      | nil => simp
      | cons other others =>
          rw [List.compare_cons_cons, List.cons_lt_cons_iff, Ordering.then_eq_lt, ih,
            compare_eq_lt, LawfulEqOrd.compare_eq_iff_eq]

theorem Hash256.compare_eq_lt {left right : Hash256} :
    compare left right = .lt ↔ left.bytes < right.bytes :=
  compare_bytes_eq_lt

instance : TransOrd Hash256 := inferInstanceAs (TransCmp (compareOn Hash256.bytes))

instance : LawfulEqOrd Hash256 where
  eq_of_compare {left right} equal := by
    have bytes : left.bytes = right.bytes := LawfulEqOrd.eq_of_compare equal
    cases left
    cases right
    cases bytes
    rfl

instance : TransOrd OutPoint :=
  inferInstanceAs (TransCmp (compareLex (compareOn OutPoint.txid) (compareOn OutPoint.index)))

instance : LawfulEqOrd OutPoint where
  eq_of_compare {left right} equal := by
    obtain ⟨txid, index⟩ := Ordering.then_eq_eq.mp equal
    have txids : left.txid = right.txid := LawfulEqOrd.eq_of_compare txid
    have indices : left.index = right.index := LawfulEqOrd.eq_of_compare index
    cases left
    cases right
    cases txids
    cases indices
    rfl

end CoinLedger
