import CoinLedger.Listing.Page
import Mathlib.Data.List.Basic

/-!
# Pages

The window of a page selects as many items as a page holds, behind those of the pages before it
(`select_pageWindow`).  So the first pages together show the items up to the end of the last one of
them, and enough pages show all items, each once and in order (`flatMap_pages`).
-/

set_option autoImplicit false

namespace CoinLedger

variable {α : Type} {pageSize : Nat}

theorem checkPageSize_eq_ok {greatest : Nat} (least : 1 ≤ pageSize) (most : pageSize ≤ greatest) :
    checkPageSize pageSize greatest = .ok () :=
  if_neg (by omega)

theorem checkPageNumber_eq_ok {page pages : Nat} (least : 1 ≤ page) (most : page ≤ pages) :
    checkPageNumber page pages = .ok () := by
  rw [checkPageNumber, if_neg (by omega), if_neg (by omega)]

theorem checkPageNumber_beyond {page pages : Nat} (beyond : pages < page) :
    checkPageNumber page pages = .error (.pageOutOfRange page pages) := by
  rw [checkPageNumber, if_neg (by omega), if_pos beyond]

theorem checkPageNumber_error {page pages : Nat} {error : QueryError}
    (fails : checkPageNumber page pages = .error error) :
    error = pageNumberTooSmall ∨ error = .pageOutOfRange page pages := by
  rw [checkPageNumber] at fails
  split at fails
  · exact .inl (Except.error.inj fails).symm
  · split at fails
    · exact .inr (Except.error.inj fails).symm
    · cases fails

/-- A page shows what follows the items of the pages before it. -/
theorem select_pageWindow (items : List α) (page pageSize : Nat) :
    (pageWindow items.length page pageSize).select items =
      (items.drop ((page - 1) * pageSize)).take pageSize := by
  rw [Window.select, Window.size, pageWindow]
  dsimp only
  rcases Nat.le_total items.length ((page - 1) * pageSize) with beyond | inside
  · rw [Nat.min_eq_right beyond, List.drop_eq_nil_of_le beyond, List.drop_length, List.take_nil,
      List.take_nil]
  · rw [Nat.min_eq_left inside, List.take_eq_take_iff, List.length_drop]
    omega

theorem mem_of_mem_select {window : Window} {items : List α} {item : α}
    (selected : item ∈ window.select items) : item ∈ items :=
  List.mem_of_mem_drop (List.mem_of_mem_take selected)

/-- The window of a page ends with the items, so it selects nothing of what follows them. -/
theorem select_pageWindow_append (items later : List α) (page pageSize : Nat) :
    (pageWindow items.length page pageSize).select (items ++ later) =
      (pageWindow items.length page pageSize).select items := by
  have start : (pageWindow items.length page pageSize).start ≤ items.length := Nat.min_le_right _ _
  have stop : (pageWindow items.length page pageSize).stop ≤ items.length := Nat.min_le_right _ _
  rw [Window.select, Window.select, Window.size, List.drop_append_of_le_length start,
    List.take_append_of_le_length]
  rw [List.length_drop]
  omega

/-- The first pages show the items up to the end of the last one of them. -/
theorem flatMap_firstPages (items : List α) (pageSize pages : Nat) :
    (List.range' 1 pages).flatMap (fun page =>
        (pageWindow items.length page pageSize).select items) =
      items.take (pages * pageSize) := by
  induction pages with
  | zero => simp
  | succ pages ih =>
      rw [List.range'_1_concat, List.flatMap_append, ih, List.flatMap_singleton, select_pageWindow,
        Nat.add_sub_cancel_left, Nat.succ_mul, List.take_add]

/-- The pages have room for all items. -/
theorem le_pageCount_mul (count : Nat) (positive : 0 < pageSize) :
    count ≤ pageCount count pageSize * pageSize := by
  have whole := Nat.lt_div_mul_add (a := count + pageSize - 1) positive
  rw [pageCount]
  omega

/-- **The pages show all items, each once and in order.** -/
theorem flatMap_pages (items : List α) (positive : 0 < pageSize) {pages : Nat}
    (enough : pageCount items.length pageSize ≤ pages) :
    (List.range' 1 pages).flatMap (fun page =>
        (pageWindow items.length page pageSize).select items) = items := by
  rw [flatMap_firstPages]
  exact List.take_of_length_le
    (Nat.le_trans (le_pageCount_mul items.length positive) (Nat.mul_le_mul_right pageSize enough))

end CoinLedger
