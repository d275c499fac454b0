import CoinLedger.Listing.Page.Word
import CoinLedger.Proofs.Selection.Run
import Mathlib.Algebra.Order.Floor.Div

/-!
# Pages and slices in words

A sum or a product that stops at the greatest word is cut to the number of items anyway, so the
windows in words are those in exact numbers (`span_pageWindow`), and so is the number of pages
(`toNat_pageCount`).  Hence what holds of the pages of a list holds in words: the windows lie side
by side from the first position to the last one, none of them is empty, and all later ones are.  The
bounds of a slice are those of the page whose number is one more (`sliceBounds_eq`).

The slices from one on and once round are counted by the sum of two words.  With fewer than `2 ^ 63`
items the sum does not wrap, so they are visited in the order of a scan (`map_toNat_visits`).
-/

set_option autoImplicit false

namespace CoinLedger

/-! ## Windows in exact numbers -/

/-- The positions of a window. -/
def Window.positions (window : Window) : List Nat :=
  List.range' window.start window.size

theorem Window.select_range {window : Window} {count : Nat} (within : window.stop ≤ count) :
    window.select (List.range count) = window.positions := by
  unfold select positions size
  rw [List.range_eq_range', List.drop_range', List.take_range'_of_length_ge (by omega)]
  congr 1
  omega

theorem stop_pageWindow_le (count page pageSize : Nat) :
    (pageWindow count page pageSize).stop ≤ count :=
  Nat.min_le_right _ _

/-- **The windows of the pages hold every position once and in order.** -/
theorem flatMap_positions {pageSize : Nat} (count : Nat) (positive : 0 < pageSize) :
    (List.range' 1 (pageCount count pageSize)).flatMap (fun page =>
        (pageWindow count page pageSize).positions) = List.range count := by
  have pages := flatMap_pages (List.range count) positive (Nat.le_refl _)
  rw [List.length_range] at pages
  refine Eq.trans (List.flatMap_congr fun page _ => ?_) pages
  exact (Window.select_range (stop_pageWindow_le count page pageSize)).symm

/-- A page is among the pages when items stand behind those of the pages before it. -/
theorem le_pageCount_iff {count page pageSize : Nat} (positive : 0 < pageSize) (least : 1 ≤ page) :
    page ≤ pageCount count pageSize ↔ (page - 1) * pageSize < count := by
  have split : page * pageSize = (page - 1) * pageSize + pageSize := by
    rw [← Nat.succ_mul, Nat.succ_eq_add_one, Nat.sub_add_cancel least]
  rw [pageCount, Nat.le_div_iff_mul_le positive, split]
  omega

theorem pageCount_le {pageSize : Nat} (count : Nat) (positive : 0 < pageSize) :
    pageCount count pageSize ≤ count := by
  rcases Nat.eq_zero_or_pos (pageCount count pageSize) with none | some
  · omega
  · have behind := (le_pageCount_iff positive some).mp (Nat.le_refl _)
    have whole := Nat.le_mul_of_pos_right (pageCount count pageSize - 1) positive
    omega

section Window

variable {count page pageSize : Nat}

theorem start_lt_stop_pageWindow (positive : 0 < pageSize)
    (before : (page - 1) * pageSize < count) :
    (pageWindow count page pageSize).start < (pageWindow count page pageSize).stop := by
  unfold pageWindow
  dsimp only
  omega

theorem size_pageWindow_le : (pageWindow count page pageSize).size ≤ pageSize := by
  unfold Window.size pageWindow
  dsimp only
  omega

/-- Behind the items a window is empty. -/
theorem start_eq_stop_pageWindow (behind : count ≤ (page - 1) * pageSize) :
    (pageWindow count page pageSize).start = (pageWindow count page pageSize).stop := by
  unfold pageWindow
  dsimp only
  omega

end Window

namespace Paging

/-! ## Words in exact numbers -/

variable (left right count page slice size : UInt64)

theorem toNat_greatestWord : greatestWord.toNat = 2 ^ 64 - 1 := rfl

theorem toNat_addClamped :
    (addClamped left right).toNat = min (left.toNat + right.toNat) greatestWord.toNat := by
  have first := left.toNat_lt
  have second := right.toNat_lt
  have sum := UInt64.toNat_add left right
  rw [toNat_greatestWord]
  unfold addClamped
  dsimp only
  split
  next wrapped =>
    rw [UInt64.lt_iff_toNat_lt] at wrapped
    rw [toNat_greatestWord]
    omega
  next fits =>
    rw [UInt64.lt_iff_toNat_lt] at fits
    omega

theorem toNat_mulClamped :
    (mulClamped left right).toNat = min (left.toNat * right.toNat) greatestWord.toNat := by
  have most : min (left.toNat * right.toNat) greatestWord.toNat < UInt64.size :=
    Nat.lt_of_le_of_lt (Nat.min_le_right _ _) greatestWord.toNat_lt
  rw [mulClamped, UInt64.toNat_ofNat_of_lt' most]

theorem toNat_subClamped : (subClamped left right).toNat = left.toNat - right.toNat := by
  unfold subClamped
  split
  next less =>
    rw [UInt64.lt_iff_toNat_lt] at less
    change 0 = _
    omega
  next more => exact UInt64.toNat_sub_of_le _ _ (UInt64.not_lt.mp more)

/-- The window from one word up to but not including another one. -/
def span (words : UInt64 × UInt64) : Window :=
  ⟨words.1.toNat, words.2.toNat⟩

/-- A product that stops at the greatest word is cut to the items as the exact one is. -/
theorem toNat_min_mulClamped :
    (min (mulClamped left right) count).toNat = min (left.toNat * right.toNat) count.toNat := by
  have items := count.toNat_lt
  rw [UInt64.toNat_min, toNat_mulClamped, toNat_greatestWord]
  omega

/-- **The window of a page in words is the one in exact numbers.** -/
theorem span_pageWindow :
    span (pageWindow count page size) =
      CoinLedger.pageWindow count.toNat page.toNat size.toNat := by
  have items := count.toNat_lt
  have start : (min (mulClamped (subClamped page 1) size) count).toNat =
      min ((page.toNat - 1) * size.toNat) count.toNat := by
    rw [toNat_min_mulClamped, toNat_subClamped]
    rfl
  have stop :
      (min (addClamped (min (mulClamped (subClamped page 1) size) count) size) count).toNat =
        min (min ((page.toNat - 1) * size.toNat) count.toNat + size.toNat) count.toNat := by
    rw [UInt64.toNat_min, toNat_addClamped, start, toNat_greatestWord]
    omega
  rw [span, pageWindow, CoinLedger.pageWindow, start, stop]

/-- **The number of pages in words is the one in exact numbers.** -/
theorem toNat_pageCount {size : UInt64} (positive : 0 < size) :
    (pageCount count size).toNat = CoinLedger.pageCount count.toNat size.toNat := by
  have least : 0 < size.toNat := UInt64.lt_iff_toNat_lt.mp positive
  have nonzero : size ≠ 0 := by
    rintro rfl
    exact Nat.lt_irrefl 0 least
  have items := count.toNat_lt
  have whole := Nat.div_add_mod count.toNat size.toNat
  have rest := Nat.mod_lt count.toNat least
  have up : CoinLedger.pageCount count.toNat size.toNat =
      count.toNat / size.toNat + (count.toNat % size.toNat + size.toNat - 1) / size.toNat := by
    rw [← Nat.mul_add_div least, CoinLedger.pageCount]
    congr 1
    omega
  have full : (count / size).toNat = count.toNat / size.toNat := UInt64.toNat_div count size
  have tail_iff : count % size = 0 ↔ count.toNat % size.toNat = 0 := by
    rw [← UInt64.toNat_inj, UInt64.toNat_mod]
    rfl
  rw [pageCount, if_neg nonzero, up]
  dsimp only
  split
  next exact =>
    have none : (0 + size.toNat - 1) / size.toNat = 0 := Nat.div_eq_of_lt (by omega)
    rw [tail_iff.mp exact, none, full, Nat.add_zero]
  next tail =>
    have some := mt tail_iff.mpr tail
    have few := Nat.le_mul_of_pos_left (count.toNat / size.toNat) least
    have one : (count.toNat % size.toNat + size.toNat - 1) / size.toNat = 1 :=
      Nat.div_eq_of_lt_le (by omega) (by omega)
    rw [UInt64.toNat_add, full, one, UInt64.toNat_one, Nat.mod_eq_of_lt (by omega)]

/-! ## Slices -/

/-- The positions of a slice with the given first position and length. -/
def slicePositions (bounds : UInt64 × UInt64) : List Nat :=
  List.range' bounds.1.toNat bounds.2.toNat

theorem start_sliceBounds :
    (sliceBounds count slice size).1.toNat =
      (sliceWindow count.toNat slice.toNat size.toNat).start :=
  toNat_min_mulClamped slice size count

theorem size_sliceBounds :
    (sliceBounds count slice size).2.toNat =
      (sliceWindow count.toNat slice.toNat size.toNat).size := by
  have start := toNat_min_mulClamped slice size count
  have inside : min (mulClamped slice size) count ≤ count := by
    rw [UInt64.le_iff_toNat_le, start]
    exact Nat.min_le_right _ _
  rw [Window.size, sliceWindow, Nat.add_sub_cancel_left, sliceBounds]
  dsimp only
  rw [UInt64.toNat_min, UInt64.toNat_sub_of_le _ _ inside, start]

theorem slicePositions_sliceBounds :
    slicePositions (sliceBounds count slice size) =
      (sliceWindow count.toNat slice.toNat size.toNat).positions := by
  rw [slicePositions, start_sliceBounds, size_sliceBounds, Window.positions]

/-- **The bounds of a slice are the start and the length of the page whose number is one more.** -/
theorem sliceBounds_eq {slice : UInt64} (before : slice < greatestWord) :
    sliceBounds count slice size =
      ((pageWindow count (slice + 1) size).1,
        (pageWindow count (slice + 1) size).2 - (pageWindow count (slice + 1) size).1) := by
  have less : slice.toNat < 2 ^ 64 - 1 := UInt64.lt_iff_toNat_lt.mp before
  have number : (slice + 1).toNat = slice.toNat + 1 := by
    rw [UInt64.toNat_add, UInt64.toNat_one, Nat.mod_eq_of_lt (by omega)]
  have window := span_pageWindow count (slice + 1) size
  rw [number, ← ScanPlan.sliceWindow_eq_pageWindow] at window
  have start := congrArg Window.start window
  have stop := congrArg Window.stop window
  have ordered : (pageWindow count (slice + 1) size).1 ≤ (pageWindow count (slice + 1) size).2 :=
    UInt64.le_iff_toNat_le.mpr (start.trans_le ((Nat.le_add_right _ _).trans_eq stop.symm))
  apply Prod.ext
  · exact UInt64.toNat_inj.mp ((start_sliceBounds count slice size).trans start.symm)
  · apply UInt64.toNat_inj.mp
    rw [UInt64.toNat_sub_of_le _ _ ordered, size_sliceBounds, Window.size, ← start, ← stop]
    rfl

/-! ## Visits of slices -/

/-- The slices from one of them on and once round, counted in words. -/
def visits (start slices : UInt64) : List UInt64 :=
  (List.range slices.toNat).map fun step => (start + UInt64.ofNat step) % slices

/-- **As long as no sum wraps, slices are visited in the order of a scan.** -/
theorem map_toNat_visits {start slices : UInt64} (few : slices.toNat < 2 ^ 63)
    (inside : start < slices) :
    (visits start slices).map UInt64.toNat = visitOrder start.toNat slices.toNat := by
  have first : start.toNat < slices.toNat := UInt64.lt_iff_toNat_lt.mp inside
  rw [visits, visitOrder, List.map_map]
  apply List.map_congr_left
  intro step member
  have below := List.mem_range.mp member
  have fits : start.toNat + step < 2 ^ 64 := by omega
  have word : (UInt64.ofNat step).toNat = step :=
    UInt64.toNat_ofNat_of_lt' (show step < 2 ^ 64 by omega)
  rw [Function.comp_apply, UInt64.toNat_mod, UInt64.toNat_add, word, Nat.mod_eq_of_lt fits]

/-- Every slice is visited once. -/
theorem visits_perm {start slices : UInt64} (few : slices.toNat < 2 ^ 63)
    (inside : start < slices) :
    ((visits start slices).map UInt64.toNat).Perm (List.range slices.toNat) := by
  rw [map_toNat_visits few inside, ScanPlan.visitOrder_eq_rotate]
  exact List.rotate_perm _ _

/-- The slices one after the other hold every position once and in order. -/
theorem flatMap_sliceWindow {size : Nat} (count : Nat) (positive : 0 < size) :
    (List.range (CoinLedger.pageCount count size)).flatMap (fun slice =>
        (sliceWindow count slice size).positions) = List.range count := by
  have pages := flatMap_positions count positive
  rw [List.range'_eq_map_range, List.flatMap_map] at pages
  refine Eq.trans (List.flatMap_congr fun slice _ => ?_) pages
  rw [ScanPlan.sliceWindow_eq_pageWindow, Nat.add_comm]

/-! ## Partitions -/

/-- The windows of the pages hold the positions of the items, each once and in order. -/
structure PagesPartition (count pageSize : UInt64) : Prop where
  /-- There are as many pages as the quotient rounded up. -/
  pages : (pageCount count pageSize).toNat = count.toNat ⌈/⌉ pageSize.toNat
  /-- The bounds of every window are those in exact numbers. -/
  exact : ∀ page, span (pageWindow count page pageSize) =
    CoinLedger.pageWindow count.toNat page.toNat pageSize.toNat
  joined : (List.range' 1 (pageCount count pageSize).toNat).flatMap (fun page =>
    (span (pageWindow count (UInt64.ofNat page) pageSize)).positions) = List.range count.toNat
  filled : ∀ page, 1 ≤ page → page ≤ pageCount count pageSize →
    (pageWindow count page pageSize).1 < (pageWindow count page pageSize).2 ∧
      (pageWindow count page pageSize).2 - (pageWindow count page pageSize).1 ≤ pageSize
  beyond : ∀ page, pageCount count pageSize < page →
    (pageWindow count page pageSize).1 = (pageWindow count page pageSize).2

/-- The slices from one of them on and once round hold the positions of the items, each once. -/
structure VisitsOnce (count sliceSize start : UInt64) : Prop where
  /-- The sum of the start and a step is a word. -/
  fits : ∀ step < (pageCount count sliceSize).toNat, start.toNat + step < 2 ^ 64
  slices : ((visits start (pageCount count sliceSize)).map UInt64.toNat).Perm
    (List.range (pageCount count sliceSize).toNat)
  positions : ((visits start (pageCount count sliceSize)).flatMap fun slice =>
    slicePositions (sliceBounds count slice sliceSize)).Perm (List.range count.toNat)

theorem pagesPartition {size : UInt64} (positive : 0 < size) : PagesPartition count size := by
  have least : 0 < size.toNat := UInt64.lt_iff_toNat_lt.mp positive
  have pages := toNat_pageCount count positive
  have window (page : UInt64) := span_pageWindow count page size
  refine ⟨pages, window, ?_, fun page first last => ?_, fun page later => ?_⟩
  · rw [pages, ← flatMap_positions count.toNat least]
    apply List.flatMap_congr
    intro page member
    have most : page ≤ CoinLedger.pageCount count.toNat size.toNat := by
      have within := List.mem_range'_1.mp member
      omega
    have few := (pageCount_le count.toNat least).trans_lt count.toNat_lt
    rw [window, UInt64.toNat_ofNat_of_lt' (most.trans_lt few)]
  · have number : 1 ≤ page.toNat := UInt64.le_iff_toNat_le.mp first
    have last := UInt64.le_iff_toNat_le.mp last
    rw [pages, le_pageCount_iff least number] at last
    have nonempty := start_lt_stop_pageWindow least last
    have short : (CoinLedger.pageWindow count.toNat page.toNat size.toNat).size ≤ size.toNat :=
      size_pageWindow_le
    rw [← window] at nonempty short
    have less : (pageWindow count page size).1 < (pageWindow count page size).2 :=
      UInt64.lt_iff_toNat_lt.mpr nonempty
    refine ⟨less, ?_⟩
    rw [UInt64.le_iff_toNat_le, UInt64.toNat_sub_of_le _ _ (UInt64.le_of_lt less)]
    exact short
  · have later := UInt64.lt_iff_toNat_lt.mp later
    rw [pages] at later
    have behind : count.toNat ≤ (page.toNat - 1) * size.toNat :=
      Nat.not_lt.mp (mt (le_pageCount_iff least (by omega)).mpr (Nat.not_le.mpr later))
    have empty := start_eq_stop_pageWindow behind
    rw [← window] at empty
    exact UInt64.toNat_inj.mp empty

theorem visitsOnce {count size start : UInt64} (few : count.toNat < 2 ^ 63) (positive : 0 < size)
    (inside : start < pageCount count size) : VisitsOnce count size start := by
  have least : 0 < size.toNat := UInt64.lt_iff_toNat_lt.mp positive
  have pages := toNat_pageCount count positive
  have slices : (pageCount count size).toNat < 2 ^ 63 := by
    rw [pages]
    exact (pageCount_le count.toNat least).trans_lt few
  have first := UInt64.lt_iff_toNat_lt.mp inside
  refine ⟨fun step below => by omega, visits_perm slices inside, ?_⟩
  have visited := visits_perm slices inside
  rw [← flatMap_sliceWindow count.toNat least, ← pages]
  simp only [slicePositions_sliceBounds]
  rw [← List.flatMap_map (f := UInt64.toNat)
    (g := fun slice => (sliceWindow count.toNat slice size.toNat).positions)]
  exact visited.flatMap_right _

/-- **Pages and slices in words part the items.**  The windows of the pages hold every position once
and in order; the bounds of a slice are those of a page; and a scan from any slice on and once round
meets every position once, if there are fewer than `2 ^ 63` items. -/
theorem windows_part_items :
    (∀ count pageSize, 0 < pageSize → PagesPartition count pageSize) ∧
    (∀ count slice size, slice < greatestWord →
      sliceBounds count slice size =
        ((pageWindow count (slice + 1) size).1,
          (pageWindow count (slice + 1) size).2 - (pageWindow count (slice + 1) size).1)) ∧
    ∀ count sliceSize start, count.toNat < 2 ^ 63 → 0 < sliceSize →
      start < pageCount count sliceSize → VisitsOnce count sliceSize start :=
  ⟨fun count _ positive => pagesPartition count positive,
    fun count _ size before => sliceBounds_eq count size before,
    fun _ _ _ few positive inside => visitsOnce few positive inside⟩

/-- Two pages of half of the greatest number of items and one, the slice before the last word, and
the three slices of five items. -/
theorem windows_part_items_greatest :
    PagesPartition greatestWord 0x8000000000000000 ∧
      sliceBounds 5 0xfffffffffffffffe 2 = (5, 0) ∧ VisitsOnce 5 2 2 :=
  ⟨windows_part_items.1 _ _ (by decide),
    (windows_part_items.2.1 5 0xfffffffffffffffe 2 (by decide)).trans (by decide),
    windows_part_items.2.2 5 2 2 (by decide) (by decide) (by decide)⟩

end Paging

end CoinLedger
