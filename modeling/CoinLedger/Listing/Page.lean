import CoinLedger.QueryError

/-!
# Pages and slices

Items are listed in pages numbered from one and scanned in slices numbered from zero.  A `Window` is
a run of positions; the windows of the pages lie side by side and together hold every position.
-/

set_option autoImplicit false

namespace CoinLedger

/-- The positions from `start` up to but not including `stop`. -/
structure Window where
  start : Nat
  stop : Nat
  deriving DecidableEq, Repr

namespace Window

/-- How many positions a window holds. -/
def size (window : Window) : Nat :=
  window.stop - window.start

/-- The items at the positions of a window. -/
def select {α : Type} (window : Window) (items : List α) : List α :=
  (items.drop window.start).take window.size

end Window

/-- How many pages hold `count` items; none when pages have no room. -/
def pageCount (count pageSize : Nat) : Nat :=
  (count + pageSize - 1) / pageSize

/-- The positions of a page among `count` items. -/
def pageWindow (count page pageSize : Nat) : Window :=
  let start := min ((page - 1) * pageSize) count
  { start, stop := min (start + pageSize) count }

/-- The positions of a slice among `count` items. -/
def sliceWindow (count slice sliceSize : Nat) : Window :=
  let start := min (slice * sliceSize) count
  { start, stop := start + min sliceSize (count - start) }

/-- Accepts the page sizes from one to `greatest`. -/
def checkPageSize (pageSize greatest : Nat) : Answer Unit :=
  if pageSize = 0 ∨ greatest < pageSize then
    .error (.invalidParameter ("pageSize out of range: " ++ toString pageSize ++
      " (valid: 1 - " ++ toString greatest ++ ")"))
  else .ok ()

/-- The error for page number zero. -/
def pageNumberTooSmall : QueryError :=
  .invalidParameter "pageNumber must be at least 1"

/-- Accepts the page numbers from one to the number of pages. -/
def checkPageNumber (page pages : Nat) : Answer Unit :=
  if page = 0 then .error pageNumberTooSmall
  else if pages < page then .error (.pageOutOfRange page pages)
  else .ok ()

end CoinLedger
