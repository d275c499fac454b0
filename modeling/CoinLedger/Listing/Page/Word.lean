/-!
# Pages and slices in 64-bit words

The same windows for callers that count in 64-bit words.  Sums and products beyond the range of a
word stop at its greatest value, which no number of items exceeds.
-/

set_option autoImplicit false

namespace CoinLedger.Paging

/-- The greatest word. -/
def greatestWord : UInt64 := 0xffffffffffffffff

/-- The sum of two words, at most the greatest word. -/
def addClamped (left right : UInt64) : UInt64 :=
  let sum := left + right
  if sum < left then greatestWord else sum

/-- The product of two words, at most the greatest word. -/
def mulClamped (left right : UInt64) : UInt64 :=
  UInt64.ofNat (min (left.toNat * right.toNat) greatestWord.toNat)

/-- The difference of two words, at least zero. -/
def subClamped (left right : UInt64) : UInt64 :=
  if left < right then 0 else left - right

/-- How many pages hold `count` items; none when pages have no room. -/
def pageCount (count pageSize : UInt64) : UInt64 :=
  if pageSize = 0 then 0
  else
    let full := count / pageSize
    if count % pageSize = 0 then full else full + 1

/-- The first position of a page among `count` items, and the first one after it. -/
def pageWindow (count page pageSize : UInt64) : UInt64 × UInt64 :=
  let start := min (mulClamped (subClamped page 1) pageSize) count
  (start, min (addClamped start pageSize) count)

/-- The first position of a slice among `count` items, and the number of its positions. -/
def sliceBounds (count slice sliceSize : UInt64) : UInt64 × UInt64 :=
  let offset := min (mulClamped slice sliceSize) count
  (offset, min sliceSize (count - offset))

end CoinLedger.Paging
