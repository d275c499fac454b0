import CoinLedger.Ledger.Record
import CoinLedger.QueryError

/-!
# Block caches

A request reads the blocks of the outputs it looks at, often the same block again.  A cache keeps
the blocks that were read most recently, up to its capacity.  A block that cannot be read is not
kept.  What a cache answers does not depend on a computer; only whether there can be one of its
capacity does.
-/

set_option autoImplicit false

namespace CoinLedger

/-- The blocks most recently read through a cache, and how its reads went. -/
structure BlockCache where
  /-- How many blocks the cache keeps. -/
  capacity : Nat := 256
  /-- The blocks by height, the most recently used one first. -/
  entries : List (Int32 × Block) := []
  /-- The reads answered by a kept block. -/
  hits : Nat := 0
  /-- The reads answered by a block from the source. -/
  misses : Nat := 0
  /-- The reads that reached the source, also those that failed. -/
  sourceReads : Nat := 0
  deriving Repr, Inhabited

namespace BlockCache

/-- A cache without blocks; it keeps at least one. -/
def ofCapacity (capacity : Nat) : BlockCache :=
  { capacity := max capacity 1 }

/-- The greatest capacity that addresses of 64 bits have room for: the places of the table are a
power of two, a place takes seventeen bytes, and seven places of eight may be filled. -/
def maxCapacity : Nat := 0x380000000000000

/-- Whether addresses have room for the cache.  A program that asks for another one stops. -/
def hasRoom (cache : BlockCache) : Bool :=
  cache.capacity ≤ maxCapacity

/-- The block at a height, from the cache or else from the source, and the cache afterwards. -/
def read (source : Int32 → Answer Block) (height : Int32) (cache : BlockCache) :
    Answer Block × BlockCache :=
  match cache.entries.lookup height with
  | some block =>
    (.ok block,
      { cache with
        entries := (height, block) :: cache.entries.filter (·.1 ≠ height)
        hits := cache.hits + 1 })
  | none =>
    match source height with
    | .ok block =>
      (.ok block,
        { cache with
          entries := ((height, block) :: cache.entries).take cache.capacity
          misses := cache.misses + 1
          sourceReads := cache.sourceReads + 1 })
    | .error error => (.error error, { cache with sourceReads := cache.sourceReads + 1 })

/-- The answers to a row of reads, and the cache afterwards. -/
def readEach (source : Int32 → Answer Block) :
    List Int32 → BlockCache → List (Answer Block × BlockCache)
  | [], _ => []
  | height :: rest, cache =>
    let answered := cache.read source height
    answered :: readEach source rest answered.2

end BlockCache

end CoinLedger
