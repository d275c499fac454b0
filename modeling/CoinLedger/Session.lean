import CoinLedger.Ledger
import CoinLedger.Ledger.BlockCache
import CoinLedger.Session.Clock
import CoinLedger.Session.Metrics

/-!
# Sessions

A session is what queries leave behind: how often the clock was read and the time of day asked for,
how often a block was read from the ledger, and the metrics.  A query also keeps the blocks that it
reads in a cache of its own.  A query that fails leaves behind what it did before it failed.
-/

set_option autoImplicit false

namespace CoinLedger

/-- What the queries of one session read from. -/
structure Source where
  ledger : Ledger
  clock : Clock
  network : Network := {}

/-- What queries leave behind. -/
structure Session where
  /-- How often the clock was read. -/
  clockReads : Nat := 0
  /-- How often the time of day was asked for. -/
  timeReads : Nat := 0
  /-- How often a block was read from the ledger. -/
  blockReads : Nat := 0
  /-- The blocks that the running query keeps. -/
  cache : BlockCache := {}
  /-- What queries reported, the latest first. -/
  events : List MetricEvent := []

/-- A step that changes the session and cannot fail. -/
abbrev Action := StateM Session

/-- A query: it ends with an answer or an error, and changes the session either way. -/
abbrev Query := ExceptT QueryError Action

namespace Action

/-- Reports an event. -/
def report (event : MetricEvent) : Action Unit :=
  modify fun session => { session with events := event :: session.events }

end Action

namespace Query

/-- Runs a query in a session. -/
def runIn {α : Type} (query : Query α) (session : Session) : Answer α × Session :=
  (query.run).run session

/-- Ends with a given answer or error. -/
def ofAnswer {α : Type} (answer : Answer α) : Query α :=
  ExceptT.mk (pure answer)

/-- Starts an empty cache of the given capacity, if there is room for it. -/
def useCache (capacity : Nat) : Query Unit := do
  let cache := BlockCache.ofCapacity capacity
  if !cache.hasRoom then throw .stopped
  modify fun session => { session with cache }

end Query

namespace Source

/-- Reads the clock. -/
def now (source : Source) : Action Nat :=
  modifyGet fun session =>
    (source.clock.reading session.clockReads, { session with clockReads := session.clockReads + 1 })

/-- Asks the clock for the time of day. -/
def timeOfDay (source : Source) : Action Int64 :=
  modifyGet fun session =>
    (source.clock.unixTime session.timeReads, { session with timeReads := session.timeReads + 1 })

/-- The time that locks by time are measured against: the median time past of the tip, or the time
of day without a tip. -/
def askReferenceTime (source : Source) : Action Int64 :=
  match source.ledger.medianTimePast with
  | some time => pure time
  | none => source.timeOfDay

/-- Reads a block from the ledger. -/
def readBlock (source : Source) (height : Int32) : Query Block := do
  modify fun session => { session with blockReads := session.blockReads + 1 }
  Query.ofAnswer (source.ledger.readBlock height)

/-- The session after a read through the cache that left the cache in a new state. -/
def afterCachedRead (session : Session) (cache : BlockCache) : Session :=
  { session with
    blockReads := session.blockReads + (cache.sourceReads - session.cache.sourceReads)
    cache
    events :=
      List.replicate (cache.hits - session.cache.hits) .cachedRead ++
        List.replicate (cache.misses - session.cache.misses) .ledgerRead ++ session.events }

/-- Reads a block through the cache of the query. -/
def readCached (source : Source) (height : Int32) : Query Block := do
  let session ← get
  let (answer, cache) := session.cache.read source.ledger.readBlock height
  set (afterCachedRead session cache)
  Query.ofAnswer answer

end Source

end CoinLedger
