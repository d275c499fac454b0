import CoinLedger.Proofs.Answer
import CoinLedger.Proofs.LockTimes

/-!
# Queries through the cache

A cache is faithful when every block that it keeps is the one that the ledger answers for its
height.  An empty cache is faithful, and every read through a faithful cache answers what the ledger
answers and leaves a faithful cache (`readCached_answers`).  A query built from such reads has an
answer that depends on one thing of the session, how often the time of day was asked for before
(`Query.Answers`); the lock of a record is one (`checkTimeLockCached_answers`).  None of them reads
the clock for its own sake.  A query without a cache that asks neither the clock nor the session for
anything has its answer in every session (`Query.Always`).
-/

set_option autoImplicit false

namespace CoinLedger

namespace BlockCache

variable {source : Int32 → Answer Block}

/-- Every kept block is what the source answers for its height. -/
def Faithful (source : Int32 → Answer Block) (cache : BlockCache) : Prop :=
  ∀ height block, (height, block) ∈ cache.entries → source height = .ok block

theorem faithful_ofCapacity (capacity : Nat) : Faithful source (ofCapacity capacity) := by
  intro height block member
  cases member

theorem lookup_mem {entries : List (Int32 × Block)} {height : Int32} {block : Block}
    (found : entries.lookup height = some block) : (height, block) ∈ entries := by
  obtain ⟨before, after, rfl, _⟩ := List.lookup_eq_some_iff.mp found
  simp

/-- A read through a faithful cache answers what the source answers. -/
theorem Faithful.read_fst {cache : BlockCache} (faithful : cache.Faithful source)
    (height : Int32) : (cache.read source height).1 = source height := by
  unfold read
  cases found : cache.entries.lookup height with
  | some block => exact (faithful height block (lookup_mem found)).symm
  | none => cases source height <;> rfl

theorem Faithful.read_snd {cache : BlockCache} (faithful : cache.Faithful source)
    (height : Int32) : (cache.read source height).2.Faithful source := by
  unfold read
  cases found : cache.entries.lookup height with
  | some block =>
      intro other kept member
      rcases List.mem_cons.mp member with equal | member
      · cases equal
        exact faithful height block (lookup_mem found)
      · exact faithful other kept (List.mem_filter.mp member).1
  | none =>
      cases answered : source height with
      | error fault => exact faithful
      | ok block =>
          intro other kept member
          rcases List.mem_cons.mp (List.mem_of_mem_take member) with equal | member
          · cases equal
            exact answered
          · exact faithful other kept member

/-- A cache has room up to the greatest capacity. -/
theorem hasRoom_ofCapacity_iff {capacity : Nat} :
    (ofCapacity capacity).hasRoom = true ↔ capacity ≤ maxCapacity := by
  rw [hasRoom, decide_eq_true_eq, ofCapacity, maxCapacity]
  dsimp only
  omega

end BlockCache

/-- An action followed by another one goes on in the session that is left. -/
theorem Action.run_bind {α β : Type} (action : Action α) (next : α → Action β)
    (session : Session) :
    (action >>= next).run session =
      (next (action.run session).1).run (action.run session).2 := rfl

namespace Query

variable {α β : Type}

theorem run_run (query : Query α) (session : Session) :
    query.run.run session = query.runIn session := rfl

/-- An action cannot fail. -/
theorem runIn_liftM (action : Action α) (session : Session) :
    (liftM action : Query α).runIn session =
      (.ok (action.run session).1, (action.run session).2) := rfl

/-- The query ends with its answer in every session whose cache is faithful; the answer depends on
how often the time of day was asked for before, and a query that has one asks for it so many times
more.  The cache stays faithful and the clock is not read. -/
def Answers (source : Source) (query : Query α) (asks : Nat) (answer : Nat → Answer α) : Prop :=
  ∀ session : Session, session.cache.Faithful source.ledger.readBlock →
    ∃ after : Session, query.runIn session = (answer session.timeReads, after) ∧
      after.cache.Faithful source.ledger.readBlock ∧ after.clockReads = session.clockReads ∧
      ∀ value, answer session.timeReads = .ok value → after.timeReads = session.timeReads + asks

variable {source : Source}

theorem Answers.eq_ok {query : Query α} {asks : Nat} {answer : Nat → Answer α}
    (answers : Answers source query asks answer) {session after : Session}
    (faithful : session.cache.Faithful source.ledger.readBlock) {value : α}
    (answered : query.runIn session = (.ok value, after)) :
    answer session.timeReads = .ok value ∧ after.timeReads = session.timeReads + asks := by
  obtain ⟨other, run, -, -, later⟩ := answers session faithful
  obtain ⟨same, rfl⟩ := Prod.mk.inj (run.symm.trans answered)
  exact ⟨same, later value same⟩

theorem answers_ofAnswer (answer : Answer α) :
    Answers source (ofAnswer answer) 0 fun _ => answer :=
  fun session faithful => ⟨session, rfl, faithful, rfl, fun _ _ => rfl⟩

theorem answers_pure (value : α) : Answers source (pure value) 0 fun _ => .ok value :=
  answers_ofAnswer (.ok value)

/-- What a query answers may be put in another form. -/
theorem Answers.congr {query : Query α} {asks others : Nat} {answer other : Nat → Answer α}
    (answers : Answers source query asks answer) (asked : asks = others)
    (same : ∀ reads, answer reads = other reads) : Answers source query others other := by
  obtain rfl : answer = other := funext same
  exact asked ▸ answers

/-- An error ends a query; otherwise the next one goes on in the session that is left. -/
theorem runIn_bind (query : Query α) (next : α → Query β) (session : Session) :
    (query >>= next).runIn session =
      match query.runIn session with
      | (.ok value, middle) => (next value).runIn middle
      | (.error fault, middle) => (.error fault, middle) := by
  change (ExceptT.bindCont next (query.runIn session).1).run (query.runIn session).2 = _
  rcases query.runIn session with ⟨fault | value, middle⟩ <;> rfl

/-- A query in two steps ends with a value when both of them do. -/
theorem runIn_bind_eq_ok {query : Query α} {next : α → Query β} {session after : Session}
    {value : β} :
    (query >>= next).runIn session = (.ok value, after) ↔
      ∃ first middle, query.runIn session = (.ok first, middle) ∧
        (next first).runIn middle = (.ok value, after) := by
  rw [runIn_bind]
  rcases query.runIn session with ⟨fault | first, middle⟩
  · exact ⟨nofun, fun ⟨_, _, impossible, _⟩ => nomatch impossible⟩
  · constructor
    · intro goes
      exact ⟨first, middle, rfl, goes⟩
    · rintro ⟨_, _, same, goes⟩
      cases same
      exact goes

theorem runIn_ofAnswer_eq_ok {answer : Answer α} {session after : Session} {value : α}
    (answered : (ofAnswer answer).runIn session = (.ok value, after)) :
    answer = .ok value ∧ after = session := by
  obtain ⟨same, rfl⟩ := Prod.mk.inj answered
  exact ⟨same, rfl⟩

/-- An answer in front of a query leaves the session as it is. -/
theorem runIn_ofAnswer_bind_eq_ok {answer : Answer α} {next : α → Query β}
    {session after : Session} {value : β}
    (answered : (ofAnswer answer >>= next).runIn session = (.ok value, after)) :
    ∃ first, answer = .ok first ∧ (next first).runIn session = (.ok value, after) := by
  obtain ⟨first, _, found, goes⟩ := runIn_bind_eq_ok.mp answered
  obtain ⟨same, rfl⟩ := runIn_ofAnswer_eq_ok found
  exact ⟨first, same, goes⟩

/-- **A query in two steps asks for the time of day as often as both of them.** -/
theorem Answers.bind_of_ok {query : Query α} {asks more : Nat} {answer : Nat → Answer α}
    {next : α → Query β} {nextAnswer : α → Nat → Answer β}
    (first : Answers source query asks answer)
    (second : ∀ reads value, answer reads = .ok value →
      Answers source (next value) more (nextAnswer value)) :
    Answers source (query >>= next) (asks + more)
      fun reads => answer reads >>= fun value => nextAnswer value (reads + asks) := by
  intro session faithful
  obtain ⟨middle, run, faithful, reads, asked⟩ := first session faithful
  rw [runIn_bind, run]
  dsimp only
  cases found : answer session.timeReads with
  | error fault => exact ⟨middle, rfl, faithful, reads, nofun⟩
  | ok value =>
      obtain ⟨after, run, faithful, later, more⟩ := second _ value found middle faithful
      rw [asked value found] at run more
      refine ⟨after, run, faithful, later.trans reads, fun last answered => ?_⟩
      rw [more last answered, Nat.add_assoc]

theorem Answers.bind {query : Query α} {asks more : Nat} {answer : Nat → Answer α}
    {next : α → Query β} {nextAnswer : α → Nat → Answer β}
    (first : Answers source query asks answer)
    (second : ∀ value, Answers source (next value) more (nextAnswer value)) :
    Answers source (query >>= next) (asks + more)
      fun reads => answer reads >>= fun value => nextAnswer value (reads + asks) :=
  first.bind_of_ok fun _ value _ => second value

theorem fst_ofAnswer_bind (answer : Answer α) (next : α → Query β) (session : Session) :
    ((ofAnswer answer >>= next).runIn session).1 =
      answer >>= fun value => ((next value).runIn session).1 := by
  rw [runIn_bind]
  cases answer <;> rfl

/-- A cache is started empty where there is room for it. -/
theorem runIn_useCache (capacity : Nat) (session : Session) :
    (useCache capacity).runIn session =
      if capacity ≤ BlockCache.maxCapacity then
        (.ok (), { session with cache := .ofCapacity capacity })
      else (.error .stopped, session) := by
  rw [useCache]
  by_cases room : capacity ≤ BlockCache.maxCapacity
  · rw [if_pos room, BlockCache.hasRoom_ofCapacity_iff.mpr room]
    rfl
  · rw [if_neg room, Bool.eq_false_iff.mpr (mt BlockCache.hasRoom_ofCapacity_iff.mp room)]
    rfl

/-- A query with room for a cache goes on with an empty one, and any other query is stopped. -/
theorem runIn_useCache_bind (capacity : Nat) (next : Unit → Query α) (session : Session) :
    (useCache capacity >>= next).runIn session =
      if capacity ≤ BlockCache.maxCapacity then
        (next ()).runIn { session with cache := .ofCapacity capacity }
      else (.error .stopped, session) := by
  rw [runIn_bind, runIn_useCache]
  by_cases room : capacity ≤ BlockCache.maxCapacity
  · rw [if_pos room, if_pos room]
  · rw [if_neg room, if_neg room]

/-- A query that starts with an empty cache answers the same in all sessions in which the time of
day was asked for equally often. -/
theorem fst_useCache_bind {capacity asks : Nat} {next : Unit → Query α} {answer : Nat → Answer α}
    (answers : Answers source (next ()) asks answer) (session : Session) :
    ((useCache capacity >>= next).runIn session).1 =
      if capacity ≤ BlockCache.maxCapacity then answer session.timeReads else .error .stopped := by
  have faithful : ({ session with cache := .ofCapacity capacity } : Session).cache.Faithful
      source.ledger.readBlock := BlockCache.faithful_ofCapacity capacity
  obtain ⟨after, run, _⟩ := answers _ faithful
  rw [runIn_useCache_bind]
  split
  · exact congrArg Prod.fst run
  · rfl

/-- Reporting an event has no other effect. -/
theorem answers_report (event : MetricEvent) :
    Answers source (liftM (Action.report event) : Query Unit) 0 fun _ => .ok () :=
  fun _ faithful => ⟨_, rfl, faithful, rfl, fun _ _ => rfl⟩

/-- The query ends with the given answer in every session. -/
def Always (query : Query α) (answer : Answer α) : Prop :=
  ∀ session : Session, (query.runIn session).1 = answer

theorem always_ofAnswer (answer : Answer α) : Always (ofAnswer answer) answer := fun _ => rfl

theorem Always.bind {query : Query α} {answer : Answer α} {next : α → Query β}
    {nextAnswer : α → Answer β} (first : Always query answer)
    (second : ∀ value, Always (next value) (nextAnswer value)) :
    Always (query >>= next) (answer >>= nextAnswer) := by
  intro session
  rw [runIn_bind, ← first session]
  rcases query.runIn session with ⟨fault | value, middle⟩
  · rfl
  · exact second value middle

theorem fst_report_bind (event : MetricEvent) (next : Unit → Query α) (session : Session) :
    (((liftM (Action.report event) : Query Unit) >>= next).runIn session).1 =
      ((next ()).runIn { session with events := event :: session.events }).1 := by
  rw [runIn_bind]
  rfl

end Query

namespace Source

variable {source : Source}

/-- **A read through the cache answers what the ledger answers.** -/
theorem readCached_answers (height : Int32) :
    Query.Answers source (source.readCached height) 0 fun _ => source.ledger.readBlock height := by
  intro session faithful
  exact ⟨afterCachedRead session (session.cache.read source.ledger.readBlock height).2,
    Prod.ext (faithful.read_fst height) rfl, faithful.read_snd height, rfl, fun _ _ => rfl⟩

/-- A read without the cache answers what the ledger answers. -/
theorem readBlock_always (height : Int32) :
    Query.Always (source.readBlock height) (source.ledger.readBlock height) := fun _ => rfl

/-- Looking at an output asks for the time of day if that is needed, and does nothing else. -/
theorem isLockedNow_run (source : Source) (output : Option TxOutput) (session : Session) :
    (source.isLockedNow output).run session =
      (source.lockedAt (source.referenceTime session.timeReads) output,
        { session with timeReads := session.timeReads + source.lookReads output }) := by
  cases output with
  | none =>
      rw [lookReads]
      cases source.ledger.medianTimePast <;> rfl
  | some output =>
      rw [isLockedNow, Action.run_bind, askReferenceTime, referenceTime, lookReads]
      cases source.ledger.medianTimePast <;> rfl

/-- An output that is looked at is locked as its lock says at that time. -/
theorem isLockedNow_answers (output : Option TxOutput) :
    Query.Answers source (liftM (source.isLockedNow output) : Query Bool)
      (source.lookReads output)
      fun reads => .ok (source.lockedAt (source.referenceTime reads) output) := by
  intro session faithful
  rw [Query.runIn_liftM, isLockedNow_run]
  exact ⟨_, rfl, faithful, rfl, fun _ _ => rfl⟩

/-- **A lock decided through the cache is the lock of the record** at that time. -/
theorem checkTimeLockCached_answers (height : Int32) (txid : Txid) (key : AddressKey) :
    Query.Answers source (source.checkTimeLockCached height txid key)
      (source.timeReads height txid key)
      fun reads => source.isTimeLocked (source.referenceTime reads) height txid key := by
  -- The output that decides the lock does not depend on the time, so it is known how often it asks.
  have decides : ∀ output, source.lockOutput height txid key = .ok output →
      Query.Answers source (liftM (source.isLockedNow output) : Query Bool)
        (source.timeReads height txid key)
        fun reads => .ok (source.lockedAt (source.referenceTime reads) output) := by
    intro output found
    rw [timeReads, found]
    exact isLockedNow_answers output
  refine ((readCached_answers height).bind_of_ok fun _ block read =>
    (Query.answers_ofAnswer (block.outputTo height txid key)).bind_of_ok fun _ output found =>
      decides output (Answer.bind_eq_ok.mpr ⟨block, read, found⟩)).congr (by omega) fun reads => ?_
  rw [isTimeLocked, lockOutput]
  cases source.ledger.readBlock height with
  | error fault => rfl
  | ok block =>
      cases found : block.outputTo height txid key <;>
        simp [found, bind, Except.bind, Except.map]

/-- A lock decided with a read from the ledger is the lock of the record at the reference time. -/
theorem checkTimeLock_runIn (height : Int32) (txid : Txid) (key : AddressKey) (session : Session) :
    ((source.checkTimeLock height txid key).runIn session).1 =
      source.isTimeLocked (source.referenceTime session.timeReads) height txid key := by
  have read : (source.readBlock height).runIn session = (source.ledger.readBlock height,
      { session with blockReads := session.blockReads + 1 }) := rfl
  rw [checkTimeLock, Query.runIn_bind, read, isTimeLocked, lockOutput]
  cases source.ledger.readBlock height with
  | error fault => rfl
  | ok block =>
      dsimp only
      rw [Query.fst_ofAnswer_bind]
      cases found : block.outputTo height txid key with
      | error fault => simp [found, bind, Except.bind, Except.map]
      | ok output =>
          simp [found, bind, Except.bind, Except.map, Query.runIn_liftM, isLockedNow_run]

end Source

end CoinLedger
