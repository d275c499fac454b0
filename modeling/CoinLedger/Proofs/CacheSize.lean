import CoinLedger.Proofs.Balance.Batch
import CoinLedger.Proofs.BlockCache
import CoinLedger.Proofs.Selection.Run

/-!
# The size of the cache

A scan hides its cache: it does the same in all sessions whose clocks were read and asked for the
time of day equally often and whose caches are faithful (`Action.Hides`).  Actions that hide the
cache can be done one after the other (`Hides.bind`), so the search of a selection hides it.  The
size of the cache of a request therefore decides one thing only, whether there is room for it
(`caching_transparent`).
-/

set_option autoImplicit false

namespace CoinLedger

/-! ## Actions that hide the cache -/

/-- Sessions with faithful caches whose clocks were read and asked for the time of day equally
often. -/
structure Session.Alike (source : Source) (first second : Session) : Prop where
  clockReads : first.clockReads = second.clockReads
  timeReads : first.timeReads = second.timeReads
  faithful : first.cache.Faithful source.ledger.readBlock
  otherFaithful : second.cache.Faithful source.ledger.readBlock

namespace Action

variable {α β : Type} {source : Source}

/-- The action does the same in sessions that are alike. -/
structure Hides (source : Source) (action : Action α) : Prop where
  answer : ∀ {first second : Session}, Session.Alike source first second →
    (action.run first).1 = (action.run second).1
  alike : ∀ {first second : Session}, Session.Alike source first second →
    Session.Alike source (action.run first).2 (action.run second).2

theorem hides_pure (value : α) : Hides source (pure value) where
  answer _ := rfl
  alike same := same

/-- **Actions that hide the cache hide it when they are done one after the other.** -/
theorem Hides.bind {action : Action α} {next : α → Action β} (first : Hides source action)
    (second : ∀ value, Hides source (next value)) : Hides source (action >>= next) where
  answer {one other} same := by
    rw [run_bind, run_bind, first.answer same]
    exact (second _).answer (first.alike same)
  alike {one other} same := by
    rw [run_bind, run_bind, first.answer same]
    exact (second _).alike (first.alike same)

theorem hides_now : Hides source source.now where
  answer same := congrArg source.clock.reading same.clockReads
  alike same := { same with clockReads := congrArg Nat.succ same.clockReads }

theorem hides_timeOfDay : Hides source source.timeOfDay where
  answer same := congrArg source.clock.unixTime same.timeReads
  alike same := { same with timeReads := congrArg Nat.succ same.timeReads }

/-- A query hides the cache when its parts do. -/
theorem Hides.query_bind {query : Query α} {next : α → Query β} (first : Hides source query.run)
    (second : ∀ value, Hides source (next value).run) : Hides source (query >>= next).run := by
  have goesOn : ∀ answer, Hides source (ExceptT.bindCont next answer) := by
    intro answer
    cases answer with
    | error error => exact hides_pure (Except.error error)
    | ok value => exact second value
  exact first.bind goesOn

theorem hides_ofAnswer (answer : Answer α) : Hides source (Query.ofAnswer answer).run :=
  hides_pure answer

theorem hides_liftM {action : Action α} (hides : Hides source action) :
    Hides source (liftM action : Query α).run :=
  hides.bind fun _ => hides_pure _

end Action

open CoinLedger.Action

/-! ## The search of a selection -/

namespace Source

variable {source : Source}

theorem hides_readCached (height : Int32) : Hides source (source.readCached height).run where
  answer same := (same.faithful.read_fst height).trans (same.otherFaithful.read_fst height).symm
  alike same := ⟨same.clockReads, same.timeReads, same.faithful.read_snd height,
    same.otherFaithful.read_snd height⟩

theorem hides_isLockedNow (output : Option TxOutput) :
    Hides source (source.isLockedNow output) := by
  cases output with
  | none => exact hides_pure false
  | some output =>
      have asks : Hides source source.askReferenceTime := by
        unfold askReferenceTime
        cases source.ledger.medianTimePast with
        | none => exact hides_timeOfDay
        | some time => exact hides_pure time
      exact asks.bind fun _ => hides_pure _

theorem hides_checkTimeLockCached (height : Int32) (txid : Txid) (key : AddressKey) :
    Hides source (source.checkTimeLockCached height txid key).run :=
  (hides_readCached height).query_bind fun _ =>
    (hides_ofAnswer _).query_bind fun output => hides_liftM (hides_isLockedNow output)

end Source

namespace ScanPlan

variable {σ : Type} (plan : ScanPlan σ)

theorem hides_expired : Hides plan.source plan.expired :=
  hides_now.bind fun _ => hides_pure _

theorem hides_usableOutputs (outputs : List UnspentOutput) :
    Hides plan.source (plan.usableOutputs outputs).run := by
  induction outputs with
  | nil => exact hides_ofAnswer (.ok [])
  | cons output rest ih =>
      exact (Source.hides_checkTimeLockCached _ _ _).query_bind fun locked =>
        (hides_ofAnswer _).query_bind fun kept => ih.query_bind fun usable =>
          hides_ofAnswer (.ok _)

theorem hides_walk (order : List UnspentOutput) (candidate : Solution) :
    Hides plan.source (plan.walk order candidate) := by
  induction order generalizing candidate with
  | nil => exact hides_pure _
  | cons output rest ih =>
      refine plan.hides_expired.bind fun late => ?_
      split
      · exact hides_pure _
      cases candidate.addChecked plan.tuning.fee output with
      | error _ => exact hides_pure _
      | ok candidate =>
          dsimp only
          split
          · exact hides_pure _
          · exact ih candidate

theorem hides_scanSlices (slices : List Nat) (scan : Scan σ) :
    Hides plan.source (plan.scanSlices slices scan) := by
  induction slices generalizing scan with
  | nil => exact hides_pure _
  | cons slice rest ih =>
      refine plan.hides_expired.bind fun late => ?_
      split
      · exact hides_pure _
      refine (plan.hides_usableOutputs _).bind fun looked => ?_
      cases looked with
      | error error => exact hides_pure _
      | ok fresh =>
          dsimp only
          generalize plan.arrange scan.fetch fresh = arranged
          refine (plan.hides_walk _ _).bind fun walked => ?_
          obtain ⟨ended, candidate⟩ := walked
          cases ended with
          -- A walk that is exhausted and one that covers the request go on in the same way.
          | exhausted | covered =>
              dsimp only
              split
              · exact hides_pure _
              · generalize plan.afterWalk _ candidate _ = outcome
                obtain ⟨next, goesOn⟩ := outcome
                cases goesOn with
                | false => exact hides_pure _
                | true => exact ih next
          | expired | stopped => exact hides_pure _

/-- The plan with a cache of another size. -/
def withCache (size : Nat) : ScanPlan σ :=
  { plan with tuning := { plan.tuning with blockCacheSize := size } }

theorem usableOutputs_withCache (size : Nat) (outputs : List UnspentOutput) :
    (plan.withCache size).usableOutputs outputs = plan.usableOutputs outputs := by
  induction outputs with
  | nil => rfl
  | cons output rest ih =>
      rw [usableOutputs, usableOutputs, ih]
      rfl

theorem walk_withCache (size : Nat) (order : List UnspentOutput) (candidate : Solution) :
    (plan.withCache size).walk order candidate = plan.walk order candidate := by
  induction order generalizing candidate with
  | nil => rfl
  | cons output rest ih =>
      simp only [walk, ih]
      rfl

/-- A scan does not ask how large the cache is. -/
theorem scanSlices_withCache (size : Nat) (slices : List Nat) (scan : Scan σ) :
    (plan.withCache size).scanSlices slices scan = plan.scanSlices slices scan := by
  induction slices generalizing scan with
  | nil => rfl
  | cons slice rest ih =>
      simp only [scanSlices, ih, usableOutputs_withCache, walk_withCache]
      rfl

theorem hides_search (seed : σ) : Hides plan.source (plan.search seed) := by
  refine (plan.hides_scanSlices _ _).bind fun scanned => ?_
  have concludes : Hides plan.source
      (plan.source.concludeScan plan.request plan.deadline scanned.1 scanned.2.best) := by
    obtain ⟨ending, scan⟩ := scanned
    cases ending with
    | failed error => exact hides_pure _
    | finished => cases scan.best <;> exact hides_pure _
    | expired =>
        cases scan.best with
        | some solution => exact hides_pure _
        | none => exact hides_now.bind fun _ => hides_pure _
  exact concludes.bind fun _ => hides_pure _

theorem search_withCache (size : Nat) (seed : σ) :
    (plan.withCache size).search seed = plan.search seed := by
  rw [search, search]
  have scans := plan.scanSlices_withCache size (plan.visits seed) (plan.opening seed)
  exact congrArg (· >>= _) scans

end ScanPlan

/-! ## All sizes -/

namespace Source

variable {source : Source} {σ : Type}

/-- A selection asks nothing of its cache but that there is room for it. -/
theorem select_withCache (tuning : SelectionTuning) (random : RandomSource σ) (seed : σ)
    (address : String) (request : SelectionRequest) (session : Session) {size : Nat}
    (small : size ≤ BlockCache.maxCapacity)
    (room : tuning.blockCacheSize ≤ BlockCache.maxCapacity) :
    ((source.select { tuning with blockCacheSize := size } random seed address request).run
        session).1 =
      ((source.select tuning random seed address request).run session).1 := by
  rw [select_run, select_run]
  split
  · rfl
  next key _ =>
    obtain ⟨plan, planned⟩ : ∃ plan,
        plan = source.scanPlan tuning random request key session := ⟨_, rfl⟩
    have other : plan.withCache size =
        source.scanPlan { tuning with blockCacheSize := size } random request key session := by
      rw [planned]
      rfl
    dsimp only
    rw [solve_run planned, solve_run other, if_pos room, if_pos small]
    split
    · rfl
    · have alike : Session.Alike plan.source ((plan.withCache size).openingSession session)
          (plan.openingSession session) :=
        ⟨rfl, rfl, BlockCache.faithful_ofCapacity _, BlockCache.faithful_ofCapacity _⟩
      rw [plan.search_withCache]
      exact congrArg Prod.fst ((plan.hides_search seed).answer alike)

/-- A selection that would scan is stopped without room for its cache. -/
theorem select_without_room {tuning : SelectionTuning} {random : RandomSource σ} {seed : σ}
    {address : String} {request : SelectionRequest} {key : AddressKey} (session : Session)
    (large : BlockCache.maxCapacity < tuning.blockCacheSize)
    (accepted : Amount.check request.amount = .ok ())
    (resolved : source.network.resolve address = .ok key)
    (listed : source.ledger.unspentCount key ≠ 0) :
    ((source.select tuning random seed address request).run session).1 = .error .stopped := by
  rw [select_run, accepted, resolved]
  dsimp only [Except.bind]
  rw [solve_run rfl, if_neg listed, if_neg (Nat.not_le_of_lt large)]

/-- The size of the cache decides whether there is room for it, and nothing else. -/
structure SizeTransparent (source : Source) (session : Session) : Prop where
  balances : ∀ size addresses, ((source.balances size addresses).runIn session).1 =
    if size ≤ BlockCache.maxCapacity then source.batchAnswer addresses.eraseDups session.timeReads
    else .error .stopped
  select : ∀ {σ : Type} (tuning : SelectionTuning) (random : RandomSource σ) (seed : σ)
    (address : String) (request : SelectionRequest), ∀ size ≤ BlockCache.maxCapacity,
      tuning.blockCacheSize ≤ BlockCache.maxCapacity →
      ((source.select { tuning with blockCacheSize := size } random seed address request).run
          session).1 =
        ((source.select tuning random seed address request).run session).1
  /-- A selection that would scan is stopped when there is no room. -/
  selectFull : ∀ {σ : Type} (tuning : SelectionTuning) (random : RandomSource σ) (seed : σ)
    (address : String) (request : SelectionRequest) (key : AddressKey),
      BlockCache.maxCapacity < tuning.blockCacheSize →
      Amount.check request.amount = .ok () → source.network.resolve address = .ok key →
      source.ledger.unspentCount key ≠ 0 →
      ((source.select tuning random seed address request).run session).1 = .error .stopped

theorem sizeTransparent (source : Source) (session : Session) : SizeTransparent source session where
  balances size addresses := source.balances_runIn size addresses session
  select tuning random seed address request _ small room :=
    select_withCache tuning random seed address request session small room
  selectFull _ _ _ _ _ _ large accepted resolved listed :=
    select_without_room session large accepted resolved listed

/-- **Caching is transparent.**  The reads of a cache are those of its source, its counters are
exact, and the size of the cache of a request decides only whether there is room for it. -/
theorem caching_transparent (source : Source) (session : Session) :
    (∀ (view : Int32 → Answer Block) (capacity : Nat) (reads : List Int32),
        BlockCache.ReadsThrough view capacity reads) ∧
      (∀ capacity, (BlockCache.ofCapacity capacity).hasRoom = true ↔
        capacity ≤ BlockCache.maxCapacity) ∧
      SizeTransparent source session :=
  ⟨BlockCache.readsThrough, fun _ => BlockCache.hasRoom_ofCapacity_iff,
    sizeTransparent source session⟩

/-- A ledger with two blocks. -/
def twoBlocks : Source where
  ledger :=
    { tipHeight := 100
      blocks := [⟨1, default, 1001, []⟩, ⟨2, default, 1002, []⟩] }
  clock := .frozen

/-- Through a cache for one block a block is read again after another one, and so is a block that
the ledger does not have. -/
theorem caching_transparent_evicting :
    BlockCache.ReadsThrough twoBlocks.ledger.readBlock 0 [1, 2, 1, 1, 9, 9] ∧
      (BlockCache.readAll twoBlocks.ledger.readBlock [1, 2, 1, 1, 9, 9] (.ofCapacity 0)).hits = 1 ∧
      (BlockCache.readAll twoBlocks.ledger.readBlock [1, 2, 1, 1, 9, 9]
        (.ofCapacity 0)).sourceReads = 5 ∧
      ((twoBlocks.balances 0 [AddressKey.onesAddress]).runIn {}).1 =
        ((twoBlocks.balances 256 [AddressKey.onesAddress]).runIn {}).1 := by
  obtain ⟨reads, -, sizes⟩ := caching_transparent twoBlocks {}
  refine ⟨reads _ 0 _, by decide +kernel, by decide +kernel, ?_⟩
  rw [sizes.balances, sizes.balances, if_pos (by decide), if_pos (by decide)]

/-- A key with one confirmed receipt. -/
def receivedOnce : Source :=
  .ofChanges (.ofOutputs [⟨1000, Script.payTo .ones⟩]) [⟨default, 10, false, 1000⟩] [] []

/-- A batch that is answered with the usual cache is stopped with the largest size that a setting
can have. -/
theorem balance_unanswered_without_room :
    (∃ report, ((receivedOnce.balances 256 [AddressKey.onesAddress]).runIn {}).1 = .ok report) ∧
      ((receivedOnce.balances 18446744073709551615 [AddressKey.onesAddress]).runIn {}).1 =
        .error .stopped := by
  have evaluated : receivedOnce.evaluate AddressKey.onesAddress .ones ({} : Session).timeReads =
      .ok ⟨AddressKey.onesAddress, 1000, 0, 1000, 0⟩ :=
    Answer.eq_ok_of_toOption (by decide +kernel)
  constructor
  · rw [balances_runIn, if_pos (by decide), List.eraseDups_cons, List.filter_nil,
      List.eraseDups_nil, batchAnswer_singleton Network.resolve_onesAddress, evaluated]
    exact ⟨_, rfl⟩
  · rw [balances_runIn, if_neg (by decide)]

end Source

end CoinLedger
