import CoinLedger.Proofs.Address
import CoinLedger.Proofs.Balance.Address
import CoinLedger.Proofs.Balance.Sums
import CoinLedger.Proofs.Distinct

/-!
# Batches of balances

A batch looks at each distinct text once, in the order of first appearance, and looks up the locks
of all addresses in that order.  Its answer depends on its distinct texts and on the times of these
lookups alone (`balances_runIn`), once there is room for the cache.  A report shows the exact totals
of every text that resolves, an error for every other one, and the open changes of all texts
together by transaction (`reports_of_batchAnswer`).  Where every sum on the way is an amount, only a
lookup that fails ends the batch (`exists_addBatch_eq`).
-/

set_option autoImplicit false

namespace CoinLedger

open Amount

namespace Source

variable {source : Source}

/-! ## The answer of a batch -/

/-- The texts that resolve, each with its key. -/
def evaluated (source : Source) (texts : List String) : List (String × AddressKey) :=
  texts.filterMap fun text => (source.network.keyOf? text).map (text, ·)

/-- The texts that do not resolve, each with its error. -/
def refused (source : Source) (texts : List String) : List AddressFailure :=
  (texts.filter fun text => (source.network.keyOf? text).isNone).map fun text =>
    (text, .invalidAddress text)

/-- The errors of the lookups of locks, in the order in which they are made. -/
def lookupErrors (source : Source) (texts : List String) : List QueryError :=
  (source.evaluated texts).flatMap fun entry =>
    (source.ledger.indexDeltas entry.2).filterMap (source.lookupError? entry.2)

/-- The pending changes of all texts that are not final. -/
def openBatch (source : Source) (texts : List String) : List PendingDelta :=
  (source.evaluated texts).flatMap fun entry => source.openDeltas entry.2

/-- How often the time of day is asked for when a text is evaluated. -/
def entryReads (source : Source) (entry : String × AddressKey) : Nat :=
  ((source.ledger.indexDeltas entry.2).map (source.deltaReads entry.2)).sum

/-- The texts that resolve, each with the number of readings at which its evaluation begins. -/
def entryLooks (source : Source) (texts : List String) (reads : Nat) :
    List ((String × AddressKey) × Nat) :=
  withReads source.entryReads reads (source.evaluated texts)

/-- Adds the balance of a text and its open changes. -/
def addEntry (source : Source) (sums : List BalanceSnapshot × TxidSums)
    (look : (String × AddressKey) × Nat) : Answer (List BalanceSnapshot × TxidSums) := do
  let snapshot ← source.evaluate look.1.1 look.1.2 look.2
  return (sums.1 ++ [snapshot], ← TxidSums.addEach (source.openDeltas look.1.2) sums.2)

/-- The report with the entries of more texts. -/
def addBatch (source : Source) (texts : List String) (reads : Nat) (report : BalanceReport) :
    Answer BalanceReport :=
  ((source.entryLooks texts reads).foldlM source.addEntry
    (report.snapshots, report.unconfirmedByTx)).map fun sums =>
      ⟨sums.1, sums.2, report.failures ++ source.refused texts⟩

/-- A report with a balance, or the error for a batch none of whose texts resolves. -/
def concluded (report : BalanceReport) : Answer BalanceReport :=
  if report.snapshots.isEmpty then .error (.addressNotFound report.failures) else .ok report

/-- The answer of a batch of distinct texts. -/
def batchAnswer (source : Source) (texts : List String) (reads : Nat) : Answer BalanceReport :=
  source.addBatch texts reads {} >>= concluded

theorem map_fst_entryLooks (texts : List String) (reads : Nat) :
    (source.entryLooks texts reads).map Prod.fst = source.evaluated texts :=
  map_fst_withReads _ _ _

theorem openDeltas_entryLooks (texts : List String) (reads : Nat) :
    (source.entryLooks texts reads).flatMap (fun look => source.openDeltas look.1.2) =
      source.openBatch texts := by
  rw [openBatch, ← map_fst_entryLooks texts reads, List.flatMap_map]

theorem keyOf?_of_mem_evaluated {texts : List String} {entry : String × AddressKey}
    (member : entry ∈ source.evaluated texts) :
    source.network.keyOf? entry.1 = some entry.2 := by
  obtain ⟨text, _, known⟩ := List.mem_filterMap.mp member
  obtain ⟨key, spelled, rfl⟩ := Option.map_eq_some_iff.mp known
  exact spelled

theorem addAddress_answers (address : String) (key : AddressKey) (report : BalanceReport) :
    Query.Answers source (source.addAddress address key report) (source.entryReads (address, key))
      fun reads => (source.addEntry (report.snapshots, report.unconfirmedByTx)
        ((address, key), reads)).map fun sums => ⟨sums.1, sums.2, report.failures⟩ := by
  rw [addAddress]
  refine ((addConfirmed_answers key (source.ledger.indexDeltas key) { address }).bind
    fun confirmed => (Query.answers_ofAnswer
      (source.addPending (source.ledger.pendingDeltas key) confirmed)).bind fun snapshot =>
      (Query.answers_ofAnswer (source.addUnconfirmed (source.ledger.pendingDeltas key)
        report.unconfirmedByTx)).bind fun sums =>
          Query.answers_pure _).congr (by simp [entryReads]) fun reads => ?_
  rw [addEntry, evaluate, deltaLooks]
  dsimp only [bind, Except.bind]
  cases (withReads (source.deltaReads key) reads (source.ledger.indexDeltas key)).foldlM
    (source.addLook key) { address } with
  | error error => rfl
  | ok confirmed =>
      dsimp only
      cases source.addPending (source.ledger.pendingDeltas key) confirmed with
      | error error => rfl
      | ok snapshot =>
          have sums : source.addUnconfirmed (source.ledger.pendingDeltas key)
              report.unconfirmedByTx =
            TxidSums.addEach (source.openDeltas key) report.unconfirmedByTx := rfl
          dsimp only
          rw [sums]
          cases TxidSums.addEach (source.openDeltas key) report.unconfirmedByTx <;> rfl

/-- **The texts are added to the report one after the other**, each at its own times. -/
theorem addAddresses_answers (texts : List String) (report : BalanceReport) :
    Query.Answers source (source.addAddresses texts report)
      ((source.evaluated texts).map source.entryReads).sum
      fun reads => source.addBatch texts reads report := by
  induction texts generalizing report with
  | nil =>
      refine (Query.answers_pure report).congr rfl fun reads => ?_
      simp [addBatch, entryLooks, evaluated, refused, Except.map, pure, Except.pure]
  | cons text rest ih =>
      rw [addAddresses]
      rcases source.network.resolve_cases text with ⟨key, resolved, known⟩ | ⟨unresolved, unknown⟩
      · have first : source.evaluated (text :: rest) = (text, key) :: source.evaluated rest := by
          simp [evaluated, known]
        have others : source.refused (text :: rest) = source.refused rest := by
          simp [refused, known]
        rw [resolved]
        refine ((addAddress_answers text key report).bind ih).congr (by simp [first])
          fun reads => ?_
        rw [addBatch, entryLooks, first, others, withReads_cons, List.foldlM_cons]
        dsimp only [bind, Except.bind]
        cases source.addEntry (report.snapshots, report.unconfirmedByTx) ((text, key), reads) <;>
          rfl
      · have nothing : source.evaluated (text :: rest) = source.evaluated rest := by
          simp [evaluated, unknown]
        have others : source.refused (text :: rest) =
            (text, .invalidAddress text) :: source.refused rest := by
          simp [refused, unknown]
        rw [unresolved]
        refine ((Query.answers_report _).bind fun _ => ih _).congr (by simp [nothing])
          fun reads => ?_
        simp [addBatch, entryLooks, nothing, others, bind, Except.bind]

/-- **The answer of a batch depends on its distinct texts and the times of its lookups alone**, when
there is room for its cache; otherwise it is stopped. -/
theorem balances_runIn (cacheSize : Nat) (addresses : List String) (session : Session) :
    ((source.balances cacheSize addresses).runIn session).1 =
      if cacheSize ≤ BlockCache.maxCapacity then
        source.batchAnswer addresses.eraseDups session.timeReads
      else .error .stopped := by
  have concludes : ∀ report : BalanceReport, Query.Answers source
      (if report.snapshots.isEmpty then do
          let _ ← (throw (.addressNotFound report.failures) : Query PUnit)
          pure report
        else pure report) 0
      fun _ => concluded report := by
    intro report
    rw [concluded]
    split
    · exact Query.answers_ofAnswer (.error _)
    · exact Query.answers_pure report
  rw [balances, Query.fst_report_bind]
  exact Query.fst_useCache_bind ((addAddresses_answers addresses.eraseDups {}).bind concludes) _

/-! ## Exact reports -/

/-- The report tells the exact totals of distinct texts, the first of which is evaluated after the
given number of readings. -/
structure Reports (source : Source) (texts : List String) (reads : Nat) (report : BalanceReport) :
    Prop where
  /-- One balance for each text that resolves, in their order. -/
  snapshots : List.Forall₂
    (fun look snapshot => snapshot.address = look.1.1 ∧ source.Balances look.1.2 look.2 snapshot)
    (source.entryLooks texts reads) report.snapshots
  failures : report.failures = source.refused texts
  sums : TxidSums.Holds (source.openBatch texts) report.unconfirmedByTx

/-- Entries that are added without an error have exact totals. -/
theorem reports_of_addEntry {looks : List ((String × AddressKey) × Nat)}
    {before : List PendingDelta} {sums after : List BalanceSnapshot × TxidSums}
    (holds : TxidSums.Holds before sums.2)
    (added : looks.foldlM source.addEntry sums = .ok after) :
    ∃ snapshots, after.1 = sums.1 ++ snapshots ∧
      List.Forall₂
        (fun look snapshot =>
          snapshot.address = look.1.1 ∧ source.Balances look.1.2 look.2 snapshot)
        looks snapshots ∧
      TxidSums.Holds (before ++ looks.flatMap fun look => source.openDeltas look.1.2) after.2 := by
  induction looks generalizing before sums with
  | nil =>
      cases added
      exact ⟨[], (List.append_nil _).symm, .nil, by simpa using holds⟩
  | cons look rest ih =>
      obtain ⟨middle, first, later⟩ := Answer.bind_eq_ok.mp added
      obtain ⟨snapshot, evaluated, first⟩ := Answer.bind_eq_ok.mp first
      obtain ⟨opened, summed, first⟩ := Answer.bind_eq_ok.mp first
      cases first
      obtain ⟨snapshots, same, exact, holds⟩ := ih (holds.addEach summed) later
      refine ⟨snapshot :: snapshots, ?_, .cons (balances_of_evaluate evaluated) exact, ?_⟩
      · rw [same, List.append_assoc, List.singleton_append]
      · rwa [List.flatMap_cons, ← List.append_assoc]

/-- What is added up tells exact totals. -/
theorem reports_of_addBatch {texts : List String} {reads : Nat} {report : BalanceReport}
    (added : source.addBatch texts reads {} = .ok report) : source.Reports texts reads report := by
  obtain ⟨sums, folded, rfl⟩ := Answer.map_eq_ok.mp added
  obtain ⟨snapshots, same, exact, holds⟩ := reports_of_addEntry TxidSums.holds_nil folded
  rw [List.nil_append] at same holds
  rw [openDeltas_entryLooks] at holds
  exact ⟨same ▸ exact, List.nil_append _, holds⟩

/-- A batch has a report exactly when some text resolves. -/
theorem Reports.concluded_eq {texts : List String} {reads : Nat} {report : BalanceReport}
    (reports : source.Reports texts reads report) :
    concluded report =
      if source.evaluated texts = [] then .error (.addressNotFound (source.refused texts))
      else .ok report := by
  have lengths := reports.snapshots.length_eq
  rw [← List.length_map Prod.fst, map_fst_entryLooks] at lengths
  have empty : report.snapshots.isEmpty = true ↔ source.evaluated texts = [] := by
    rw [List.isEmpty_iff, ← List.length_eq_zero_iff, ← lengths, List.length_eq_zero_iff]
  rw [concluded, reports.failures]
  exact if_congr empty rfl rfl

/-- **A batch that has a report tells exact totals.** -/
theorem reports_of_batchAnswer {texts : List String} {reads : Nat} {report : BalanceReport}
    (answered : source.batchAnswer texts reads = .ok report) :
    source.Reports texts reads report := by
  obtain ⟨added, found, kept⟩ := Answer.bind_eq_ok.mp answered
  have reports := reports_of_addBatch found
  rw [reports.concluded_eq] at kept
  split at kept
  · cases kept
  · cases kept
    exact reports

/-! ## Batches that are not stopped -/

/-- Every sum that a batch forms is an amount. -/
structure BatchFits (source : Source) (texts : List String) : Prop where
  keys : ∀ entry ∈ source.evaluated texts, source.SumsFit entry.2
  transactions : ∀ txid, SumsInRange 0
    (((source.openBatch texts).filter (·.txid = txid)).map (·.amount))

/-- All sums of a batch are amounts when even the sizes of all changes of its keys add up to one. -/
theorem BatchFits.of_small {texts : List String}
    (keys : ∀ entry ∈ source.evaluated texts,
      (((source.ledger.indexDeltas entry.2).map (·.amount) ++
        (source.ledger.pendingDeltas entry.2).map (·.amount)).map fun amount =>
          amount.toInt.natAbs).sum < 2 ^ 63)
    (transactions : ((source.openBatch texts).map fun delta =>
      delta.amount.toInt.natAbs).sum < 2 ^ 63) : source.BatchFits texts where
  keys entry member := .of_small (keys entry member)
  transactions _ := .of_small (List.filter_sublist.map _) (by rwa [List.map_map])

/-- The first error of the lookups of the locks of a key. -/
def entryError? (source : Source) (entry : String × AddressKey) : Option QueryError :=
  (source.ledger.indexDeltas entry.2).findSome? (source.lookupError? entry.2)

theorem head?_lookupErrors (texts : List String) :
    (source.lookupErrors texts).head? = (source.evaluated texts).findSome? source.entryError? := by
  rw [lookupErrors]
  induction source.evaluated texts with
  | nil => rfl
  | cons entry rest ih =>
      rw [List.flatMap_cons, List.head?_append, ih, List.findSome?_cons, entryError?,
        List.head?_filterMap]
      cases (source.ledger.indexDeltas entry.2).findSome? (source.lookupError? entry.2) <;> rfl

/-- Entries whose sums are amounts are added, unless a lookup fails. -/
theorem exists_addEntry {looks : List ((String × AddressKey) × Nat)}
    {before : List PendingDelta} {sums : List BalanceSnapshot × TxidSums}
    (holds : TxidSums.Holds before sums.2) (keys : ∀ look ∈ looks, source.SumsFit look.1.2)
    (transactions : ∀ txid, SumsInRange (TxidSums.totalFor before txid)
      (((looks.flatMap fun look => source.openDeltas look.1.2).filter (·.txid = txid)).map
        (·.amount))) :
    ∃ after, looks.foldlM source.addEntry sums =
      Answer.valueUnless (looks.findSome? fun look => source.entryError? look.1) after := by
  induction looks generalizing before sums with
  | nil => exact ⟨sums, rfl⟩
  | cons look rest ih =>
      obtain ⟨snapshot, evaluated⟩ :=
        exists_evaluate_eq (keys look List.mem_cons_self) look.1.1 look.2
      rw [List.foldlM_cons, addEntry, evaluated, List.findSome?_cons]
      rw [show (source.ledger.indexDeltas look.1.2).findSome? (source.lookupError? look.1.2) =
        source.entryError? look.1 from rfl]
      cases failed : source.entryError? look.1 with
      | some error => exact ⟨sums, rfl⟩
      | none =>
          have parts : ∀ txid, SumsInRange (TxidSums.totalFor before txid)
              (((source.openDeltas look.1.2).filter (·.txid = txid)).map (·.amount) ++
                ((rest.flatMap fun look => source.openDeltas look.1.2).filter
                  (·.txid = txid)).map (·.amount)) := by
            intro txid
            have whole := transactions txid
            rwa [List.flatMap_cons, List.filter_append, List.map_append] at whole
          obtain ⟨opened, summed⟩ := holds.exists_addEach fun txid =>
            (parts txid).of_leading (List.prefix_append _ _)
          have later := @ih _ (sums.1 ++ [snapshot], opened) (holds.addEach summed)
            (fun other member => keys other (List.mem_cons_of_mem _ member)) fun txid => by
              have rest := (parts txid).drop
              rwa [TxidSums.totalFor, ← total_append, ← List.map_append, ← List.filter_append]
                at rest
          obtain ⟨after, goes⟩ := later
          refine ⟨after, ?_⟩
          rw [← goes]
          dsimp only [Answer.valueUnless, bind, Except.bind]
          rw [summed]
          rfl

/-- **Where every sum is an amount, the texts are added up unless a lookup fails**; then the first
error is the answer. -/
theorem exists_addBatch_eq {texts : List String} (fits : source.BatchFits texts) (reads : Nat) :
    ∃ report, source.addBatch texts reads {} =
      Answer.valueUnless (source.lookupErrors texts).head? report := by
  have keys : ∀ look ∈ source.entryLooks texts reads, source.SumsFit look.1.2 := fun look member =>
    fits.keys look.1 (mem_of_mem_withReads member)
  have errors : (source.entryLooks texts reads).findSome? (fun look => source.entryError? look.1) =
      (source.lookupErrors texts).head? := by
    rw [head?_lookupErrors, ← map_fst_entryLooks texts reads, List.findSome?_map]
    rfl
  obtain ⟨after, added⟩ := @exists_addEntry source _ _ ([], []) TxidSums.holds_nil keys
    fun txid => by
      rw [openDeltas_entryLooks]
      exact fits.transactions txid
  refine ⟨⟨after.1, after.2, source.refused texts⟩, ?_⟩
  rw [errors] at added
  rw [addBatch, added]
  cases (source.lookupErrors texts).head? <;> rfl

theorem BatchFits.lookupFails {texts : List String} (fits : source.BatchFits texts) (reads : Nat)
    {error : QueryError} {later : List QueryError}
    (fails : source.lookupErrors texts = error :: later) :
    source.batchAnswer texts reads = .error error := by
  obtain ⟨report, added⟩ := exists_addBatch_eq fits reads
  rw [batchAnswer, added, fails]
  rfl

theorem BatchFits.noneResolves {texts : List String} (fits : source.BatchFits texts) (reads : Nat)
    (succeeds : source.lookupErrors texts = []) (none : source.evaluated texts = []) :
    source.batchAnswer texts reads = .error (.addressNotFound (source.refused texts)) := by
  obtain ⟨report, added⟩ := exists_addBatch_eq fits reads
  rw [succeeds] at added
  rw [batchAnswer, added]
  exact (reports_of_addBatch added).concluded_eq.trans (if_pos none)

theorem BatchFits.exists_report {texts : List String} (fits : source.BatchFits texts) (reads : Nat)
    (succeeds : source.lookupErrors texts = []) (some : source.evaluated texts ≠ []) :
    ∃ report, source.batchAnswer texts reads = .ok report := by
  obtain ⟨report, added⟩ := exists_addBatch_eq fits reads
  rw [succeeds] at added
  rw [batchAnswer, added]
  exact ⟨report, (reports_of_addBatch added).concluded_eq.trans (if_neg some)⟩

/-! ## Batches of one text -/

section Single

variable {address : String} {key : AddressKey}

theorem evaluated_singleton (resolved : source.network.resolve address = .ok key) :
    source.evaluated [address] = [(address, key)] := by
  simp [evaluated, Network.keyOf?_eq_some resolved]

/-- The answer of a batch of one text that resolves. -/
theorem batchAnswer_singleton (resolved : source.network.resolve address = .ok key) (reads : Nat) :
    source.batchAnswer [address] reads = do
      let snapshot ← source.evaluate address key reads
      let sums ← TxidSums.addEach (source.openDeltas key) []
      return { snapshots := [snapshot], unconfirmedByTx := sums } := by
  have refused : source.refused [address] = [] := by
    simp [refused, Network.keyOf?_eq_some resolved]
  rw [batchAnswer, addBatch, entryLooks, evaluated_singleton resolved, refused, withReads_cons,
    withReads_nil, List.foldlM_cons, addEntry]
  dsimp only [bind, Except.bind]
  cases source.evaluate address key reads with
  | error error => rfl
  | ok snapshot =>
      dsimp only
      cases TxidSums.addEach (source.openDeltas key) [] <;> rfl

theorem lookupErrors_singleton (resolved : source.network.resolve address = .ok key) :
    source.lookupErrors [address] =
      (source.ledger.indexDeltas key).filterMap (source.lookupError? key) := by
  rw [lookupErrors, evaluated_singleton resolved, List.flatMap_singleton]

end Single

end Source

end CoinLedger
