import CoinLedger.Proofs.Listing.UnspentPages
import CoinLedger.Proofs.Selection.Minimality

/-!
# Selections and the listing of unspent outputs

The pages of the unspent outputs of a key mark the entries that a selection may use: those whose
lock has expired and that no pending transaction spends.  Where the reference time stands still,
when the outputs are distinct and their locks can be looked up, every output of a solution is so
marked on exactly one page (`shownOnce_of_select`), and a minimal selection in time has too little
to pay with exactly when its amount is in range and the marked entries of all pages together have no
payment (`select_listUnspent`).
-/

set_option autoImplicit false

namespace CoinLedger

open UnspentOutput

/-- The outputs whose entries are marked spendable and not spent by a pending transaction. -/
def marked (entries : List UnspentEntry) : List UnspentOutput :=
  (entries.filter fun entry => entry.spendable && !entry.inMempool).map (·.output)

/-- An entry shows an output as one that can be spent, on exactly one of the pages, and no other
entry of a page is about the same output. -/
structure ShownOnce (ask : Nat → Answer (PageFace UnspentEntry)) (output : UnspentOutput)
    (entry : UnspentEntry) : Prop where
  output_eq : entry.output = output
  spendable : entry.spendable = true
  notSpent : entry.inMempool = false
  page : ∃! number, ∃ face, ask number = .ok face ∧ entry ∈ face.items
  alone : ∀ number face, ask number = .ok face → ∀ other ∈ face.items,
    other.output.outpoint = output.outpoint → other = entry

namespace Source

variable {σ : Type} {source : Source} {time : Int64} {key : AddressKey} {address : String}

/-- The pages of a listing, each asked for in a session of its own. -/
def unspentFaces (source : Source) (address : String) (query : UnspentQuery)
    (sessions : Nat → Session) (page : Nat) : Answer (PageFace UnspentEntry) :=
  (((source.listUnspent address { query with page }).runIn (sessions page)).1).map UnspentPage.face

/-- The entries of all unspent outputs of a key at a time, in the order of a listing. -/
def listedEntries (source : Source) (time : Int64) (key : AddressKey) (ascending : Bool) :
    List UnspentEntry :=
  oriented ascending ((source.ledger.unspent key).map (source.listedEntry time key))

theorem mem_listedEntries {ascending : Bool} {entry : UnspentEntry} :
    entry ∈ source.listedEntries time key ascending ↔
      ∃ output ∈ source.ledger.unspent key, source.listedEntry time key output = entry := by
  rw [listedEntries, mem_oriented, List.mem_map]

/-- The marked entries are those of the outputs that a selection may use, unless it is restricted to
outputs with enough confirmations. -/
theorem mem_marked {ascending : Bool} {tuning : SelectionTuning} {request : SelectionRequest}
    (unrestricted : request.instantOnly = false) {output : UnspentOutput} :
    output ∈ marked (source.listedEntries time key ascending) ↔
      output ∈ source.spendable time tuning request key := by
  have usable (candidate : UnspentOutput) : source.canSpend time tuning request key candidate =
      ((source.listedEntry time key candidate).spendable &&
        !(source.listedEntry time key candidate).inMempool) := by
    simp [canSpend, unrestricted, listedEntry, unspentEntry]
  rw [marked, List.mem_map, spendable, List.mem_filter]
  constructor
  · rintro ⟨entry, member, rfl⟩
    obtain ⟨listed, usable'⟩ := List.mem_filter.mp member
    obtain ⟨candidate, recorded, rfl⟩ := mem_listedEntries.mp listed
    exact ⟨recorded, (usable candidate).trans usable'⟩
  · rintro ⟨recorded, spendable⟩
    refine ⟨source.listedEntry time key output, List.mem_filter.mpr ⟨?_, ?_⟩, rfl⟩
    · exact mem_listedEntries.mpr ⟨output, recorded, rfl⟩
    · exact (usable output).symm.trans spendable

/-- The marked entries have the payments of the outputs that a selection may use. -/
theorem payment_marked_iff {ascending : Bool} {tuning : SelectionTuning}
    {request : SelectionRequest} (unrestricted : request.instantOnly = false) :
    (∃ chosen, Payment tuning.fee request.amount
        (marked (source.listedEntries time key ascending)) chosen) ↔
      ∃ chosen,
        Payment tuning.fee request.amount (source.spendable time tuning request key) chosen :=
  exists_congr fun _ => ⟨fun payment => payment.mono fun _ => (mem_marked unrestricted).mp,
    fun payment => payment.mono fun _ => (mem_marked unrestricted).mpr⟩

theorem listedEntries_eq_nil {ascending : Bool} :
    source.listedEntries time key ascending = [] ↔ source.ledger.unspentCount key = 0 := by
  rw [← List.length_eq_zero_iff, listedEntries, length_oriented, List.length_map,
    Ledger.unspentCount]

/-- Distinct outputs have distinct entries. -/
theorem nodup_listedEntries (distinct : Distinct (source.ledger.unspent key)) (ascending : Bool) :
    (source.listedEntries time key ascending).Nodup := by
  have shows :
      ((source.ledger.unspent key).map (source.listedEntry time key)).map UnspentEntry.output =
      source.ledger.unspent key := by
    rw [List.map_map]
    exact List.map_id _
  refine (oriented_perm _ _).nodup_iff.mpr (List.Nodup.of_map UnspentEntry.output ?_)
  rw [shows]
  exact distinct.nodup

section Listing

variable (stands : source.StandsAt time) (resolved : source.network.resolve address = .ok key)
  (answered : ∀ output ∈ source.ledger.unspent key, source.Answered key output)

section Pages

variable (distinct : Distinct (source.ledger.unspent key)) {query : UnspentQuery}
  (least : 1 ≤ query.pageSize) (most : query.pageSize ≤ maxUnspentPageSize)
  (sessions : Nat → Session)

include stands resolved answered distinct least most

/-- The pages of the unspent outputs show their entries. -/
theorem paged_unspentFaces :
    Paged (source.unspentFaces address query sessions) .noUnspentOutputs query.pageSize
      (source.listedEntries time key query.ascending) :=
  paged_listUnspent distinct answered stands resolved least most sessions

/-- **Every output of a solution is listed as spendable on exactly one page.** -/
theorem shownOnce_of_select {tuning : SelectionTuning} {random : RandomSource σ} {seed : σ}
    {request : SelectionRequest} {session after : Session} {solution : Solution}
    (selected : (source.select tuning random seed address request).run session =
      (.ok solution, after))
    {output : UnspentOutput} (member : output ∈ solution.outputs) :
    ShownOnce (source.unspentFaces address query sessions) output
      (source.listedEntry time key output) := by
  obtain ⟨other, seen, found, settled, spendable⟩ := exists_settled_of_select selected
  cases resolved.symm.trans found
  obtain ⟨recorded, reads, -, -, spendable⟩ := spendable output (settled.seen member)
  rw [stands reads] at spendable
  have paged := paged_unspentFaces stands resolved answered distinct least most sessions
  exact {
    output_eq := rfl
    spendable := by
      simp [listedEntry, unspentEntry, foundUnlocked, spendable.unlocked]
    notSpent := spendable.notSpent
    page := paged.existsUnique_page (nodup_listedEntries distinct _)
      (mem_listedEntries.mpr ⟨output, recorded, rfl⟩)
    alone := by
      intro number face page other shown same
      obtain ⟨candidate, listed, rfl⟩ := mem_listedEntries.mp (paged.mem_of_mem_page page shown)
      rw [distinct.consistent candidate listed output recorded same] }

end Pages

include stands resolved answered

/-- **A minimal selection in time has too little to pay with exactly when its amount is in range,
the key has outputs, and the marked entries have no payment.** -/
theorem insufficient_iff_marked (distinct : Distinct (source.ledger.unspent key))
    {ascending : Bool} {tuning : SelectionTuning} {request : SelectionRequest}
    (deterministic : request.policy = .minimal) (unrestricted : request.instantOnly = false)
    (neverLate : source.NeverLate tuning) (room : tuning.blockCacheSize ≤ BlockCache.maxCapacity)
    (exact : ExactAmong tuning.fee request.amount
      (marked (source.listedEntries time key ascending)))
    (random : RandomSource σ) (seed : σ) (session : Session) (requested : Int64) :
    ((source.select tuning random seed address request).run session).1 =
        .error (.balanceInsufficient requested) ↔
      requested = request.amount ∧
        (1 ≤ request.amount.toInt ∧ request.amount.toInt ≤ Amount.maxRequest) ∧
        source.listedEntries time key ascending ≠ [] ∧
        ¬ ∃ chosen, Payment tuning.fee request.amount
          (marked (source.listedEntries time key ascending)) chosen := by
  by_cases inRange : 1 ≤ request.amount.toInt ∧ request.amount.toInt ≤ Amount.maxRequest
  case neg =>
    obtain ⟨text, refused⟩ :=
      source.select_refused tuning random seed address request session inRange
    rw [refused]
    exact iff_of_false (by simp) fun claimed => inRange claimed.2.1
  have undisturbed : source.Undisturbed time tuning address request key := {
    least := inRange.1
    most := inRange.2
    resolved
    neverLate
    room
    stands
    judged := fun output member => ⟨answered output member, fun instant => by
      rw [unrestricted] at instant
      cases instant⟩
    consistent := distinct.consistent
    exact := exact.subset fun _ => (mem_marked unrestricted).mpr }
  rw [(undisturbed.answersSmallest deterministic random seed session).insufficient_iff,
    ← payment_marked_iff unrestricted, Ne, Ne, listedEntries_eq_nil]
  constructor
  · rintro ⟨same, listed, unpaid⟩
    exact ⟨same, inRange, listed, unpaid⟩
  · rintro ⟨same, _, listed, unpaid⟩
    exact ⟨same, listed, unpaid⟩

/-- **Selections and the listing agree.**  The pages show an entry for every unspent output.  Each
output of any solution is listed as spendable on exactly one page.  A minimal selection in time has
too little to pay with exactly when its amount is in range, there are entries, and those that are
marked over all pages have no payment. -/
theorem select_listUnspent (distinct : Distinct (source.ledger.unspent key))
    (query : UnspentQuery) (least : 1 ≤ query.pageSize) (most : query.pageSize ≤ maxUnspentPageSize)
    (sessions : Nat → Session) :
    Paged (source.unspentFaces address query sessions) .noUnspentOutputs query.pageSize
      (source.listedEntries time key query.ascending) ∧
    (∀ (tuning : SelectionTuning) (random : RandomSource σ) (seed : σ)
      (request : SelectionRequest) (session : Session) (solution : Solution),
      ((source.select tuning random seed address request).run session).1 = .ok solution →
      ∀ output ∈ solution.outputs, ∃ entry,
        ShownOnce (source.unspentFaces address query sessions) output entry) ∧
    ∀ (tuning : SelectionTuning) (request : SelectionRequest),
      request.policy = .minimal → request.instantOnly = false → source.NeverLate tuning →
      tuning.blockCacheSize ≤ BlockCache.maxCapacity →
      ExactAmong tuning.fee request.amount
        (marked (source.listedEntries time key query.ascending)) →
      ∀ (random : RandomSource σ) (seed : σ) (session : Session) (requested : Int64),
        ((source.select tuning random seed address request).run session).1 =
            .error (.balanceInsufficient requested) ↔
          requested = request.amount ∧
            (1 ≤ request.amount.toInt ∧ request.amount.toInt ≤ Amount.maxRequest) ∧
            source.listedEntries time key query.ascending ≠ [] ∧
            ¬ ∃ chosen, Payment tuning.fee request.amount
              (marked (source.listedEntries time key query.ascending)) chosen := by
  refine ⟨paged_unspentFaces stands resolved answered distinct least most sessions, ?_, ?_⟩
  · intro _ _ _ _ _ _ selected output member
    exact ⟨_, shownOnce_of_select stands resolved answered distinct least most sessions
      (Prod.ext selected rfl) member⟩
  · intro _ _ deterministic unrestricted neverLate room exact random seed session requested
    exact insufficient_iff_marked stands resolved answered distinct deterministic unrestricted
      neverLate room exact random seed session requested

end Listing

/-- A selection uses both of two outputs, each on a page of its own; together they are worth too
little to pay their own worth and a fee. -/
theorem select_listUnspent_twoOutputs :
    (∃ solution, (((Source.paying [300000, 500000]).select { sliceSize := 1 } .seeded 0
        AddressKey.onesAddress { amount := 600000, policy := .random }).run {}).1 = .ok solution ∧
      solution.outputs.length = 2 ∧
      ∀ output ∈ solution.outputs, ∃ entry,
        ShownOnce ((Source.paying [300000, 500000]).unspentFaces AddressKey.onesAddress
          { pageSize := 1 } fun _ => {}) output entry) ∧
      (((Source.paying [300000, 500000]).select {} .seeded 0 AddressKey.onesAddress
        { amount := 800000 }).run {}).1 = .error (.balanceInsufficient 800000) := by
  have distinct : Distinct ((Source.paying [300000, 500000]).ledger.unspent .ones) := by
    decide +kernel
  have nonneg : ∀ output ∈ marked
      ((Source.paying [300000, 500000]).listedEntries Clock.defaultUnixTime .ones false),
      0 ≤ output.amount.toInt := by decide +kernel
  obtain ⟨_, shown, insufficient⟩ := select_listUnspent (Source.standsAt_ofBlock _ _ _)
    Network.resolve_onesAddress (fun _ member => answered_ofBlock _ _ _ member) distinct
    { pageSize := 1 } (by decide) (by decide) fun _ => {}
  have selected : (((Source.paying [300000, 500000]).select { sliceSize := 1 } .seeded 0
      AddressKey.onesAddress { amount := 600000, policy := .random }).run {}).1 =
        .ok ⟨(Block.paying [300000, 500000]).entriesTo .ones, 800000, 100000, 100000⟩ :=
    Answer.eq_ok_of_toOption (by decide +kernel)
  refine ⟨⟨_, selected, by decide +kernel, shown _ _ _ _ _ _ selected⟩,
    (insufficient {} { amount := 800000 } rfl rfl (neverLate_ofBlock _ _ _ _) (by decide)
      (.of_nonneg nonneg (by decide +kernel) (by decide +kernel) (by decide +kernel)
        (by decide +kernel)) .seeded 0 {} 800000).mpr
      ⟨rfl, by decide, by decide +kernel, not_payment_of_worth_lt nonneg (by decide +kernel)⟩⟩

/-- Of one unit nothing can be paid, not even the fee of a payment of nothing, but a request for
nothing is refused for its amount. -/
theorem zero_amount_refused :
    Distinct ((Source.paying [1]).ledger.unspent .ones) ∧
      (∀ output ∈ (Source.paying [1]).ledger.unspent .ones,
        (Source.paying [1]).Answered .ones output) ∧
      (Source.paying [1]).StandsAt Clock.defaultUnixTime ∧ (Source.paying [1]).NeverLate {} ∧
      Paged ((Source.paying [1]).unspentFaces AddressKey.onesAddress {} fun _ => {})
        .noUnspentOutputs 100
        ((Source.paying [1]).listedEntries Clock.defaultUnixTime .ones false) ∧
      ExactAmong {} 0
        (marked ((Source.paying [1]).listedEntries Clock.defaultUnixTime .ones false)) ∧
      (Source.paying [1]).listedEntries Clock.defaultUnixTime .ones false ≠ [] ∧
      (¬ ∃ chosen, Payment {} 0
        (marked ((Source.paying [1]).listedEntries Clock.defaultUnixTime .ones false)) chosen) ∧
      ∀ requested, (((Source.paying [1]).select {} .seeded 0 AddressKey.onesAddress
        { amount := 0 }).run {}).1 ≠ .error (.balanceInsufficient requested) := by
  have nonneg : ∀ output ∈
      marked ((Source.paying [1]).listedEntries Clock.defaultUnixTime .ones false),
      0 ≤ output.amount.toInt := by decide +kernel
  have distinct : Distinct ((Source.paying [1]).ledger.unspent .ones) := by decide +kernel
  have answered : ∀ output ∈ (Source.paying [1]).ledger.unspent .ones,
      (Source.paying [1]).Answered .ones output := fun _ member => answered_ofBlock _ _ _ member
  have stands : (Source.paying [1]).StandsAt Clock.defaultUnixTime := standsAt_ofBlock _ _ _
  refine ⟨distinct, answered, stands, neverLate_ofBlock _ _ _ _,
    paged_unspentFaces stands Network.resolve_onesAddress answered distinct (by decide) (by decide)
      _,
    .of_nonneg nonneg (by decide +kernel) (by decide +kernel) (by decide +kernel)
      (by decide +kernel), by decide +kernel, not_payment_of_worth_lt nonneg (by decide +kernel),
    fun requested => ?_⟩
  obtain ⟨text, refused⟩ := (Source.paying [1]).select_refused {} .seeded 0
    AddressKey.onesAddress { amount := 0 } {} (by decide)
  simp [refused]

end Source

end CoinLedger
