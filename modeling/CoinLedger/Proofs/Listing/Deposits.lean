import CoinLedger.Listing.Deposits
import CoinLedger.Proofs.BlockLedger
import CoinLedger.Proofs.Listing.Paged
import CoinLedger.Proofs.Loading

/-!
# Pages of deposits

A page of deposits is counted from an anchor: the time of the first deposit in the range, or that of
the last one.  The deposits of a key stand in the order of their times, so those in the range are
the first ones from the one anchor on (`exists_dropWhile_eq`), and the last ones up to the other
(`exists_takeWhile_eq`), however many share the time of an anchor.  The window of a page ends with
the deposits in the range.  So the pages together show exactly these, oldest or newest first
(`listDeposits_pages`).
-/

set_option autoImplicit false

namespace CoinLedger

open Std

namespace Deposit

/-- The deposits stand in the order of their times. -/
def InTime (deposits : List Deposit) : Prop :=
  deposits.Pairwise fun earlier later => earlier.timestamp ≤ later.timestamp

/-- Whether a deposit lies in a range of times. -/
def isWithin (first stop : Int64) (deposit : Deposit) : Bool :=
  first ≤ deposit.timestamp && deposit.timestamp < stop

theorem UpTo.timestamp_le {earlier later : Deposit} (ordered : UpTo earlier later) :
    earlier.timestamp ≤ later.timestamp := by
  rcases ordered with before | ⟨same, _⟩
  · exact Int64.le_of_lt before
  · exact Int64.le_of_eq same

theorem inTime_of_indexOf {written index : List Deposit}
    (indexes : IndexOf UpTo place written index) :
    InTime index :=
  indexes.ordered.imp UpTo.timestamp_le

section InTime

variable {deposits : List Deposit} (inTime : InTime deposits)

include inTime

theorem InTime.filter (keeps : Deposit → Bool) : InTime (deposits.filter keeps) :=
  List.Pairwise.filter keeps inTime

theorem InTime.head_le {oldest : Deposit} (first : deposits.head? = some oldest) :
    ∀ deposit ∈ deposits, oldest.timestamp ≤ deposit.timestamp := by
  obtain ⟨rest, rfl⟩ := List.head?_eq_some_iff.mp first
  obtain ⟨front, _⟩ := List.pairwise_cons.mp inTime
  intro deposit member
  rcases List.mem_cons.mp member with rfl | member
  · exact Int64.le_refl _
  · exact front deposit member

theorem InTime.le_last {newest : Deposit} (last : deposits.getLast? = some newest) :
    ∀ deposit ∈ deposits, deposit.timestamp ≤ newest.timestamp := by
  obtain ⟨front, rfl⟩ := List.getLast?_eq_some_iff.mp last
  obtain ⟨_, _, before⟩ := List.pairwise_append.mp inTime
  intro deposit member
  rcases List.mem_append.mp member with member | member
  · exact before deposit member newest (List.mem_singleton_self newest)
  · cases List.mem_singleton.mp member
    exact Int64.le_refl _

theorem InTime.takeWhile_before (time : Int64) :
    deposits.takeWhile (·.timestamp < time) = deposits.filter (·.timestamp < time) := by
  refine takeWhile_eq_filter (inTime.imp fun ordered before => ?_)
  simp only [decide_eq_true_eq] at before ⊢
  exact Int64.lt_of_le_of_lt ordered before

theorem InTime.takeWhile_upTo (time : Int64) :
    deposits.takeWhile (·.timestamp ≤ time) = deposits.filter (·.timestamp ≤ time) := by
  refine takeWhile_eq_filter (inTime.imp fun ordered before => ?_)
  simp only [decide_eq_true_eq] at before ⊢
  exact Int64.le_trans ordered before

theorem InTime.dropWhile_before (time : Int64) :
    deposits.dropWhile (·.timestamp < time) = deposits.filter (time ≤ ·.timestamp) := by
  have later : deposits.dropWhile (·.timestamp < time) =
      deposits.filter fun deposit => !decide (deposit.timestamp < time) := by
    refine dropWhile_eq_filter (inTime.imp fun ordered before => ?_)
    simp only [decide_eq_true_eq] at before ⊢
    exact Int64.lt_of_le_of_lt ordered before
  rw [later]
  refine List.filter_congr fun deposit _ => ?_
  rw [Bool.eq_iff_iff]
  simp [Int64.not_lt]

section Anchors

variable {first stop : Int64}

/-- **The deposits in a range are the first ones from the time of the oldest one on.** -/
theorem InTime.exists_dropWhile_eq {oldest : Deposit}
    (leads : (deposits.filter (isWithin first stop)).head? = some oldest) :
    ∃ later, deposits.dropWhile (·.timestamp < oldest.timestamp) =
      deposits.filter (isWithin first stop) ++ later := by
  have within := List.mem_filter.mp (List.mem_of_head? leads)
  have least := (inTime.filter (isWithin first stop)).head_le leads
  have front : (deposits.filter (oldest.timestamp ≤ ·.timestamp)).takeWhile (·.timestamp < stop) =
      deposits.filter (isWithin first stop) := by
    rw [(inTime.filter _).takeWhile_before, List.filter_filter]
    refine List.filter_congr fun deposit member => ?_
    rw [Bool.eq_iff_iff]
    constructor
    · intro inside
      simp only [Bool.and_eq_true, decide_eq_true_eq] at inside
      simp only [isWithin, Bool.and_eq_true, decide_eq_true_eq] at within ⊢
      exact ⟨Int64.le_trans within.2.1 inside.2, inside.1⟩
    · intro inside
      have after := least deposit (List.mem_filter.mpr ⟨member, inside⟩)
      simp only [isWithin, Bool.and_eq_true, decide_eq_true_eq] at inside ⊢
      exact ⟨inside.2, after⟩
  rw [inTime.dropWhile_before, ← front]
  exact ⟨_, List.takeWhile_append_dropWhile.symm⟩

/-- **The deposits in a range are the last ones up to the time of the newest one.** -/
theorem InTime.exists_takeWhile_eq {newest : Deposit}
    (ends : (deposits.filter (isWithin first stop)).getLast? = some newest) :
    ∃ earlier, deposits.takeWhile (·.timestamp ≤ newest.timestamp) =
      earlier ++ deposits.filter (isWithin first stop) := by
  have within := List.mem_filter.mp (List.mem_of_getLast? ends)
  have greatest := (inTime.filter (isWithin first stop)).le_last ends
  have back : (deposits.filter (·.timestamp ≤ newest.timestamp)).dropWhile (·.timestamp < first) =
      deposits.filter (isWithin first stop) := by
    rw [(inTime.filter _).dropWhile_before, List.filter_filter]
    refine List.filter_congr fun deposit member => ?_
    rw [Bool.eq_iff_iff]
    constructor
    · intro inside
      simp only [Bool.and_eq_true, decide_eq_true_eq] at inside
      simp only [isWithin, Bool.and_eq_true, decide_eq_true_eq] at within ⊢
      exact ⟨inside.1, Int64.lt_of_le_of_lt inside.2 within.2.2⟩
    · intro inside
      have before := greatest deposit (List.mem_filter.mpr ⟨member, inside⟩)
      simp only [isWithin, Bool.and_eq_true, decide_eq_true_eq] at inside ⊢
      exact ⟨inside.1, before⟩
  rw [inTime.takeWhile_upTo, ← back]
  exact ⟨_, List.takeWhile_append_dropWhile.symm⟩

end Anchors

end InTime

end Deposit

/-! ## Windows -/

namespace Ledger

open Deposit

variable {ledger : Ledger} {key : AddressKey}

theorem depositsWithin_eq (first stop : Int64) :
    ledger.depositsWithin key first stop = (ledger.deposits key).filter (isWithin first stop) := rfl

/-- A range that is not empty spans from its oldest to its newest deposit. -/
theorem exists_depositSpan_eq {first stop : Int64}
    (nonempty : ledger.depositsWithin key first stop ≠ []) :
    ∃ oldest newest, (ledger.depositsWithin key first stop).head? = some oldest ∧
      (ledger.depositsWithin key first stop).getLast? = some newest ∧
      ledger.depositSpan key first stop =
        ⟨(ledger.depositsWithin key first stop).length, oldest.timestamp, newest.timestamp⟩ := by
  obtain ⟨oldest, leads⟩ := Option.isSome_iff_exists.mp (List.isSome_head?.mpr nonempty)
  obtain ⟨newest, ends⟩ := Option.isSome_iff_exists.mp (List.getLast?_isSome.mpr nonempty)
  refine ⟨oldest, newest, leads, ends, ?_⟩
  rw [depositSpan, leads, ends]

theorem count_depositSpan (first stop : Int64) :
    (ledger.depositSpan key first stop).count = (ledger.depositsWithin key first stop).length := by
  by_cases none : ledger.depositsWithin key first stop = []
  · rw [depositSpan, none]
    rfl
  · obtain ⟨_, _, _, _, span⟩ := exists_depositSpan_eq none
    rw [span]

/-- A page of a span shows the deposits of the span at the positions of its window. -/
theorem depositWindow_eq (inTime : InTime (ledger.deposits key)) {first stop : Int64}
    (nonempty : ledger.depositsWithin key first stop ≠ []) (page pageSize : Nat)
    (ascending : Bool) :
    ledger.depositWindow key (ledger.depositSpan key first stop)
        (pageWindow (ledger.depositsWithin key first stop).length page pageSize) ascending =
      (pageWindow (ledger.depositsWithin key first stop).length page pageSize).select
        (oriented ascending (ledger.depositsWithin key first stop)) := by
  obtain ⟨oldest, newest, leads, ends, span⟩ := exists_depositSpan_eq nonempty
  rw [span]
  cases ascending with
  | true =>
      obtain ⟨later, whole⟩ := inTime.exists_dropWhile_eq leads
      rw [depositWindow, oriented, if_pos rfl, if_pos rfl, depositSlice, whole, ← depositsWithin_eq]
      exact select_pageWindow_append _ later page pageSize
  | false =>
      obtain ⟨earlier, whole⟩ := inTime.exists_takeWhile_eq ends
      have count : (ledger.depositsWithin key first stop).length =
          (ledger.depositsWithin key first stop).reverse.length := List.length_reverse.symm
      rw [depositWindow, oriented, if_neg Bool.false_ne_true, if_neg Bool.false_ne_true,
        depositSliceBack, whole, ← depositsWithin_eq, List.reverse_append, count]
      exact select_pageWindow_append _ earlier.reverse page pageSize

end Ledger

/-! ## Pages -/

/-- What a page of deposits tells. -/
def DepositPage.face (page : DepositPage) : PageFace Deposit where
  count := page.count
  pages := page.pages
  page := page.page
  items := page.deposits

namespace Source

open Deposit

variable {source : Source} {address : String} {key : AddressKey}

theorem checkTimeRange_eq_ok {first stop : Int64} (ranged : first < stop) :
    checkTimeRange first stop = .ok () :=
  if_neg (Int64.not_le.mpr ranged)

/-- A page of deposits is the page of the deposits in the range. -/
theorem face_listDeposits (resolved : source.network.resolve address = .ok key)
    (inTime : InTime (source.ledger.deposits key)) (query : DepositQuery)
    (ranged : query.timestampFrom < query.timestampTo) (least : 1 ≤ query.pageSize)
    (most : query.pageSize ≤ maxDepositPageSize) :
    (source.listDeposits address query).map DepositPage.face =
      pageAnswer .noDeposits query.pageSize
        (oriented query.ascending
          (source.ledger.depositsWithin key query.timestampFrom query.timestampTo)) query.page := by
  rw [listDeposits, checkTimeRange_eq_ok ranged, checkPageSize_eq_ok least most, resolved,
    pageAnswer, length_oriented]
  dsimp only [Except.bind, bind]
  rw [Ledger.count_depositSpan]
  by_cases none : source.ledger.depositsWithin key query.timestampFrom query.timestampTo = []
  · rw [none]
    rfl
  · have counted := mt List.length_eq_zero_iff.mp none
    rw [if_neg counted, if_neg counted, Ledger.depositWindow_eq inTime none]
    cases checkPageNumber query.page _ with
    | error error => rfl
    | ok _ =>
        simp only [Except.map, pure, Except.pure, DepositPage.face, pageFace, length_oriented]

/-- **The pages of a range of deposits show them in the order of the index**, each once and oldest
or newest first, whatever the size of a page. -/
theorem listDeposits_pages {network : Network} {snapshot : LedgerSnapshot}
    (loaded : Ledger.ofSnapshot network snapshot = .ok source.ledger)
    (resolved : source.network.resolve address = .ok key) {first stop : Int64}
    (ranged : first < stop) :
    ∃ within,
      IndexOf UpTo place ((snapshot.depositsOf network key).filter (isWithin first stop)) within ∧
      ∀ query : DepositQuery, query.timestampFrom = first → query.timestampTo = stop →
        1 ≤ query.pageSize → query.pageSize ≤ maxDepositPageSize →
          Paged
            (fun page => (source.listDeposits address { query with page }).map DepositPage.face)
            .noDeposits query.pageSize (oriented query.ascending within) := by
  have indexes := Ledger.indexOf_deposits loaded key
  refine ⟨source.ledger.depositsWithin key first stop, indexes.filter (isWithin first stop), ?_⟩
  rintro query rfl rfl least most
  apply paged_of_pageAnswer least
  · exact nofun
  · exact nofun
  · intro page
    exact face_listDeposits resolved (inTime_of_indexOf indexes) { query with page } ranged least
      most

/-- Three deposits of one time among five of a key, in the order of no index. -/
def tied : AddressEntry where
  address := AddressKey.onesAddress
  deltas := []
  unspent := []
  deposits := [⟨.filled 5, 12, 30, 1⟩, ⟨.filled 1, 12, 40, 2⟩, ⟨.filled 3, 12, 30, 3⟩,
    ⟨.filled 4, 11, 20, 4⟩, ⟨.filled 3, 12, 30, 5⟩]

/-- The four deposits before the end of the range, newest first and three on a page. -/
theorem listDeposits_pages_tied :
    ∃ within, within.length = 4 ∧
      IndexOf UpTo place
        ((LedgerSnapshot.depositsOf (.ofEntry (.ofOutputs []) tied) {} .ones).filter
        (isWithin 20 40)) within ∧
      Paged
        (fun page => (listDeposits (.ofEntry (.ofOutputs []) tied) AddressKey.onesAddress
          { page, pageSize := 3, timestampFrom := 20, timestampTo := 40 }).map DepositPage.face)
        .noDeposits 3 within.reverse := by
  have loaded := Ledger.ofSnapshot_ofEntry (.ofOutputs []) tied rfl
  obtain ⟨within, indexes, shows⟩ := listDeposits_pages loaded Network.resolve_onesAddress
    (show (20 : Int64) < 40 by decide)
  refine ⟨within, ?_, indexes, ?_⟩
  · rw [indexes.permuted.length_eq, LedgerSnapshot.depositsOf_ofEntry rfl]
    decide +kernel
  · exact shows { pageSize := 3, timestampFrom := 20, timestampTo := 40 } rfl rfl (by decide)
      (by decide)

end Source

end CoinLedger
