import CoinLedger.Balance
import CoinLedger.Proofs.CachedQuery
import CoinLedger.Proofs.Total

/-!
# The balance of one address

The evaluation of an address looks up the lock of every receipt, each at its own time, and adds up
what it finds.  Adding a change adds it to the exact totals, as long as these are amounts
(`addFinal_eq_ok_iff`).  So an evaluation that ends with a balance ends with the exact totals
(`balances_of_evaluate`): final changes are the confirmed ones and the pending ones that instant
send has made final, and only confirmed receipts can be locked.  Where every sum on the way is an
amount (`SumsFit`) each change leaves totals that take the changes after it (`TakesFinal.next`), so
there is a balance unless a lookup fails, and then the first error (`exists_evaluate_eq`).
-/

set_option autoImplicit false

namespace CoinLedger

open Amount

/-! ## Exact totals -/

/-- The exact totals of an address. -/
@[ext]
structure Totals where
  balance : Int
  locked : Int
  received : Int
  unconfirmedDelta : Int

namespace Totals

/-- Whether all totals are amounts. -/
structure Fits (totals : Totals) : Prop where
  balance : InRange totals.balance
  locked : InRange totals.locked
  received : InRange totals.received
  unconfirmedDelta : InRange totals.unconfirmedDelta

/-- The value that an amount adds to what was received. -/
def receipt (amount : Int64) : Int :=
  if 0 < amount then amount.toInt else 0

theorem receipt_nonneg (amount : Int64) : 0 ≤ receipt amount := by
  rw [receipt]
  split
  next positive => exact Int.le_of_lt (Int64.lt_iff_toInt_lt.mp positive)
  next => exact Int.le_refl 0

/-- The totals with one more final change. -/
def addFinal (totals : Totals) (amount : Int64) (locked : Bool) : Totals :=
  { totals with
    balance := totals.balance + amount.toInt
    locked := totals.locked + if locked then receipt amount else 0
    received := totals.received + receipt amount }

/-- The totals with one more pending change. -/
def addPending (totals : Totals) (amount : Int64) (instant : Bool) : Totals :=
  if instant then totals.addFinal amount false
  else { totals with unconfirmedDelta := totals.unconfirmedDelta + amount.toInt }

theorem total_filter_pos_cons (amount : Int64) (rest : List Int64) :
    total ((amount :: rest).filter (0 < ·)) = receipt amount + total (rest.filter (0 < ·)) := by
  rw [List.filter_cons, receipt]
  by_cases positive : 0 < amount <;> simp [positive]

theorem total_filter_pos_nonneg (amounts : List Int64) : 0 ≤ total (amounts.filter (0 < ·)) :=
  total_nonneg fun _ member =>
    Int64.le_of_lt (of_decide_eq_true (List.mem_filter.mp member).2)

/-- Final changes of these amounts can be added: every sum on the way is an amount, and what is
locked is a part of what was received. -/
structure TakesFinal (totals : Totals) (amounts : List Int64) : Prop where
  balance : SumsInRange totals.balance amounts
  received : InRange (totals.received + total (amounts.filter (0 < ·)))
  least : 0 ≤ totals.locked
  most : totals.locked ≤ totals.received

section TakesFinal

variable {totals : Totals} {amount : Int64} {amounts rest : List Int64}

/-- **Adding the first of the changes leaves the totals ready for the others**, whether it is locked
or not. -/
theorem TakesFinal.next (takes : totals.TakesFinal (amount :: rest)) (locked : Bool) :
    (totals.addFinal amount locked).TakesFinal rest := by
  obtain ⟨balance, received, least, most⟩ := takes
  have positive := receipt_nonneg amount
  rw [total_filter_pos_cons, ← Int.add_assoc] at received
  cases locked with
  | true => exact ⟨balance.tail, received, Int.add_nonneg least positive,
      Int.add_le_add_right most _⟩
  | false => exact ⟨balance.tail, received, Int.add_nonneg least (Int.le_refl 0),
      Int.add_le_add most positive⟩

/-- Totals take a first part of what they take. -/
theorem TakesFinal.front (takes : totals.TakesFinal (amounts ++ rest)) :
    totals.TakesFinal amounts := by
  obtain ⟨balance, received, least, most⟩ := takes
  rw [List.filter_append, total_append] at received
  have first := total_filter_pos_nonneg amounts
  have later := total_filter_pos_nonneg rest
  exact ⟨balance.of_leading (List.prefix_append _ _),
    inRange_of_le (by omega) (by omega) received, least, most⟩

/-- Totals to which final changes can be added are amounts. -/
theorem TakesFinal.fits (takes : totals.TakesFinal amounts)
    (unconfirmed : InRange totals.unconfirmedDelta) : totals.Fits := by
  obtain ⟨balance, received, least, most⟩ := takes
  have later := total_filter_pos_nonneg amounts
  exact {
    balance := balance.start_inRange
    locked := inRange_of_le least (by omega) received
    received := inRange_of_le (by omega) (by omega) received
    unconfirmedDelta := unconfirmed }

end TakesFinal

end Totals

attribute [ext] BalanceSnapshot

namespace BalanceSnapshot

/-- The totals that a balance shows. -/
def totals (snapshot : BalanceSnapshot) : Totals where
  balance := snapshot.balance.toInt
  locked := snapshot.locked.toInt
  received := snapshot.received.toInt
  unconfirmedDelta := snapshot.unconfirmedDelta.toInt

/-- A balance is determined by its address and its totals. -/
theorem eq_of_totals {left right : BalanceSnapshot} (address : left.address = right.address)
    (totals : left.totals = right.totals) : left = right := by
  obtain ⟨balance, locked, received, unconfirmed⟩ := Totals.ext_iff.mp totals
  exact BalanceSnapshot.ext address (Int64.toInt_inj.mp balance) (Int64.toInt_inj.mp locked)
    (Int64.toInt_inj.mp received) (Int64.toInt_inj.mp unconfirmed)

/-- Totals that are amounts can be shown. -/
theorem exists_totals (address : String) {totals : Totals} (fits : totals.Fits) :
    ∃ snapshot : BalanceSnapshot, snapshot.address = address ∧ snapshot.totals = totals :=
  ⟨⟨address, Int64.ofInt totals.balance, Int64.ofInt totals.locked, Int64.ofInt totals.received,
      Int64.ofInt totals.unconfirmedDelta⟩, rfl,
    Totals.ext (toInt_ofInt_of_inRange fits.balance) (toInt_ofInt_of_inRange fits.locked)
      (toInt_ofInt_of_inRange fits.received) (toInt_ofInt_of_inRange fits.unconfirmedDelta)⟩

theorem totals_fit (snapshot : BalanceSnapshot) : snapshot.totals.Fits :=
  ⟨inRange_toInt _, inRange_toInt _, inRange_toInt _, inRange_toInt _⟩

section Steps

variable {snapshot after : BalanceSnapshot} {amount : Int64} {flag : Bool}

theorem toInt_receipt (amount : Int64) :
    (if 0 < amount then amount else 0).toInt = Totals.receipt amount := by
  rw [Totals.receipt]
  split <;> rfl

/-- **A final change is added to the exact totals.** -/
theorem addFinal_eq_ok_iff : snapshot.addFinal amount flag = .ok after ↔
    after.address = snapshot.address ∧ after.totals = snapshot.totals.addFinal amount flag := by
  have kept : (if flag then if 0 < amount then amount else 0 else 0).toInt =
      if flag then Totals.receipt amount else 0 := by
    cases flag with
    | false => rfl
    | true => exact toInt_receipt amount
  constructor
  · intro added
    obtain ⟨locked, sumLocked, added⟩ := Answer.bind_eq_ok.mp added
    obtain ⟨received, sumReceived, added⟩ := Answer.bind_eq_ok.mp added
    obtain ⟨balance, sumBalance, added⟩ := Answer.bind_eq_ok.mp added
    cases added
    rw [add_eq_ok_iff] at sumLocked sumReceived sumBalance
    rw [kept] at sumLocked
    rw [toInt_receipt] at sumReceived
    exact ⟨rfl, Totals.ext sumBalance sumLocked sumReceived rfl⟩
  · rintro ⟨address, same⟩
    obtain ⟨balance, locked, received, unconfirmed⟩ := Totals.ext_iff.mp same
    have sumLocked : Amount.add snapshot.locked
        (if flag then if 0 < amount then amount else 0 else 0) = .ok after.locked :=
      add_eq_ok_iff.mpr (by rw [kept]; exact locked)
    have sumReceived : Amount.add snapshot.received (if 0 < amount then amount else 0) =
        .ok after.received :=
      add_eq_ok_iff.mpr (by rw [toInt_receipt]; exact received)
    have sumBalance : Amount.add snapshot.balance amount = .ok after.balance :=
      add_eq_ok_iff.mpr balance
    refine Answer.bind_eq_ok.mpr ⟨_, sumLocked, Answer.bind_eq_ok.mpr ⟨_, sumReceived,
      Answer.bind_eq_ok.mpr ⟨_, sumBalance, congrArg Except.ok ?_⟩⟩⟩
    exact BalanceSnapshot.ext address.symm rfl rfl rfl (Int64.toInt_inj.mp unconfirmed.symm)

/-- **A pending change is added to the exact totals.** -/
theorem addPending_eq_ok_iff : snapshot.addPending amount flag = .ok after ↔
    after.address = snapshot.address ∧ after.totals = snapshot.totals.addPending amount flag := by
  cases flag with
  | true => exact addFinal_eq_ok_iff
  | false =>
      constructor
      · intro added
        obtain ⟨open', sum, added⟩ := Answer.bind_eq_ok.mp added
        cases added
        exact ⟨rfl, Totals.ext rfl rfl rfl (add_eq_ok_iff.mp sum)⟩
      · rintro ⟨address, same⟩
        obtain ⟨balance, locked, received, unconfirmed⟩ := Totals.ext_iff.mp same
        refine Answer.bind_eq_ok.mpr ⟨_, add_eq_ok_iff.mpr unconfirmed, congrArg Except.ok ?_⟩
        exact BalanceSnapshot.ext address.symm (Int64.toInt_inj.mp balance.symm)
          (Int64.toInt_inj.mp locked.symm) (Int64.toInt_inj.mp received.symm) rfl

end Steps

end BalanceSnapshot

namespace Source

variable {source : Source} {key : AddressKey}

/-! ## The changes of a key -/

/-- How often the time of day is asked for at a confirmed change; only receipts are looked up. -/
def deltaReads (source : Source) (key : AddressKey) (delta : IndexDelta) : Nat :=
  if 0 < delta.amount then source.timeReads delta.height delta.txid key else 0

/-- The error of the lookup of the lock of a confirmed change; it is the same at every time. -/
def lookupError? (source : Source) (key : AddressKey) (delta : IndexDelta) : Option QueryError :=
  if 0 < delta.amount then (source.lockOutput delta.height delta.txid key).error? else none

/-- Whether a confirmed change is a receipt whose transaction was found and pays to the key by an
output that is locked at the time. -/
def isLockedReceipt (source : Source) (key : AddressKey) (time : Int64) (delta : IndexDelta) :
    Bool :=
  decide (0 < delta.amount) &&
    match source.isTimeLocked time delta.height delta.txid key with
    | .ok locked => locked
    | .error _ => false

/-- The confirmed changes, each with the number of readings at which its lock is looked up when the
time of day was asked for the given number of times before the first. -/
def deltaLooks (source : Source) (key : AddressKey) (reads : Nat) : List (IndexDelta × Nat) :=
  withReads (source.deltaReads key) reads (source.ledger.indexDeltas key)

/-- The receipts among confirmed changes that are locked at the times at which they are looked
up. -/
def lockedLooks (source : Source) (key : AddressKey) (looks : List (IndexDelta × Nat)) :
    List IndexDelta :=
  (looks.filter fun look =>
    source.isLockedReceipt key (source.referenceTime look.2) look.1).map Prod.fst

/-- The locked receipts of a key whose first lock is looked up after the given number of readings.
-/
def lockedDeltas (source : Source) (key : AddressKey) (reads : Nat) : List IndexDelta :=
  source.lockedLooks key (source.deltaLooks key reads)

/-- The pending changes that instant send has made final. -/
def instantDeltas (source : Source) (key : AddressKey) : List PendingDelta :=
  (source.ledger.pendingDeltas key).filter fun delta => source.ledger.isInstant delta.txid

/-- The pending changes that are not final. -/
def openDeltas (source : Source) (key : AddressKey) : List PendingDelta :=
  (source.ledger.pendingDeltas key).filter fun delta => !source.ledger.isInstant delta.txid

/-- The amounts of the final changes: of all confirmed ones, and of the pending ones that are
final. -/
def finalAmounts (source : Source) (key : AddressKey) : List Int64 :=
  (source.ledger.indexDeltas key).map (·.amount) ++ (source.instantDeltas key).map (·.amount)

/-- Every sum that the evaluation of a key forms is an amount; what is locked is a part of what was
received. -/
structure SumsFit (source : Source) (key : AddressKey) : Prop where
  balance : SumsInRange 0 (source.finalAmounts key)
  received : InRange (total ((source.finalAmounts key).filter (0 < ·)))
  unconfirmedDelta : SumsInRange 0 ((source.openDeltas key).map (·.amount))

/-- The balance shows the exact totals of a key, whose first lock is looked up after the given
number of readings. -/
structure Balances (source : Source) (key : AddressKey) (reads : Nat)
    (snapshot : BalanceSnapshot) : Prop where
  balance : snapshot.balance.toInt = total (source.finalAmounts key)
  locked : snapshot.locked.toInt = total ((source.lockedDeltas key reads).map (·.amount))
  received : snapshot.received.toInt = total ((source.finalAmounts key).filter (0 < ·))
  unconfirmedDelta :
    snapshot.unconfirmedDelta.toInt = total ((source.openDeltas key).map (·.amount))

/-- A balance is determined by its address and the totals of its key. -/
theorem Balances.unique {reads : Nat} {left right : BalanceSnapshot}
    (exact : source.Balances key reads left) (same : source.Balances key reads right)
    (address : left.address = right.address) : left = right :=
  BalanceSnapshot.eq_of_totals address (Totals.ext (exact.balance.trans same.balance.symm)
    (exact.locked.trans same.locked.symm) (exact.received.trans same.received.symm)
    (exact.unconfirmedDelta.trans same.unconfirmedDelta.symm))

/-- Where the reference time stands still, the locked receipts are those that are locked then. -/
theorem lockedDeltas_of_standsAt {time : Int64} (stands : source.StandsAt time) (reads : Nat) :
    source.lockedDeltas key reads =
      (source.ledger.indexDeltas key).filter (source.isLockedReceipt key time) :=
  map_fst_filter_withReads (fun look => by rw [stands look.2]) _ _ _

/-- All sums are amounts when the sizes of all changes of the key add up to one. -/
theorem SumsFit.of_small
    (small : (((source.ledger.indexDeltas key).map (·.amount) ++
      (source.ledger.pendingDeltas key).map (·.amount)).map fun amount =>
        amount.toInt.natAbs).sum < 2 ^ 63) : source.SumsFit key := by
  have final : (source.finalAmounts key).Sublist
      ((source.ledger.indexDeltas key).map (·.amount) ++
        (source.ledger.pendingDeltas key).map (·.amount)) :=
    (List.Sublist.refl _).append (List.filter_sublist.map _)
  exact {
    balance := .of_small final small
    received := inRange_total_of_sublist (List.filter_sublist.trans final) small
    unconfirmedDelta := .of_small
      ((List.filter_sublist.map _).trans (List.sublist_append_right _ _)) small }

/-! ## Confirmed changes -/

/-- Adds a confirmed change whose lock is looked up after some readings. -/
def addLook (source : Source) (key : AddressKey) (snapshot : BalanceSnapshot)
    (look : IndexDelta × Nat) : Answer BalanceSnapshot :=
  match source.lookupError? key look.1 with
  | some error => .error error
  | none =>
    snapshot.addFinal look.1.amount
      (source.isLockedReceipt key (source.referenceTime look.2) look.1)

/-- **Confirmed changes are added one after the other**, each with the lock at its own time. -/
theorem addConfirmed_answers (key : AddressKey) (deltas : List IndexDelta)
    (snapshot : BalanceSnapshot) :
    Query.Answers source (source.addConfirmed key deltas snapshot)
      (deltas.map (source.deltaReads key)).sum
      fun reads => (withReads (source.deltaReads key) reads deltas).foldlM (source.addLook key)
        snapshot := by
  induction deltas generalizing snapshot with
  | nil => exact Query.answers_pure snapshot
  | cons delta rest ih =>
      rw [addConfirmed, List.map_cons, List.sum_cons]
      simp only [withReads_cons, List.foldlM_cons, addLook, isLockedReceipt, lookupError?,
        deltaReads]
      by_cases receipt : 0 < delta.amount
      · simp only [if_pos receipt]
        refine ((checkTimeLockCached_answers delta.height delta.txid key).bind fun locked =>
          (Query.answers_ofAnswer (snapshot.addFinal delta.amount locked)).bind ih).congr (by omega)
          fun reads => ?_
        rw [isTimeLocked]
        cases source.lockOutput delta.height delta.txid key with
        | error error => rfl
        | ok output => simp [receipt, Except.map, Answer.error?, bind, Except.bind]
      · simp only [if_neg receipt]
        refine ((Query.answers_ofAnswer (snapshot.addFinal delta.amount false)).bind ih).congr
          (by omega) fun reads => ?_
        simp [receipt]

section Confirmed

variable {looks : List (IndexDelta × Nat)} {snapshot after : BalanceSnapshot}

theorem total_lockedLooks_cons (look : IndexDelta × Nat) (rest : List (IndexDelta × Nat)) :
    total ((source.lockedLooks key (look :: rest)).map (·.amount)) =
      (if source.isLockedReceipt key (source.referenceTime look.2) look.1 then
        Totals.receipt look.1.amount else 0) +
      total ((source.lockedLooks key rest).map (·.amount)) := by
  rw [lockedLooks, List.filter_cons]
  split
  next locked =>
    have positive : 0 < look.1.amount := of_decide_eq_true (Bool.and_eq_true_iff.mp locked).1
    rw [List.map_cons, List.map_cons, total_cons, Totals.receipt, if_pos positive]
    rfl
  next => exact (Int.zero_add _).symm

/-- The totals with the confirmed changes of some looks. -/
def addLooks (source : Source) (key : AddressKey) (totals : Totals)
    (looks : List (IndexDelta × Nat)) : Totals :=
  { totals with
    balance := totals.balance + total (looks.map (·.1.amount))
    locked := totals.locked + total ((source.lockedLooks key looks).map (·.amount))
    received := totals.received + total ((looks.map (·.1.amount)).filter (0 < ·)) }

theorem addLooks_cons (totals : Totals) (look : IndexDelta × Nat)
    (rest : List (IndexDelta × Nat)) :
    source.addLooks key totals (look :: rest) =
      source.addLooks key
        (totals.addFinal look.1.amount
          (source.isLockedReceipt key (source.referenceTime look.2) look.1)) rest := by
  simp only [addLooks, Totals.addFinal, total_lockedLooks_cons, Totals.total_filter_pos_cons,
    List.map_cons, total_cons, Int.add_assoc]

/-- Changes that are added without an error are added to the exact totals. -/
theorem totals_of_addLook (added : looks.foldlM (source.addLook key) snapshot = .ok after) :
    after.address = snapshot.address ∧
      after.totals = source.addLooks key snapshot.totals looks := by
  induction looks generalizing snapshot with
  | nil =>
      cases added
      exact ⟨rfl, by simp [addLooks, lockedLooks]⟩
  | cons look rest ih =>
      obtain ⟨middle, first, later⟩ := Answer.bind_eq_ok.mp added
      rw [addLook] at first
      split at first
      · cases first
      · obtain ⟨address, totals⟩ := BalanceSnapshot.addFinal_eq_ok_iff.mp first
        obtain ⟨same, exact⟩ := ih later
        exact ⟨same.trans address, by rw [exact, addLooks_cons, totals]⟩

/-- Totals that take the changes of looks and more take the rest after them. -/
theorem takesFinal_addLooks {totals : Totals} {rest : List Int64}
    (takes : totals.TakesFinal (looks.map (·.1.amount) ++ rest)) :
    (source.addLooks key totals looks).TakesFinal rest := by
  induction looks generalizing totals with
  | nil => simpa [addLooks, lockedLooks] using takes
  | cons look rest ih =>
      rw [addLooks_cons]
      exact ih (takes.next _)

/-- **Changes whose sums are amounts are added, unless a lookup fails.** -/
theorem exists_addLook (takes : snapshot.totals.TakesFinal (looks.map (·.1.amount))) :
    ∃ after, looks.foldlM (source.addLook key) snapshot =
      Answer.valueUnless (looks.findSome? fun look => source.lookupError? key look.1) after := by
  induction looks generalizing snapshot with
  | nil => exact ⟨snapshot, rfl⟩
  | cons look rest ih =>
      rw [List.foldlM_cons, addLook, List.findSome?_cons]
      cases failed : source.lookupError? key look.1 with
      | some error => exact ⟨snapshot, rfl⟩
      | none =>
          have next := takes.next
            (source.isLockedReceipt key (source.referenceTime look.2) look.1)
          obtain ⟨middle, address, totals⟩ := BalanceSnapshot.exists_totals snapshot.address
            (next.fits snapshot.totals_fit.unconfirmedDelta)
          rw [BalanceSnapshot.addFinal_eq_ok_iff.mpr ⟨address, totals⟩]
          exact ih (totals ▸ next)

end Confirmed

/-! ## Pending changes -/

section Pending

variable {pending : List PendingDelta} {snapshot after : BalanceSnapshot}

/-- The amounts of the pending changes that are final, or of the others. -/
def pendingAmounts (source : Source) (instant : Bool) (pending : List PendingDelta) : List Int64 :=
  (pending.filter fun delta => source.ledger.isInstant delta.txid = instant).map (·.amount)

/-- The totals with pending changes. -/
def addOpen (source : Source) (totals : Totals) (pending : List PendingDelta) : Totals :=
  { totals with
    balance := totals.balance + total (source.pendingAmounts true pending)
    received := totals.received + total ((source.pendingAmounts true pending).filter (0 < ·))
    unconfirmedDelta :=
      totals.unconfirmedDelta + total (source.pendingAmounts false pending) }

theorem pendingAmounts_cons (instant : Bool) (delta : PendingDelta) (rest : List PendingDelta) :
    source.pendingAmounts instant (delta :: rest) =
      if source.ledger.isInstant delta.txid = instant then
        delta.amount :: source.pendingAmounts instant rest
      else source.pendingAmounts instant rest := by
  simp only [pendingAmounts, List.filter_cons]
  split <;> simp_all

theorem addOpen_cons (totals : Totals) (delta : PendingDelta) (rest : List PendingDelta) :
    source.addOpen totals (delta :: rest) =
      source.addOpen
        (totals.addPending delta.amount (source.ledger.isInstant delta.txid)) rest := by
  simp only [addOpen, pendingAmounts_cons, Totals.addPending]
  cases source.ledger.isInstant delta.txid with
  | true =>
      simp [Totals.addFinal, Totals.total_filter_pos_cons, Int.add_assoc]
  | false => simp [Int.add_assoc]

/-- Pending changes that are added without an error are added to the exact totals. -/
theorem totals_of_addPending (added : source.addPending pending snapshot = .ok after) :
    after.address = snapshot.address ∧ after.totals = source.addOpen snapshot.totals pending := by
  induction pending generalizing snapshot with
  | nil =>
      cases added
      exact ⟨rfl, by simp [addOpen, pendingAmounts]⟩
  | cons delta rest ih =>
      obtain ⟨middle, first, later⟩ := Answer.bind_eq_ok.mp added
      obtain ⟨address, totals⟩ := BalanceSnapshot.addPending_eq_ok_iff.mp first
      obtain ⟨same, exact⟩ := ih later
      exact ⟨same.trans address, by rw [exact, addOpen_cons, totals]⟩

/-- **Pending changes whose sums are amounts are added.** -/
theorem exists_addPending
    (takes : snapshot.totals.TakesFinal (source.pendingAmounts true pending))
    (unconfirmed : SumsInRange snapshot.totals.unconfirmedDelta
      (source.pendingAmounts false pending)) :
    ∃ after, source.addPending pending snapshot = .ok after := by
  induction pending generalizing snapshot with
  | nil => exact ⟨snapshot, rfl⟩
  | cons delta rest ih =>
      rw [pendingAmounts_cons] at takes unconfirmed
      -- A change takes one amount from one of the two lists and leaves the other as it is.
      obtain ⟨nextTakes, nextUnconfirmed⟩ :
          (snapshot.totals.addPending delta.amount
            (source.ledger.isInstant delta.txid)).TakesFinal (source.pendingAmounts true rest) ∧
          SumsInRange (snapshot.totals.addPending delta.amount
            (source.ledger.isInstant delta.txid)).unconfirmedDelta
            (source.pendingAmounts false rest) := by
        cases instant : source.ledger.isInstant delta.txid with
        | true =>
            rw [instant] at takes unconfirmed
            exact ⟨takes.next false, unconfirmed⟩
        | false =>
            rw [instant] at takes unconfirmed
            exact ⟨⟨takes.balance, takes.received, takes.least, takes.most⟩, unconfirmed.tail⟩
      obtain ⟨middle, address, totals⟩ := BalanceSnapshot.exists_totals snapshot.address
        (nextTakes.fits nextUnconfirmed.start_inRange)
      obtain ⟨after, added⟩ := @ih middle (totals ▸ nextTakes) (totals ▸ nextUnconfirmed)
      exact ⟨after, Answer.bind_eq_ok.mpr
        ⟨middle, BalanceSnapshot.addPending_eq_ok_iff.mpr ⟨address, totals⟩, added⟩⟩

end Pending

/-! ## Evaluation -/

/-- The balance of a key whose first lock is looked up after the given number of readings. -/
def evaluate (source : Source) (address : String) (key : AddressKey) (reads : Nat) :
    Answer BalanceSnapshot := do
  let confirmed ← (source.deltaLooks key reads).foldlM (source.addLook key)
    { address }
  source.addPending (source.ledger.pendingDeltas key) confirmed

@[simp] theorem map_fst_deltaLooks (reads : Nat) :
    (source.deltaLooks key reads).map Prod.fst = source.ledger.indexDeltas key :=
  map_fst_withReads _ _ _

theorem map_amount_deltaLooks (reads : Nat) :
    (source.deltaLooks key reads).map (fun look => look.1.amount) =
      (source.ledger.indexDeltas key).map (·.amount) := by
  rw [← map_fst_deltaLooks reads, List.map_map]
  rfl

theorem instantAmounts_eq : source.pendingAmounts true (source.ledger.pendingDeltas key) =
    (source.instantDeltas key).map (·.amount) := by
  simp [pendingAmounts, instantDeltas]

theorem openAmounts_eq : source.pendingAmounts false (source.ledger.pendingDeltas key) =
    (source.openDeltas key).map (·.amount) := by
  simp [pendingAmounts, openDeltas]

theorem totals_empty (address : String) :
    BalanceSnapshot.totals { address } = ⟨0, 0, 0, 0⟩ := rfl

/-- **A key that has a balance has the exact totals of its changes.** -/
theorem balances_of_evaluate {address : String} {reads : Nat} {snapshot : BalanceSnapshot}
    (evaluated : source.evaluate address key reads = .ok snapshot) :
    snapshot.address = address ∧ source.Balances key reads snapshot := by
  obtain ⟨confirmed, looked, pending⟩ := Answer.bind_eq_ok.mp evaluated
  obtain ⟨first, totals⟩ := totals_of_addLook looked
  obtain ⟨second, exact⟩ := totals_of_addPending pending
  rw [totals, totals_empty] at exact
  obtain ⟨balance, locked, received, unconfirmed⟩ := Totals.ext_iff.mp exact
  simp only [addOpen, addLooks, map_amount_deltaLooks, instantAmounts_eq, openAmounts_eq,
    Int.zero_add] at balance locked received unconfirmed
  refine ⟨second.trans first, ?_, locked, ?_, unconfirmed⟩
  · rw [finalAmounts, total_append]
    exact balance
  · rw [finalAmounts, List.filter_append, total_append]
    exact received

/-- **A key whose sums are amounts has a balance, unless a lookup fails**; then the first error is
the answer. -/
theorem exists_evaluate_eq (fits : source.SumsFit key) (address : String) (reads : Nat) :
    ∃ snapshot, source.evaluate address key reads =
      Answer.valueUnless ((source.ledger.indexDeltas key).findSome? (source.lookupError? key))
        snapshot := by
  have takes : (BalanceSnapshot.totals { address }).TakesFinal
      ((source.deltaLooks key reads).map (·.1.amount) ++
        (source.instantDeltas key).map (·.amount)) := by
    rw [map_amount_deltaLooks, totals_empty]
    exact ⟨fits.balance, (Int.zero_add _).symm ▸ fits.received, Int.le_refl 0, Int.le_refl 0⟩
  obtain ⟨confirmed, looked⟩ := @exists_addLook source key _ { address } takes.front
  rw [show (fun look : IndexDelta × Nat => source.lookupError? key look.1) =
    source.lookupError? key ∘ Prod.fst from rfl, ← List.findSome?_map, map_fst_deltaLooks] at looked
  rw [evaluate, looked]
  cases failed : (source.ledger.indexDeltas key).findSome? (source.lookupError? key) with
  | some error => exact ⟨default, rfl⟩
  | none =>
      rw [failed] at looked
      obtain ⟨_, totals⟩ := totals_of_addLook looked
      refine @exists_addPending source _ confirmed ?_ ?_
      · rw [totals, instantAmounts_eq]
        exact takesFinal_addLooks takes
      · rw [totals, openAmounts_eq]
        exact fits.unconfirmedDelta

end Source

end CoinLedger
