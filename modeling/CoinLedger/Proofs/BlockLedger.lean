import CoinLedger.Proofs.Loading
import CoinLedger.Proofs.Selection.Spendable

/-!
# Ledgers of one block

The simplest ledger has one block and indexes for one key the outputs of the block that pay to it.
Nothing in it is spent, and every lookup of a lock succeeds (`answered_ofBlock`).  A ledger of
changes has a block and the confirmed and pending changes of one key; it is loaded from a snapshot
(`ofSnapshot_ofChanges`), and so is one with a block and the entry of one address
(`ofSnapshot_ofEntry`).  Such ledgers serve as concrete cases of general statements.
-/

set_option autoImplicit false

namespace CoinLedger

/-- The outputs of a transaction at a height that pay to a key, as entries of the index. -/
def Transaction.entriesTo (transaction : Transaction) (height : Int32) (key : AddressKey) :
    List UnspentOutput :=
  (transaction.outputs.zipIdx.filter fun output => output.1.destination = some key).map
    fun output => ⟨transaction.txid, UInt32.ofNat output.2, output.1.value, height⟩

/-- The outputs of a block that pay to a key, as entries of the index. -/
def Block.entriesTo (block : Block) (key : AddressKey) : List UnspentOutput :=
  block.transactions.flatMap fun transaction => transaction.entriesTo block.height key

/-- The ledger of a block with the index of one key. -/
def Ledger.ofBlock (tipHeight : Int32) (block : Block) (key : AddressKey) : Ledger where
  tipHeight
  blocks := [block]
  addresses := [(key, { unspent := block.entriesTo key })]

/-- A source that reads the ledger of a block, with a clock that stands still. -/
def Source.ofBlock (tipHeight : Int32) (block : Block) (key : AddressKey) : Source where
  ledger := .ofBlock tipHeight block key
  clock := .frozen

section Laws

variable (tipHeight : Int32) (block : Block) (key : AddressKey)

@[simp] theorem Ledger.unspent_ofBlock :
    (ofBlock tipHeight block key).unspent key = block.entriesTo key := by
  simp [ofBlock, unspent, records]

@[simp] theorem Ledger.readBlock_ofBlock :
    (ofBlock tipHeight block key).readBlock block.height = .ok block := by
  simp [ofBlock, readBlock]

/-- The lock of every entry can be looked up. -/
theorem Source.answered_ofBlock {output : UnspentOutput}
    (member : output ∈ (Source.ofBlock tipHeight block key).ledger.unspent key) :
    (Source.ofBlock tipHeight block key).Answered key output := by
  rw [show (Source.ofBlock tipHeight block key).ledger = .ofBlock tipHeight block key from rfl,
    Ledger.unspent_ofBlock] at member
  obtain ⟨transaction, listed, member⟩ := List.mem_flatMap.mp member
  obtain ⟨_, _, rfl⟩ := List.mem_map.mp member
  obtain ⟨found, finds⟩ : ∃ found, block.findTransaction transaction.txid = some found :=
    Option.isSome_iff_exists.mp (List.find?_isSome.mpr ⟨transaction, listed, by simp⟩)
  refine ⟨found.outputTo key, Answer.bind_eq_ok.mpr
    ⟨block, Ledger.readBlock_ofBlock tipHeight block key, ?_⟩⟩
  rw [Block.outputTo, finds]

/-- A selection can tell of every entry whether it may use it, below the greatest height. -/
theorem Source.judged_ofBlock (below : tipHeight < Int32.maxValue) (time : Int64)
    (request : SelectionRequest) {output : UnspentOutput}
    (member : output ∈ (Source.ofBlock tipHeight block key).ledger.unspent key) :
    (Source.ofBlock tipHeight block key).Judged time request key output where
  answered := answered_ofBlock tipHeight block key member
  counted _ _ _ := Ledger.depth_le_maxValue below

/-- The clock of such a source stands still. -/
theorem Source.standsAt_ofBlock :
    (Source.ofBlock tipHeight block key).StandsAt Clock.defaultUnixTime :=
  .of_clock fun _ => rfl

end Laws

/-! ## A key with an address -/

/-- The key whose hash is twenty times the byte one. -/
def AddressKey.ones : AddressKey :=
  ⟨⟨List.replicate 20 1, by simp⟩, .pubKeyHash⟩

/-- The address of `AddressKey.ones`. -/
def AddressKey.onesAddress : String := "SMPJunctnV4LunQRk37CuFeWeU9iBDoZwx"

theorem Network.resolve_onesAddress :
    Network.resolve {} AddressKey.onesAddress = .ok AddressKey.ones :=
  Answer.eq_ok_of_toOption (by decide +kernel)

/-- A block with one transaction. -/
def Block.ofOutputs (outputs : List TxOutput) : Block where
  height := 10
  hash := default
  time := 0
  transactions := [⟨default, outputs⟩]

/-- A block whose one transaction pays amounts to the key `AddressKey.ones`. -/
def Block.paying (amounts : List Int64) : Block :=
  .ofOutputs (amounts.map fun value => ⟨value, Script.payTo .ones⟩)

/-- A source that reads the ledger of such a block, ten blocks deep. -/
def Source.paying (amounts : List Int64) : Source :=
  .ofBlock 20 (.paying amounts) .ones

/-! ## Ledgers of changes -/

/-- The hash all of whose bytes are the same. -/
def Hash256.filled (byte : UInt8) : Hash256 := ⟨List.replicate 32 byte, by simp⟩

/-- A pending change at a time. -/
def PendingDelta.at (timestamp : Int64) (txid : Txid) (amount : Int64) : PendingDelta where
  txid
  index := 0
  addressType := 1
  amount
  timestamp
  prevout := none

section Changes

variable (block : Block) (confirmed : List IndexDelta) (pending : List PendingDelta)
  (instant : List Txid)

/-- A snapshot of a block with the changes of `AddressKey.ones`. -/
def LedgerSnapshot.ofChanges : LedgerSnapshot where
  tipHeight := 1000
  blocks := [block]
  addresses := [⟨AddressKey.onesAddress, confirmed, [], []⟩]
  mempool := { deltas := pending.map (⟨AddressKey.onesAddress, ·⟩), instant }

/-- The ledger of a block with the changes of `AddressKey.ones`. -/
def Ledger.ofChanges : Ledger where
  tipHeight := 1000
  blocks := [block]
  addresses := [(.ones, { deltas := confirmed })]
  pending := pending.map (AddressKey.ones, ·)
  instant

/-- A source that reads such a ledger. -/
def Source.ofChanges : Source where
  ledger := .ofChanges block confirmed pending instant
  clock := .frozen

theorem Ledger.resolveEach_map {α β : Type} {network : Network} (address : β → String)
    (entry : α → β) {key : AddressKey}
    (resolved : ∀ item, network.resolve (address (entry item)) = .ok key) (items : List α) :
    resolveEach network address (items.map entry) =
      .ok (items.map fun item => (key, entry item)) := by
  induction items with
  | nil => rfl
  | cons item rest ih =>
      rw [List.map_cons, resolveEach, resolved, ih]
      rfl

/-- A snapshot all of whose addresses resolve is loaded. -/
theorem Ledger.ofSnapshot_eq_ok {network : Network} {snapshot : LedgerSnapshot}
    {entries : List (AddressKey × AddressEntry)} {pending : List (AddressKey × PendingEntry)}
    (addresses : resolveEach network (·.address) snapshot.addresses = .ok entries)
    (deltas : resolveEach network (·.address) snapshot.mempool.deltas = .ok pending) :
    ofSnapshot network snapshot = .ok {
      tipHeight := snapshot.tipHeight
      medianTimePast := snapshot.medianTimePast
      blocks := snapshot.blocks
      addresses := (entries.map (·.1)).eraseDups.map fun key => (key, gather entries key)
      pending := pending.map fun entry => (entry.1, entry.2.delta)
      spent := snapshot.mempool.spent
      instant := snapshot.mempool.instant } := by
  rw [ofSnapshot, addresses, deltas]

theorem Ledger.ofSnapshot_ofChanges :
    ofSnapshot {} (.ofChanges block confirmed pending instant) =
      .ok (.ofChanges block confirmed pending instant) := by
  have entries := resolveEach_map AddressEntry.address
    (fun deltas => ⟨AddressKey.onesAddress, deltas, [], []⟩)
    (fun _ => Network.resolve_onesAddress) [confirmed]
  have changes := resolveEach_map PendingEntry.address (PendingEntry.mk AddressKey.onesAddress)
    (fun _ => Network.resolve_onesAddress) pending
  have loaded : ofSnapshot {} (.ofChanges block confirmed pending instant) = .ok _ :=
    ofSnapshot_eq_ok entries changes
  rw [loaded]
  simp [ofChanges, gather, Function.comp_def, List.eraseDups_cons, LedgerSnapshot.ofChanges]

end Changes

/-! ## Ledgers of one entry -/

section Records

variable (block : Block) (entry : AddressEntry)

/-- A snapshot of a block with the records of one address. -/
def LedgerSnapshot.ofEntry : LedgerSnapshot where
  tipHeight := 1000
  blocks := [block]
  addresses := [entry]

/-- The ledger of a block with the records of `AddressKey.ones`. -/
def Ledger.ofEntry : Ledger where
  tipHeight := 1000
  blocks := [block]
  addresses := [(.ones, gather [(.ones, entry)] .ones)]

/-- A source that reads such a ledger, with a clock that stands still. -/
def Source.ofEntry : Source where
  ledger := .ofEntry block entry
  clock := .frozen

theorem Ledger.resolveEach_singleton (own : entry.address = AddressKey.onesAddress) :
    resolveEach {} AddressEntry.address [entry] = .ok [(.ones, entry)] := by
  rw [resolveEach, own, Network.resolve_onesAddress]
  rfl

theorem Ledger.ofSnapshot_ofEntry (own : entry.address = AddressKey.onesAddress) :
    ofSnapshot {} (.ofEntry block entry) = .ok (Source.ofEntry block entry).ledger := by
  have quiet : resolveEach {} PendingEntry.address [] = .ok [] := rfl
  have loaded : ofSnapshot {} (.ofEntry block entry) = .ok _ :=
    ofSnapshot_eq_ok (resolveEach_singleton entry own) quiet
  rw [loaded]
  simp [ofEntry, Source.ofEntry, List.eraseDups_cons, LedgerSnapshot.ofEntry]

variable {block entry}

theorem LedgerSnapshot.entriesOf_ofEntry (own : entry.address = AddressKey.onesAddress) :
    entriesOf (.ofEntry block entry) {} .ones = [entry] := by
  have known : Network.keyOf? {} AddressKey.onesAddress = some .ones :=
    Network.keyOf?_eq_some Network.resolve_onesAddress
  simp [entriesOf, ofEntry, own, known]

theorem LedgerSnapshot.unspentOf_ofEntry (own : entry.address = AddressKey.onesAddress) :
    unspentOf (.ofEntry block entry) {} .ones = entry.unspent := by
  rw [unspentOf, entriesOf_ofEntry own, List.flatMap_singleton]

theorem LedgerSnapshot.depositsOf_ofEntry (own : entry.address = AddressKey.onesAddress) :
    depositsOf (.ofEntry block entry) {} .ones = entry.deposits := by
  rw [depositsOf, entriesOf_ofEntry own, List.flatMap_singleton]

end Records

end CoinLedger
