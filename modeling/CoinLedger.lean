import CoinLedger.Address.Key
import CoinLedger.Address.Text
import CoinLedger.Amount
import CoinLedger.Balance
import CoinLedger.CommandLine.Arguments
import CoinLedger.CommandLine.Diagnosis
import CoinLedger.CommandLine.Host
import CoinLedger.CommandLine.Invocation
import CoinLedger.CommandLine.Path
import CoinLedger.CommandLine.Query
import CoinLedger.Digest.Block
import CoinLedger.Digest.Ripemd160
import CoinLedger.Digest.Sha256
import CoinLedger.Hash
import CoinLedger.Json.Basic
import CoinLedger.Json.Decode
import CoinLedger.Json.Printer
import CoinLedger.Json.Range
import CoinLedger.Json.Reader
import CoinLedger.Json.Shape
import CoinLedger.Json.Skip
import CoinLedger.Ledger
import CoinLedger.Ledger.BlockCache
import CoinLedger.Ledger.Codec
import CoinLedger.Ledger.Layout
import CoinLedger.Ledger.Record
import CoinLedger.Ledger.Snapshot
import CoinLedger.Listing.Deposits
import CoinLedger.Listing.History
import CoinLedger.Listing.Mempool
import CoinLedger.Listing.Page
import CoinLedger.Listing.Page.Word
import CoinLedger.Listing.Unspent
import CoinLedger.Main
import CoinLedger.Proofs.Address
import CoinLedger.Proofs.Address.Codec
import CoinLedger.Proofs.Amount
import CoinLedger.Proofs.Amount.Coins
import CoinLedger.Proofs.Answer
import CoinLedger.Proofs.Balance.Address
import CoinLedger.Proofs.Balance.Batch
import CoinLedger.Proofs.Balance.History
import CoinLedger.Proofs.Balance.Report
import CoinLedger.Proofs.Balance.Spelling
import CoinLedger.Proofs.Balance.Sums
import CoinLedger.Proofs.Balance.Unlocked
import CoinLedger.Proofs.BlockCache
import CoinLedger.Proofs.BlockLedger
import CoinLedger.Proofs.CacheSize
import CoinLedger.Proofs.CachedQuery
import CoinLedger.Proofs.Distinct
import CoinLedger.Proofs.HashText
import CoinLedger.Proofs.Json.Rearranged
import CoinLedger.Proofs.Ledger.Codec
import CoinLedger.Proofs.Ledger.Indexes
import CoinLedger.Proofs.Listing.BlockReads
import CoinLedger.Proofs.Listing.Deposits
import CoinLedger.Proofs.Listing.History
import CoinLedger.Proofs.Listing.LedgerOrder
import CoinLedger.Proofs.Listing.Mirror
import CoinLedger.Proofs.Listing.Page
import CoinLedger.Proofs.Listing.Paged
import CoinLedger.Proofs.Listing.Sightings
import CoinLedger.Proofs.Listing.Unspent
import CoinLedger.Proofs.Listing.UnspentPages
import CoinLedger.Proofs.Listing.Word
import CoinLedger.Proofs.Loading
import CoinLedger.Proofs.LockTimes
import CoinLedger.Proofs.LockValues
import CoinLedger.Proofs.Locks
import CoinLedger.Proofs.Order
import CoinLedger.Proofs.Progress.Locks
import CoinLedger.Proofs.Progress.Reports
import CoinLedger.Proofs.Progress.Selections
import CoinLedger.Proofs.Random
import CoinLedger.Proofs.Related
import CoinLedger.Proofs.Script.Codec
import CoinLedger.Proofs.Script.Grammar
import CoinLedger.Proofs.Script.Lock
import CoinLedger.Proofs.Script.Number
import CoinLedger.Proofs.Script.Positions
import CoinLedger.Proofs.Selection.Agreement
import CoinLedger.Proofs.Selection.Change
import CoinLedger.Proofs.Selection.Clock
import CoinLedger.Proofs.Selection.Deadline
import CoinLedger.Proofs.Selection.Fee
import CoinLedger.Proofs.Selection.FirstPayment
import CoinLedger.Proofs.Selection.Listed
import CoinLedger.Proofs.Selection.Minimality
import CoinLedger.Proofs.Selection.Payment
import CoinLedger.Proofs.Selection.Pool
import CoinLedger.Proofs.Selection.Run
import CoinLedger.Proofs.Selection.Settled
import CoinLedger.Proofs.Selection.Soundness
import CoinLedger.Proofs.Selection.Spendable
import CoinLedger.Proofs.Selection.Timeout
import CoinLedger.Proofs.Selection.Trace
import CoinLedger.Proofs.Selection.Walk
import CoinLedger.Proofs.Sorting
import CoinLedger.Proofs.Text.Base58
import CoinLedger.Proofs.Text.Blank
import CoinLedger.Proofs.Text.Decimal
import CoinLedger.Proofs.Text.Hex
import CoinLedger.Proofs.Total
import CoinLedger.QueryError
import CoinLedger.Random
import CoinLedger.Script
import CoinLedger.Script.Number
import CoinLedger.Selection
import CoinLedger.Selection.Fee
import CoinLedger.Selection.Policy
import CoinLedger.Selection.Scan
import CoinLedger.Selection.Solution
import CoinLedger.Session
import CoinLedger.Session.Clock
import CoinLedger.Session.Metrics
import CoinLedger.Settings
import CoinLedger.Settings.Layers
import CoinLedger.Text.Base58
import CoinLedger.Text.Blank
import CoinLedger.Text.Decimal
import CoinLedger.Text.Hex
import CoinLedger.Text.Printable
import CoinLedger.Text.Quoted
import CoinLedger.Text.Shorten
import CoinLedger.Text.Utf8
import CoinLedger.TimeLock
import CoinLedger.Toml.Basic
import CoinLedger.Toml.Datetime
import CoinLedger.Toml.Entries
import CoinLedger.Toml.Numbers
import CoinLedger.Toml.Reader
import CoinLedger.Toml.Strings
import CoinLedger.Toml.Tree
