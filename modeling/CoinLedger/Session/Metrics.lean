/-!
# Metrics

What the queries report about themselves is a row of events.  The exposition is a list of lines,
each a name with labels and a value; every value is a sum over the events, and a line whose value is
zero is left out.
-/

set_option autoImplicit false

namespace CoinLedger

/-- Something that a query reports about itself. -/
inductive MetricEvent where
  /-- A selection ended, after scanning a number of slices for a number of microseconds. -/
  | selection (mode outcome : String) (slices micros : Nat)
  /-- A batch of balances was asked for. -/
  | balanceQuery
  /-- An address of a batch met an error of the given code. -/
  | addressError (code : String)
  /-- A cache answered a read from its own blocks. -/
  | cachedRead
  /-- A cache answered a read by a block from the ledger. -/
  | ledgerRead
  deriving DecidableEq, Repr

namespace Metrics

/-- What all metric names begin with. -/
def namespaceText : String := "rustyledger_"

/-- The value of a label, with the backslash, the line feed and the quote escaped. -/
def labelValue (text : String) : String :=
  String.ofList (text.toList.flatMap fun character =>
    if character == '\\' then ['\\', '\\']
    else if character == '\n' then ['\\', 'n']
    else if character == '"' then ['\\', '"']
    else [character])

/-- The name of a metric with its labels in braces. -/
def lineName (name : String) (labels : List (String × String)) : String :=
  let label (entry : String × String) := entry.1 ++ "=\"" ++ labelValue entry.2 ++ "\""
  namespaceText ++ name ++
    if labels.isEmpty then "" else "\x7b" ++ ",".intercalate (labels.map label) ++ "\x7d"

/-- A line of the exposition. -/
abbrev Line := String × Nat

/-- The selections among the events: mode, outcome, slices and microseconds. -/
def selections (events : List MetricEvent) : List (String × String × Nat × Nat) :=
  events.filterMap fun
    | .selection mode outcome slices micros => some (mode, outcome, slices, micros)
    | _ => none

/-- One line for each distinct text, with the number of its occurrences under a label. -/
def tally (name label : String) (texts : List String) : List Line :=
  texts.eraseDups.map fun text => (lineName name [(label, text)], texts.count text)

/-- The cumulative buckets of a histogram: for each bound, its text and how many values it admits.
-/
def buckets (name : String) (labels : List (String × String)) (bounds : List (String × Nat))
    (values : List Nat) : List Line :=
  (bounds.map fun bound =>
      (lineName name (labels ++ [("le", bound.1)]), values.countP (· ≤ bound.2))) ++
    [(lineName name (labels ++ [("le", "+Inf")]), values.length)]

/-- The bounds of the histogram of slices. -/
def sliceBounds : List (String × Nat) :=
  [1, 2, 3, 5, 10, 25, 50, 100, 500].map fun bound => (toString bound, bound)

/-- The bounds of the histogram of durations, in seconds as text and in microseconds. -/
def durationBounds : List (String × Nat) := [
  ("0.001", 1000), ("0.005", 5000), ("0.01", 10000), ("0.05", 50000), ("0.1", 100000),
  ("0.5", 500000), ("1", 1000000), ("2.5", 2500000), ("5", 5000000), ("10", 10000000)]

/-- The lines about selections other than the buckets of their durations. -/
def selectionLines (events : List MetricEvent) : List Line :=
  let ended := selections events
  let slices := ended.map (·.2.2.1)
  tally "selection_outcomes_total" "outcome" (ended.map (·.2.1)) ++
    tally "selection_duration_seconds_count" "mode" (ended.map (·.1)) ++
    buckets "selection_slices_bucket" [] sliceBounds slices ++
    [(lineName "selection_slices_sum" [], slices.foldl (· + ·) 0),
      (lineName "selection_slices_count" [], slices.length)]

/-- The buckets of the durations of selections, for each mode. -/
def durationLines (events : List MetricEvent) : List Line :=
  let ended := selections events
  (ended.map (·.1)).eraseDups.flatMap fun mode =>
    buckets "selection_duration_seconds_bucket" [("mode", mode)] durationBounds
      ((ended.filter (·.1 = mode)).map (·.2.2.2))

/-- The lines about balances and block reads. -/
def readingLines (events : List MetricEvent) : List Line :=
  let codes := events.filterMap fun
    | .addressError code => some code
    | _ => none
  [(lineName "balance_queries_total" [], events.count .balanceQuery)] ++
    tally "address_errors_total" "code" codes ++
    [(lineName "block_reads_total" [("source", "cache")], events.count .cachedRead),
      (lineName "block_reads_total" [("source", "ledger")], events.count .ledgerRead)]

/-- The lines whose value is not zero. -/
def nonZero (lines : List Line) : List Line :=
  lines.filter (·.2 ≠ 0)

/-- The exposition without the buckets of durations. -/
def exposition (events : List MetricEvent) : List Line :=
  nonZero (selectionLines events ++ readingLines events)

/-- The exposition with the buckets of durations. -/
def fullExposition (events : List MetricEvent) : List Line :=
  nonZero (selectionLines events ++ durationLines events ++ readingLines events)

end Metrics

end CoinLedger
