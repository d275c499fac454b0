import CoinLedger.Random
import CoinLedger.Selection.Solution

/-!
# Selection policies

A policy says in which order the outputs of a slice are walked, which set a walk starts from, and
what becomes of a set that covers the request.  The random policy shuffles each slice, goes on with
the set of the last walk and accepts the first covering set.  The minimal policy walks the largest
outputs seen so far from an empty set and accepts a set only if it has fewer outputs than the best
one; outputs that no smaller set can use are dropped.
-/

set_option autoImplicit false

namespace CoinLedger

/-- How outputs are selected. -/
inductive Policy where
  | random
  | minimal
  deriving DecidableEq, Repr, Inhabited

/-- Outputs with the largest amount first; equal amounts in the order of the outputs. -/
def UnspentOutput.largestFirst : UnspentOutput → UnspentOutput → Ordering :=
  compareLex (fun left right => compare right.amount left.amount) (compareOn outpoint)

/-- The entries without those that repeat the output of the entry before them. -/
def dropRepeats : List UnspentOutput → List UnspentOutput
  | [] => []
  | entry :: rest =>
    match dropRepeats rest with
    | [] => [entry]
    | next :: others =>
      if entry.outpoint = next.outpoint then entry :: others else entry :: next :: others

namespace Policy

/-- The name of a policy. -/
def label : Policy → String
  | .random => "random"
  | .minimal => "minimal"

/-- The pool of a minimal selection after a slice: the largest outputs first, each one once. -/
def mergePool (pool fresh : List UnspentOutput) : List UnspentOutput :=
  dropRepeats ((pool ++ fresh).mergeSort fun a b => (UnspentOutput.largestFirst a b).isLE)

/-- The set from which a walk starts, given the set of the last walk if that covered nothing. -/
def startingSet : Policy → Solution → Solution
  | .random, carried => carried
  | .minimal, _ => {}

/-- Whether a covering set replaces the best one so far. -/
def improves (policy : Policy) (candidate : Solution) : Option Solution → Bool
  | none => true
  | some best =>
    match policy with
    | .random => true
    | .minimal => candidate.size < best.size

/-- The outputs of the pool that can still improve the best set; `none` when nothing can. -/
def prune : Policy → Option Solution → List UnspentOutput → Option (List UnspentOutput)
  | .minimal, some best, pool => if best.size ≤ 1 then none else some (pool.take (best.size - 1))
  | _, _, pool => some pool

end Policy

end CoinLedger
