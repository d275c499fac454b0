import CoinLedger.CommandLine.Diagnosis
import CoinLedger.CommandLine.Query

/-!
# The program

Collects what the queries of the command line need from the machine, runs one of them, prints its
outcome and ends with its exit code.  With `diagnose` as the first argument the others are a
snapshot and an address to diagnose.
-/

set_option autoImplicit false

namespace CoinLedger.Program

/-- The environment variables that queries look at, as far as they are set. -/
def readVariables : IO (List (String × String)) :=
  ("HOME" :: Host.logFileVariable :: Settings.variableNames).filterMapM fun name => do
    return (← IO.getEnv name).map fun value => (name, value)

/-- The contents of a file; none when it cannot be read as text. -/
def readFile? (path : String) : IO (Option String) := do
  match ← (IO.FS.readFile path).toBaseIO with
  | .ok text => return some text
  | .error _ => return none

/-- The time of day, as the file system stamps a new file. -/
def timeOfDay : IO Int64 := do
  let (_, path) ← IO.FS.createTempFile
  let time := (← path.metadata).modified.sec
  IO.FS.removeFile path
  return Int64.ofInt time

/-- A number for random draws to start from. -/
def randomSeed : IO UInt64 := do
  return (← IO.getRandomBytes 8).toList.foldl (fun seed byte => seed * 256 + byte.toUInt64) 0

/-- The host with the files of the given paths. -/
def readHost (paths : List String) : IO Host := do
  let bare : Host :=
    { environment := ← readVariables, clock := .stepping 1 (← timeOfDay), seed := ← randomSeed }
  let files ← (paths.map bare.expand).filterMapM fun path => do
    return (← readFile? path).map fun text => (Path.plain path, text)
  return { bare with files }

/-- Runs what the arguments ask for. -/
def outcomeOf : List String → IO Outcome
  | "diagnose" :: arguments =>
      return (← readHost (Host.diagnosisPaths arguments)).diagnose arguments
  | arguments => do
    let paths := ((Invocation.ofArguments? arguments).map Invocation.paths).getD []
    return (← readHost paths).query arguments

end CoinLedger.Program

open CoinLedger Program in
/-- Runs the program. -/
def main (arguments : List String) : IO UInt32 := do
  let outcome ← outcomeOf arguments
  (← IO.getStdout).putStr outcome.output
  (← IO.getStderr).putStr outcome.notes
  return outcome.exitCode.toUInt32
