import CoinLedger.CommandLine.Path
import CoinLedger.Ledger.Codec
import CoinLedger.Ledger.Layout
import CoinLedger.Session
import CoinLedger.Settings

/-!
# Hosts

A program runs on a host, which has files, environment variables, a time of day and a source of
chance.  What the program leaves there is an outcome: an exit code, what it printed, and notes
beside it.  Settings and a ledger are loaded before any query runs, and each way in which that can
fail is a cause of its own.
-/

set_option autoImplicit false

namespace CoinLedger

/-- What a program finds where it runs. -/
structure Host where
  /-- The files with their contents, under their plain paths. -/
  files : List (String × String) := []
  /-- The other places below which no file can be made. -/
  closedPlaces : List String :=
    ["/dev/null", "/dev/zero", "/dev/full", "/dev/random", "/dev/urandom", "/dev/tty", "/proc",
      "/sys", "/etc/passwd", "/etc/group", "/etc/hosts"]
  /-- The environment variables. -/
  environment : List (String × String) := []
  /-- The clock; a reading takes a microsecond when no other one is given. -/
  clock : Clock := .stepping 1
  /-- What random draws start from. -/
  seed : UInt64 := 0

/-- What a program leaves where it ran. -/
structure Outcome where
  exitCode : UInt8 := 0
  /-- What the program printed. -/
  output : String := ""
  /-- What the program had to say beside its output. -/
  notes : String := ""
  deriving DecidableEq, Repr

/-- Why a program ends without the answer to its query. -/
inductive Failure where
  /-- The arguments are not admitted. -/
  | arguments
  /-- The log file has no name. -/
  | logFileName
  /-- The log file cannot be made. -/
  | logFile
  | settings (error : SettingsError)
  | missingSnapshot (path : String)
  | malformedSnapshot
  /-- An address of the snapshot or of the arguments does not resolve. -/
  | address (error : QueryError)
  /-- The query was stopped. -/
  | stopped
  deriving Repr

namespace Failure

/-- What is noted about a failure. -/
def note : Failure → String
  | .arguments => "The arguments are not understood."
  | .logFileName => "Invalid log file path: no filename"
  | .logFile => "The log file cannot be made."
  | .settings error => error.message?.getD "The settings cannot be read."
  | .missingSnapshot path => "Snapshot does not exist: " ++ path
  | .malformedSnapshot => "The snapshot is not well formed."
  | .address error => error.message
  | .stopped => QueryError.stopped.message

/-- Whether a failure stops the program where it stands. -/
def isAbrupt : Failure → Bool
  | .logFile | .settings .noSuchPosition => true
  | _ => false

/-- The exit code of a program that stops where it stands. -/
def abruptExit : UInt8 := 101

/-- The exit code of a program that fails. -/
def exitCode (failure : Failure) : UInt8 :=
  if failure.isAbrupt then abruptExit else 1

/-- What a program that fails leaves, if it printed a given text before. -/
def outcomeAfter (output : String) (failure : Failure) : Outcome :=
  { exitCode := failure.exitCode, output, notes := failure.note ++ "\n" }

end Failure

namespace Host

/-- The path that stands for the given one; a tilde in front is the home directory. -/
def expand (host : Host) (path : String) : String :=
  match path.toList, host.environment.lookup "HOME" with
  | ['~'], some home => home
  | '~' :: '/' :: rest, some home => home ++ String.ofList ('/' :: rest)
  | _, _ => path

/-- The contents of a file. -/
def file? (host : Host) (path : String) : Option String :=
  let path := host.expand path
  if Path.mayBeFile path then host.files.lookup (Path.plain path) else none

/-! ## The log file -/

/-- The environment variable that names the log file. -/
def logFileVariable : String := "RUSTYLEDGER_LOG_FILE"

/-- The most bytes that a name may have. -/
def maxNameBytes : Nat := 255

/-- How many bytes the day takes behind the name of a log file. -/
def dayBytes : Nat := 11

/-- Whether something stands at a place that is no directory in which files can be made. -/
def isClosed (host : Host) (place : String) : Bool :=
  (host.files.lookup place).isSome || host.closedPlaces.contains place

/-- Whether a log file can be made.  Its name is that of the path without the ending, and the day;
directories that are missing are made too. -/
def canMakeLogFile (host : Host) (path : String) : Bool :=
  let directories := (Path.parts path).dropLast
  let nameBytes := ((Path.parts path).getLast?.map fun name =>
    (Path.stem name).utf8ByteSize + dayBytes).getD 0
  (Path.placesAlong (Path.isAbsolute path) [] directories).all (!host.isClosed ·) &&
    directories.all (·.utf8ByteSize ≤ maxNameBytes) && nameBytes ≤ maxNameBytes

/-- Checks that the log file, if one is wanted, has a name and can be made. -/
def checkLogFile (host : Host) : Except Failure Unit :=
  match host.environment.lookup logFileVariable with
  | none => .ok ()
  | some path =>
    if !Path.hasName path then .error .logFileName
    else if !host.canMakeLogFile path then .error .logFile
    else .ok ()

/-! ## Settings -/

/-- The file of settings that is read when no other is named. -/
def defaultSettingsPath : String := "config.toml"

/-- The ending of files of settings. -/
def settingsEnding : String := ".toml"

/-- The path that is tried when a path names no file of settings. -/
def withSettingsEnding (path : String) : String :=
  Path.plain path ++ settingsEnding

/-- The contents of a file of settings, whose ending may be left out. -/
def settingsFile? (host : Host) (path : String) : Option String :=
  match host.file? path with
  | some text => if settingsEnding.toList.isSuffixOf path.toList then some text else none
  | none => host.file? (withSettingsEnding path)

/-- Loads the settings of a file, which must be there if it is named, and of the environment. -/
def loadSettings (host : Host) (path : Option String) : Except Failure Settings :=
  let loaded :=
    match path with
    | none => Settings.load (host.file? defaultSettingsPath) host.environment
    | some path =>
      match host.settingsFile? path with
      | none => .error .missingFile
      | some text => Settings.load (some text) host.environment
  loaded.mapError .settings

/-! ## Ledgers -/

/-- Loads the ledger of a snapshot. -/
def loadLedger (host : Host) (path : String) (network : Network) : Except Failure Ledger := do
  match host.file? path with
  | none => throw (.missingSnapshot (host.expand path))
  | some text =>
    match Json.parseShape? LedgerSnapshot.shape text with
    | none => throw .malformedSnapshot
    | some json =>
      match LedgerSnapshot.ofJson json with
      | .error _ => throw .malformedSnapshot
      | .ok snapshot => (Ledger.ofSnapshot network snapshot).mapError .address

/-- Loads a ledger and makes it the source of queries. -/
def openSource (host : Host) (path : String) (network : Network) : Except Failure Source := do
  return { ledger := ← host.loadLedger path network, clock := host.clock, network }

end Host

end CoinLedger
