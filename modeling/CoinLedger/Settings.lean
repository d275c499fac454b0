import CoinLedger.Selection.Scan
import CoinLedger.Settings.Layers
import CoinLedger.Text.Quoted

/-!
# Settings

The settings of the engine are read from the tree of settings in a fixed order, and the first one
that cannot be read is the error.  A missing setting takes its default.  Truth values count as one
and zero, fractions are rounded with a half going away from zero, and numbers are cut to the width
of their setting.
-/

set_option autoImplicit false

namespace CoinLedger

/-- Why settings cannot be loaded. -/
inductive SettingsError where
  /-- A setting has a value that it must not have. -/
  | invalid (text : String)
  /-- A setting is not of the type that it has to be of. -/
  | wrongType (found expected key : String)
  /-- A file of settings is not well formed. -/
  | malformedFile
  /-- A file of settings is not there. -/
  | missingFile
  /-- A subscript in a key of a layer means no position of its array; the program stops. -/
  | noSuchPosition
  deriving DecidableEq, Repr

/-- The wording of an error, for the errors that have one. -/
def SettingsError.message? : SettingsError → Option String
  | .invalid text => some text
  | .wrongType found expected _ => some ("invalid type: " ++ found ++ ", expected " ++ expected)
  | .malformedFile | .missingFile | .noSuchPosition => none

/-- The settings of the engine. -/
structure Settings where
  tuning : SelectionTuning := {}
  network : Network := {}
  deriving DecidableEq, Repr

namespace Settings

/-- The tree of settings. -/
abbrev Tree := List (String × Setting)

/-! ## Numbers -/

/-- The number that a word for a truth value stands for, in any letter case. -/
def truthNumber? (text : String) : Option Int :=
  let lower := String.ofList (text.toList.map Char.toLower)
  if ["true", "on", "yes"].contains lower then some 1
  else if ["false", "off", "no"].contains lower then some 0
  else none

/-- Reads a number from text, if the range admits it. -/
def numberOfText (read : List Char → Option Int) (least greatest : Int) (text : String) :
    Option Int :=
  match truthNumber? text with
  | some value => some value
  | none => (read text.toList).filter fun value => least ≤ value && value ≤ greatest

/-- A setting as a signed number of 64 bits. -/
def signed (key : String) : Setting → Except SettingsError Int
  | .integer value => .ok value
  | .boolean value => .ok (if value then 1 else 0)
  | .float value => .ok value.round.toInt64.toInt
  | .text text =>
    match numberOfText Text.signed? Int64.minValue.toInt Int64.maxValue.toInt text with
    | some value => .ok value
    | none => .error (.wrongType ("string " ++ Text.quoted text) "an integer" key)
  | .array _ _ => .error (.wrongType "sequence" "an integer" key)
  | .table _ => .error (.wrongType "map" "an integer" key)

/-- A setting as an unsigned number of 64 bits. -/
def unsigned (key : String) : Setting → Except SettingsError Nat
  | .integer value =>
    if 0 ≤ value then .ok value.toNat
    else
      .error (.wrongType ("integer 64 bit \x60" ++ toString value ++ "\x60")
        "an unsigned 64 bit or less integer" key)
  | .boolean value => .ok (if value then 1 else 0)
  | .float value => .ok value.round.toUInt64.toNat
  | .text text =>
    match numberOfText (fun digits => (Text.unsigned? digits).map Int.ofNat) 0 0xffffffffffffffff
        text with
    | some value => .ok value.toNat
    | none => .error (.wrongType ("string " ++ Text.quoted text) "an integer" key)
  | .array _ _ => .error (.wrongType "sequence" "an integer" key)
  | .table _ => .error (.wrongType "map" "an integer" key)

/-! ## Reading -/

/-- Reads a setting of a section, or takes its default. -/
def readOr {α : Type} (tree : Tree) (section_ name : String) (default : α)
    (read : String → Setting → Except SettingsError α) : Except SettingsError α :=
  match Setting.find? [section_, name] tree with
  | none => .ok default
  | some setting => read (section_ ++ "." ++ name) setting

/-- A count of 64 bits. -/
def natOr (tree : Tree) (section_ name : String) (default : Nat) : Except SettingsError Nat :=
  readOr tree section_ name default unsigned

/-- A word of 64 bits. -/
def wordOr (tree : Tree) (section_ name : String) (default : UInt64) :
    Except SettingsError UInt64 :=
  readOr tree section_ name default fun key setting => (unsigned key setting).map UInt64.ofNat

/-- An amount. -/
def amountOr (tree : Tree) (section_ name : String) (default : Int64) :
    Except SettingsError Int64 :=
  readOr tree section_ name default fun key setting => (signed key setting).map Int64.ofInt

/-- A version byte. -/
def byteOr (tree : Tree) (section_ name : String) (default : UInt8) : Except SettingsError UInt8 :=
  readOr tree section_ name default fun key setting => (unsigned key setting).map UInt8.ofNat

/-- The settings of a tree. -/
def ofTree (tree : Tree) : Except SettingsError Settings := do
  let d : Settings := {}
  let fee := d.tuning.fee
  let sliceSize ← natOr tree "selection" "slice_size" d.tuning.sliceSize
  if sliceSize = 0 then throw (.invalid "selection.slice_size must be positive")
  let millis ← natOr tree "selection" "timeout_ms" (d.tuning.timeout / Clock.nanosPerMilli)
  let fee : FeeSchedule := {
    inputBytes := ← wordOr tree "fee" "input_bytes" fee.inputBytes
    outputBytes := ← wordOr tree "fee" "output_bytes" fee.outputBytes
    outputs := ← wordOr tree "fee" "outputs" fee.outputs
    overheadBytes := ← wordOr tree "fee" "overhead_bytes" fee.overheadBytes
    feePerKb := ← amountOr tree "fee" "fee_per_kb" fee.feePerKb
    kilobyte := ← wordOr tree "fee" "kilobyte" fee.kilobyte
    feeUnit := ← amountOr tree "fee" "fee_unit" fee.feeUnit
    minFee := ← amountOr tree "fee" "min_fee" fee.minFee }
  if fee.kilobyte = 0 ∨ fee.feeUnit ≤ 0 then
    throw (.invalid "fee.kilobyte and fee.fee_unit must be positive")
  let instantConfirmations ←
    readOr tree "selection" "instant_confirmations" d.tuning.instantConfirmations
      fun key setting => (signed key setting).map Int32.ofInt
  let blockCacheSize ← natOr tree "cache" "block_cache_size" d.tuning.blockCacheSize
  let network : Network := {
    pubKeyVersion := ← byteOr tree "network" "pubkey_prefix" d.network.pubKeyVersion
    scriptVersion := ← byteOr tree "network" "script_prefix" d.network.scriptVersion }
  return {
    tuning := {
      sliceSize, instantConfirmations, blockCacheSize, fee
      timeout := millis * Clock.nanosPerMilli }
    network }

/-- The section and the name of every setting. -/
def names : List (String × String) :=
  ["slice_size", "timeout_ms", "instant_confirmations"].map (("selection", ·)) ++
    ["input_bytes", "output_bytes", "outputs", "overhead_bytes", "fee_per_kb", "kilobyte",
      "fee_unit", "min_fee"].map (("fee", ·)) ++
    [("cache", "block_cache_size"), ("network", "pubkey_prefix"), ("network", "script_prefix")]

/-- The environment variables that hold settings, in capital letters. -/
def variableNames : List String :=
  names.map fun entry =>
    (String.ofList Setting.environmentHead ++ entry.1 ++ "__" ++ entry.2).map Char.toUpper

/-- The layer of a file.  A file that is a date or a time as a whole holds no settings. -/
def fileLayer (text : String) : Except SettingsError Tree :=
  match Toml.parse? text with
  | some (.table members) => .ok (Setting.ofTomlMembers members)
  | some _ => .ok []
  | none => .error .malformedFile

/-- The tree with a layer set into it. -/
def withLayer (layer tree : Tree) : Except SettingsError Tree :=
  match Setting.setLayer layer tree with
  | some tree => .ok tree
  | none => .error .noSuchPosition

/-- The settings of a file, if there is one, and of the environment, which comes last. -/
def load (file : Option String) (environment : List (String × String)) :
    Except SettingsError Settings := do
  let fromFile ← match file with
    | none => pure []
    | some text => withLayer (← fileLayer text) []
  ofTree (← withLayer (Setting.environmentLayer environment) fromFile)

/-- The settings as an object. -/
def toJson (settings : Settings) : Json :=
  .object [("slice_size", .natural settings.tuning.sliceSize),
    ("timeout_ms", .natural (settings.tuning.timeout / Clock.nanosPerMilli)),
    ("instant_confirmations", int32ToJson settings.tuning.instantConfirmations),
    ("block_cache_size", .natural settings.tuning.blockCacheSize),
    ("fee", settings.tuning.fee.toJson), ("network", settings.network.toJson)]

end Settings

end CoinLedger
