import CoinLedger.Json.Basic
import CoinLedger.Text.Hex

/-!
# Typed reading of JSON values

A record is written as an object by field names or as an array in the order of its fields.  Fields
are read in the order of the object's members, unknown members are skipped, and only after every
member present has been read is a missing one reported.  Faults in hexadecimal text carry words,
all other faults are a bare mismatch.
-/

set_option autoImplicit false

namespace CoinLedger

/-- Why a JSON value is not of the form asked for. -/
inductive DecodeError where
  /-- The value has the wrong shape or a number is out of range. -/
  | mismatch
  /-- A transaction or block hash is not sixty-four digits. -/
  | badHash (text : String) (fault : Text.HexError)
  /-- The hash of an address is not forty digits. -/
  | badAddressHash (fault : Text.HexError)
  /-- A byte string is not hexadecimal. -/
  | badBytes (fault : Text.HexError)
  deriving DecidableEq, Repr

/-- The wording of a fault, for the faults that have one. -/
def DecodeError.message? : DecodeError → Option String
  | .mismatch => none
  | .badHash text fault => some ("invalid hash " ++ text ++ ": " ++ fault.message)
  | .badAddressHash fault => some ("invalid hash160: " ++ fault.message)
  | .badBytes fault => some ("invalid hex: " ++ fault.message)

/-- The result of reading a value. -/
abbrev Decoded (α : Type) := Except DecodeError α

namespace Json

/-! ## Plain values -/

/-- A number of the given range, both ends included. -/
def readInteger (least greatest : Int) : Json → Decoded Int
  | .integer value => if least ≤ value ∧ value ≤ greatest then .ok value else .error .mismatch
  | _ => .error .mismatch

/-- An unsigned number of 8 bits. -/
def readUInt8 (value : Json) : Decoded UInt8 :=
  (readInteger 0 0xff value).map fun number => UInt8.ofNat number.toNat

/-- An unsigned number of 32 bits. -/
def readUInt32 (value : Json) : Decoded UInt32 :=
  (readInteger 0 0xffffffff value).map fun number => UInt32.ofNat number.toNat

/-- An unsigned number of 64 bits. -/
def readUInt64 (value : Json) : Decoded UInt64 :=
  (readInteger 0 0xffffffffffffffff value).map fun number => UInt64.ofNat number.toNat

/-- A signed number of 32 bits. -/
def readInt32 (value : Json) : Decoded Int32 :=
  (readInteger Int32.minValue.toInt Int32.maxValue.toInt value).map Int32.ofInt

/-- A signed number of 64 bits. -/
def readInt64 (value : Json) : Decoded Int64 :=
  (readInteger Int64.minValue.toInt Int64.maxValue.toInt value).map Int64.ofInt

/-- A truth value. -/
def readBool : Json → Decoded Bool
  | .bool value => .ok value
  | _ => .error .mismatch

/-- A string. -/
def readString : Json → Decoded String
  | .string text => .ok text
  | _ => .error .mismatch

/-- A value that may be null. -/
def readOptional {α : Type} (read : Json → Decoded α) : Json → Decoded (Option α)
  | .null => .ok none
  | value => (read value).map some

/-- Reads each value in turn and stops at the first fault. -/
def readEach {α : Type} (read : Json → Decoded α) : List Json → Decoded (List α)
  | [] => .ok []
  | item :: rest =>
    match read item with
    | .error fault => .error fault
    | .ok first => (readEach read rest).map (first :: ·)

/-- An array whose items have one form. -/
def readList {α : Type} (read : Json → Decoded α) : Json → Decoded (List α)
  | .array items => readEach read items
  | _ => .error .mismatch

/-! ## Records -/

/-- The fields of a record that are present. -/
structure Record where
  /-- Names and values in the order in which they are read. -/
  members : List (String × Json)
  /-- Whether an array has more items than the record has fields. -/
  surplus : Bool

/-- The known members of an object, or the items of an array under the names of the fields. -/
def record (names : List String) : Json → Decoded Record
  | .object members =>
    let known := members.filter fun entry => names.contains entry.1
    if (known.map (·.1)).Nodup then .ok ⟨known, false⟩ else .error .mismatch
  | .array items => .ok ⟨names.zip items, names.length < items.length⟩
  | _ => .error .mismatch

/-- What became of one field: absent, at fault, or read. -/
abbrev Field (α : Type) := Option (Decoded α)

namespace Record

/-- Reads one field, if it is present. -/
def field {α : Type} (source : Record) (name : String) (read : Json → Decoded α) : Field α :=
  (source.members.lookup name).map read

/-- Reports the first fault in reading order, then a surplus of items. -/
def settle (source : Record) (faults : List (String × Option DecodeError)) : Decoded Unit :=
  match source.members.findSome? fun entry => (faults.lookup entry.1).join with
  | some fault => .error fault
  | none => if source.surplus then .error .mismatch else .ok ()

end Record

namespace Field

variable {α : Type}

/-- The fault of a field that is present and cannot be read. -/
def fault? : Field α → Option DecodeError
  | some (.error fault) => some fault
  | _ => none

/-- The value of a field that has to be there. -/
def required : Field α → Decoded α
  | some reading => reading
  | none => .error .mismatch

/-- The value of a field that may be left out. -/
def orDefault (default : α) : Field α → Decoded α
  | some reading => reading
  | none => .ok default

end Field

end Json

end CoinLedger
