import CoinLedger.Json.Range
import CoinLedger.Json.Skip

/-!
# Reading the text of a known shape

Who knows which records a text holds reads no more of it than they ask for.  Members of a record
that are not among its fields are passed over and left out.  A part that is taken as a whole,
because only later it is known what is asked for, must be right in all its members: no string has an
unpaired surrogate, all numbers are in the range of floats, and containers are not nested too
deeply.
-/

set_option autoImplicit false

namespace CoinLedger.Json

/-- What a text holds. -/
inductive Shape where
  /-- A value that is no container. -/
  | scalar
  /-- Values of one shape. -/
  | list (item : Shape)
  /-- A record with its fields in order; it may be written as an array. -/
  | record (fields : List (String × Shape))
  /-- A value that is taken as a whole. -/
  | whole
  deriving Inhabited

/-- How deeply the containers around a value that is taken as a whole and those in it may be nested.
-/
def maxDepth : Nat := 127

/-- A value that is taken as a whole, with `depth` containers around it. -/
def readWholeValue (fuel depth : Nat) (text : List Char) : Option (Json × List Char) := do
  let (own, _) ← skipValue fuel text
  if maxDepth < depth + own then none
  let (value, rest) ← readValue fuel text
  if numbersInRange value then some (value, rest) else none

/-- A value that is no container. -/
def readScalar (fuel : Nat) (text : List Char) : Option (Json × List Char) :=
  match skipBlanks text with
  | '\x7b' :: _ | '[' :: _ => none
  | rest => readValue fuel rest

/-- The key of a member, and the text after its colon. -/
def readKey (text : List Char) : Option (String × List Char) := do
  let '"' :: rest := skipBlanks text | none
  let (key, rest) ← readStringBody rest
  let ':' :: rest := skipBlanks rest | none
  return (String.ofList key, rest)

mutual
/-- A value of a given shape in front of a text, with `depth` containers around it. -/
def readShape : Nat → Nat → Shape → List Char → Option (Json × List Char)
  | 0, _, _, _ => none
  | fuel + 1, depth, shape, text =>
    match shape, skipBlanks text with
    | .scalar, text => readScalar fuel text
    | .whole, text => readWholeValue fuel depth text
    | .list item, '[' :: rest =>
      match skipBlanks rest with
      | ']' :: rest => some (.array [], rest)
      | rest =>
        (readShapedItems fuel (depth + 1) item rest).map fun (items, rest) => (.array items, rest)
    | .record fields, '[' :: rest =>
      match skipBlanks rest with
      | ']' :: rest => some (.array [], rest)
      | rest =>
        (readFieldItems fuel (depth + 1) fields rest).map fun (items, rest) => (.array items, rest)
    | .record fields, '\x7b' :: rest =>
      match skipBlanks rest with
      | '\x7d' :: rest => some (.object [], rest)
      | rest =>
        (readFields fuel (depth + 1) fields rest).map fun (members, rest) => (.object members, rest)
    | _, text => readScalar fuel text

/-- The items of a list up to its closing bracket; at least one. -/
def readShapedItems : Nat → Nat → Shape → List Char → Option (List Json × List Char)
  | 0, _, _, _ => none
  | fuel + 1, depth, shape, text =>
    match readShape fuel depth shape text with
    | none => none
    | some (item, rest) =>
      match skipBlanks rest with
      | ']' :: rest => some ([item], rest)
      | ',' :: rest =>
        (readShapedItems fuel depth shape rest).map fun (items, rest) => (item :: items, rest)
      | _ => none

/-- The items of a record that is written as an array, up to its closing bracket; at least one, and
not more than the record has fields. -/
def readFieldItems : Nat → Nat → List (String × Shape) → List Char → Option (List Json × List Char)
  | 0, _, _, _ => none
  | _, _, [], _ => none
  | fuel + 1, depth, (_, shape) :: fields, text =>
    match readShape fuel depth shape text with
    | none => none
    | some (item, rest) =>
      match skipBlanks rest with
      | ']' :: rest => some ([item], rest)
      | ',' :: rest =>
        (readFieldItems fuel depth fields rest).map fun (items, rest) => (item :: items, rest)
      | _ => none

/-- The members of a record up to its closing bracket; at least one is written. -/
def readFields : Nat → Nat → List (String × Shape) → List Char →
    Option (List (String × Json) × List Char)
  | 0, _, _, _ => none
  | fuel + 1, depth, fields, text =>
    match readKey text with
    | none => none
    | some (key, rest) =>
      let read :=
        match fields.lookup key with
        | some shape => (readShape fuel depth shape rest).map fun (value, rest) =>
            ([(key, value)], rest)
        | none => (skipValue fuel rest).map fun (_, rest) => ([], rest)
      match read with
      | none => none
      | some (entry, rest) =>
        match skipBlanks rest with
        | '\x7d' :: rest => some (entry, rest)
        | ',' :: rest =>
          (readFields fuel depth fields rest).map fun (members, rest) => (entry ++ members, rest)
        | _ => none
end

/-- The value of a given shape that a whole text spells. -/
def parseShape? (shape : Shape) (text : String) : Option Json :=
  let characters := text.toList
  match readShape (2 * characters.length + 2) 0 shape characters with
  | some (value, rest) => if (skipBlanks rest).isEmpty then some value else none
  | none => none

end CoinLedger.Json
