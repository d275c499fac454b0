import CoinLedger.Text.Decimal
import CoinLedger.Toml.Reader

/-!
# Layers of settings

Settings are a tree of tables and arrays.  A later layer is set into the tree of the earlier ones:
tables are merged key by key and everything else replaces what stood there, also a table in the
place of a single value.  A key of a layer may be a path of keys, with points between them, and of
subscripts in brackets; a subscript makes an array of what stands in front of it, and a negative one
counts from the end.  A subscript that no array can have breaks the loading off.
-/

set_option autoImplicit false

namespace CoinLedger

/-- A node of the tree of settings. -/
inductive Setting where
  | integer (value : Int)
  | float (value : Float)
  | boolean (value : Bool)
  | text (value : String)
  /-- An array of a given length; of its items only those are listed that hold something. -/
  | array (length : Nat) (items : List (Nat × Setting))
  | table (members : List (String × Setting))
  deriving Repr, Inhabited

namespace Setting

mutual
/-- The setting that a value of a file stands for. -/
def ofToml : Toml.Value → Setting
  | .string content => .text content
  | .integer value => .integer value
  | .float value => .float value
  | .boolean value => .boolean value
  | .datetime content => .text content
  | .array items => .array items.length (ofTomlItems 0 items)
  | .table members => .table (ofTomlMembers members)

/-- The settings that the items of an array stand for, with their positions from a given one on. -/
def ofTomlItems (start : Nat) : List Toml.Value → List (Nat × Setting)
  | [] => []
  | item :: rest => (start, ofToml item) :: ofTomlItems (start + 1) rest

/-- The settings that the members of a table stand for. -/
def ofTomlMembers : List (String × Toml.Value) → List (String × Setting)
  | [] => []
  | (key, value) :: rest => (key, ofToml value) :: ofTomlMembers rest
end

/-! ## Merging -/

/-- The members of a table; none of anything else. -/
def members : Setting → List (String × Setting)
  | .table members => members
  | _ => []

/-- Puts a setting under a key or at a position, in the place of the one that stood there. -/
def putMember {κ : Type} [BEq κ] (key : κ) (value : Setting) :
    List (κ × Setting) → List (κ × Setting)
  | [] => [(key, value)]
  | (other, old) :: rest =>
    if other == key then (key, value) :: rest else (other, old) :: putMember key value rest

mutual
/-- What becomes of the setting under a key when a layer gives it a new one. -/
def merge (old : Option Setting) : Setting → Setting
  | .table [] =>
    match old with
    | some setting => setting
    | none => .table []
  | .table (first :: rest) =>
    .table (mergeMembers ((old.map members).getD []) (first :: rest))
  | .integer value => .integer value
  | .float value => .float value
  | .boolean value => .boolean value
  | .text value => .text value
  | .array length items => .array length items

/-- The members of a table after those of a layer are set into it. -/
def mergeMembers (old : List (String × Setting)) : List (String × Setting) → List (String × Setting)
  | [] => old
  | (key, value) :: rest => mergeMembers (putMember key (merge (old.lookup key) value) old) rest
end

/-! ## Paths -/

/-- A step of a path. -/
inductive PathStep where
  | key (name : String)
  | subscript (index : Int)
  deriving DecidableEq, Repr

/-- The greatest length of an array. -/
def maxArrayLength : Nat := 0x100000000000000

/-- The length and the items of an array; none of anything else. -/
def items : Setting → Nat × List (Nat × Setting)
  | .array length items => (length, items)
  | _ => (0, [])

/-- The position that a subscript means in an array of a given length, which grows up to it. -/
def position? (index : Int) (length : Nat) : Option Nat :=
  let position := if 0 ≤ index then index else length + index
  if 0 ≤ position ∧ position < maxArrayLength then some position.toNat else none

/-- The setting at a place after a value was set under a path from there; whatever is no table or
array on the way becomes one.  `none` when a subscript means no position. -/
def setAt (value : Setting) : List PathStep → Option Setting → Option Setting
  | [], _ => some value
  | .key name :: rest, old => do
    let members := (old.map members).getD []
    let inner ←
      if rest.isEmpty then pure (merge (members.lookup name) value)
      else setAt value rest (members.lookup name)
    return .table (putMember name inner members)
  | .subscript index :: rest, old => do
    let (length, items) := (old.map items).getD (0, [])
    let position ← position? index length
    let inner ← setAt value rest (items.lookup position)
    return .array (max length (position + 1)) (putMember position inner items)

/-- The setting under a path of keys. -/
def find? : List String → List (String × Setting) → Option Setting
  | [], _ => none
  | [key], members => members.lookup key
  | key :: path, members =>
    match members.lookup key with
    | some (.table inner) => find? path inner
    | _ => none

/-! ## Keys of a layer -/

/-- Whether a character may stand in a key of a path. -/
def isPathChar (character : Char) : Bool :=
  character.isAlphanum || character == ' ' || character == '_' || character == '-'

/-- The first key of a path, which is not empty, and the text after it. -/
def readPathKey (text : List Char) : Option (PathStep × List Char) :=
  match text.takeWhile isPathChar with
  | [] => none
  | key => some (.key (String.ofList key), text.dropWhile isPathChar)

/-- The text after the spaces and tabs in front. -/
def skipSpaces (text : List Char) : List Char :=
  text.dropWhile fun character => character == ' ' || character == '\t'

/-- A subscript, whose opening bracket is gone, and the text after it. -/
def readSubscript (text : List Char) : Option (PathStep × List Char) := do
  let (negative, unsigned) :=
    match skipSpaces text with
    | '-' :: rest => (true, rest)
    | rest => (false, rest)
  let digits := unsigned.takeWhile Char.isDigit
  if digits.isEmpty then none
  let magnitude : Int := Text.digitsValue digits
  let index := if negative then -magnitude else magnitude
  if index < Int64.minValue.toInt || Int64.maxValue.toInt < index then none
  match skipSpaces (unsigned.dropWhile Char.isDigit) with
  | ']' :: rest => some (.subscript index, rest)
  | _ => none

/-- The steps of a path behind the first one. -/
def readSteps : Nat → List Char → Option (List PathStep)
  | _, [] => some []
  | 0, _ => none
  | fuel + 1, '.' :: rest => do
    let (step, rest) ← readPathKey rest
    return step :: (← readSteps fuel rest)
  | fuel + 1, '[' :: rest => do
    let (step, rest) ← readSubscript rest
    return step :: (← readSteps fuel rest)
  | _, _ => none

/-- The path that a key spells; `none` when it spells none. -/
def path? (key : String) : Option (List PathStep) := do
  let (first, rest) ← readPathKey key.toList
  return first :: (← readSteps rest.length rest)

/-- Sets a value under a key of a layer, which counts as one step when it spells no path. -/
def setKey (key : String) (value : Setting) (tree : List (String × Setting)) :
    Option (List (String × Setting)) :=
  (setAt value ((path? key).getD [.key key]) (some (.table tree))).map members

/-- Sets all keys of a layer. -/
def setLayer (layer tree : List (String × Setting)) : Option (List (String × Setting)) :=
  layer.foldlM (fun tree entry => setKey entry.1 entry.2 tree) tree

/-! ## The environment -/

/-- What the names of environment variables begin with that hold settings. -/
def environmentHead : List Char := "rustyledger__".toList

/-- The text with a point in the place of every two underscores. -/
def pointsForUnderscores : List Char → List Char
  | '_' :: '_' :: rest => '.' :: pointsForUnderscores rest
  | character :: rest => character :: pointsForUnderscores rest
  | [] => []

/-- The lower case of a character, where that is a letter of ASCII: so for the capital letters of
ASCII and for the sign of the kelvin. -/
def lowerLetter (character : Char) : Char :=
  if character == '\u212a' then 'k' else character.toLower

/-- The key that the name of an environment variable stands for, in any letter case. -/
def environmentKey? (name : String) : Option String :=
  let lower := name.toList.map lowerLetter
  if lower.take environmentHead.length = environmentHead then
    some (String.ofList (pointsForUnderscores (lower.drop environmentHead.length)))
  else none

/-- The layer of the environment; shorter keys are set before the longer ones that begin with
them. -/
def environmentLayer (environment : List (String × String)) : List (String × Setting) :=
  let named := environment.filterMap fun entry =>
    (environmentKey? entry.1).map fun key => (key, Setting.text entry.2)
  named.mergeSort fun a b => a.1 ≤ b.1

end Setting

end CoinLedger
