import CoinLedger.Toml.Entries

/-!
# The table that the sections of a document make up

A section is a header with the entries below it; the entries in front of the first header are a
section of the document itself.  A header opens a table or one more table of an array.  A tree
remembers how each table came about, because that decides who may add to it: a table that a header
names is not named again, one that a header merely passes through may be named once later, and a
value in one piece is left alone.
-/

set_option autoImplicit false

namespace CoinLedger.Toml

/-- A header with the entries below it. -/
structure Section where
  /-- The path of the table; empty for the document itself. -/
  header : List String := []
  /-- Whether the section adds a table to an array. -/
  isArray : Bool := false
  entries : Entries := []
  deriving Inhabited

/-- What stands under a key while a document is put together. -/
inductive Node where
  /-- A value in one piece. -/
  | leaf (value : Value)
  /-- A table made by headers; `named` tells whether a header names it. -/
  | table (named : Bool) (members : List (String × Node))
  /-- The tables of an array, in order. -/
  | tables (items : List Node)
  deriving Inhabited

/-- The keys of a table with what stands under them. -/
abbrev Members := List (String × Node)

namespace Members

/-- The members with another node under a key. -/
def replace (key : String) (node : Node) (members : Members) : Members :=
  members.map fun entry => if entry.1 == key then (key, node) else entry

/-- Adds entries one after the other; a key that is there is refused. -/
def addEntries : Entries → Members → Option Members
  | [], members => some members
  | (key, value) :: rest, members => do
    if (members.lookup key).isSome then none
    else addEntries rest (members ++ [(key, .leaf (← value.settle?))])

/-- Adds a node under a new key.  The key of a date or a time is refused as the first one. -/
def addNode (key : String) (node : Node) (members : Members) : Option Members :=
  if members.isEmpty && key = datetimeKey then none else some (members ++ [(key, node)])

/-- The table that entries make of the members that are there, or the date or time that they spell
out. -/
def fill (entries : Entries) (members : Members) : Option Node :=
  match entries, members with
  | (key, value) :: rest, [] =>
    if key = datetimeKey then (spelledDatetime? value).map .leaf
    else (addEntries ((key, value) :: rest) []).map (.table true)
  | entries, members => (addEntries entries members).map (.table true)

/-- Changes the last one of some nodes if it is a table; `none` otherwise. -/
def changeLast (change : Members → Option Members) : List Node → Option (List Node)
  | [.table named members] => (change members).map fun members => [.table named members]
  | first :: second :: rest => (changeLast change (second :: rest)).map (first :: ·)
  | _ => none

/-- Adds a section under a path. -/
def addSection (isArray : Bool) (entries : Entries) : List String → Members → Option Members
  | [], _ => none
  | [key], members => do
    match members.lookup key, isArray with
    | none, false => addNode key (← fill entries []) members
    | none, true => addNode key (.tables [← fill entries []]) members
    | some (.table false inner), false => return replace key (← fill entries inner) members
    | some (.tables items), true =>
      return replace key (.tables (items ++ [← fill entries []])) members
    | _, _ => none
  | key :: path, members => do
    match members.lookup key with
    | none => addNode key (.table false (← addSection isArray entries path [])) members
    | some (.table named inner) =>
      return replace key (.table named (← addSection isArray entries path inner)) members
    | some (.tables items) =>
      return replace key (.tables (← changeLast (addSection isArray entries path) items)) members
    | some (.leaf _) => none

/-- Adds sections one after the other. -/
def addSections : List Section → Members → Option Members
  | [], members => some members
  | part :: rest, members => do
    addSections rest (← addSection part.isArray part.entries part.header members)

end Members

mutual
/-- The value that a node has come to. -/
def Node.value : Node → Value
  | .leaf value => value
  | .table _ members => .table (membersValue members)
  | .tables items => .array (itemsValue items)

/-- The values of the members of a table. -/
def membersValue : List (String × Node) → List (String × Value)
  | [] => []
  | (key, node) :: rest => (key, node.value) :: membersValue rest

/-- The values of the tables of an array. -/
def itemsValue : List Node → List Value
  | [] => []
  | node :: rest => node.value :: itemsValue rest
end

/-- The value of a document whose own entries are given, with its other sections. -/
def documentValue? (entries : Entries) (sections : List Section) : Option Value := do
  match ← Members.fill entries [] with
  | .table _ members => return .table (membersValue (← Members.addSections sections members))
  | node => return node.value

end CoinLedger.Toml
