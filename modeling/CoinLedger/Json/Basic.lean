/-!
# JSON values

Members of an object keep the order in which they were written, and may repeat a key.  A number
without a fraction or an exponent is an integer of any size; every other number keeps its literal.
`Json.canonical` gives the value as an unordered map sees it: the last of several members with one
key counts, and members stand in the order of their keys.
-/

set_option autoImplicit false

namespace CoinLedger

/-- A JSON value. -/
inductive Json where
  | null
  | bool (value : Bool)
  | integer (value : Int)
  | fraction (literal : String)
  | string (text : String)
  | array (items : List Json)
  | object (members : List (String × Json))
  deriving Repr, BEq, Inhabited

namespace Json

/-- A number that cannot be negative. -/
def natural (value : Nat) : Json :=
  .integer value

/-- Puts a member in its place among members sorted by key; a member of the same key is replaced. -/
def insertMember (key : String) (value : Json) : List (String × Json) → List (String × Json)
  | [] => [(key, value)]
  | (otherKey, otherValue) :: rest =>
    if key < otherKey then (key, value) :: (otherKey, otherValue) :: rest
    else if key == otherKey then (key, value) :: rest
    else (otherKey, otherValue) :: insertMember key value rest

/-- The members sorted by key, the last one of each key. -/
def sortMembers (members : List (String × Json)) : List (String × Json) :=
  members.foldl (fun sorted entry => insertMember entry.1 entry.2 sorted) []

mutual
/-- The value with the members of every object sorted by key and without repeated keys. -/
def canonical : Json → Json
  | .array items => .array (canonicalItems items)
  | .object members => .object (sortMembers (canonicalMembers members))
  | .null => .null
  | .bool value => .bool value
  | .integer value => .integer value
  | .fraction literal => .fraction literal
  | .string text => .string text

/-- The canonical form of each item. -/
def canonicalItems : List Json → List Json
  | [] => []
  | item :: rest => canonical item :: canonicalItems rest

/-- The canonical form of each member's value. -/
def canonicalMembers : List (String × Json) → List (String × Json)
  | [] => []
  | (key, value) :: rest => (key, canonical value) :: canonicalMembers rest
end

/-- The value of the last member with the given key. -/
def member? (key : String) : Json → Option Json
  | .object members => (members.reverse.find? (·.1 == key)).map (·.2)
  | _ => none

end Json

end CoinLedger
