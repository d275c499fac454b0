/-!
# TOML documents

A document is read in two steps.  First every value is taken as it is written: a table keeps all its
entries in order, and a date or a time keeps its text.  Then the values are settled: a table must
not repeat a key, dates and times get their normal form, and a table whose first key is
`datetimeKey` is the spelled-out form of a date or a time.
-/

set_option autoImplicit false

namespace CoinLedger.Toml

/-- A value as it is written. -/
inductive Written where
  | string (text : String)
  | integer (value : Int)
  | float (value : Float)
  | boolean (value : Bool)
  | datetime (text : List Char)
  | array (items : List Written)
  /-- A table in braces. -/
  | inline (entries : List (String × Written))
  /-- A table made by keys that are paths. -/
  | dotted (entries : List (String × Written))
  deriving Repr, Inhabited

/-- A settled value. -/
inductive Value where
  | string (text : String)
  | integer (value : Int)
  | float (value : Float)
  | boolean (value : Bool)
  | datetime (text : String)
  | array (items : List Value)
  | table (members : List (String × Value))
  deriving Repr, Inhabited

/-- The key that makes a table the spelled-out form of a date or a time. -/
def datetimeKey : String := "$__toml_private_datetime"

end CoinLedger.Toml
