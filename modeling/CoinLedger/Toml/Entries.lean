import CoinLedger.Toml.Datetime

/-!
# The entries of a table

The entries of a table stand in the order in which they are written.  A key that is a path makes
tables on its way, and such tables grow by further paths only.  Whether a key is repeated is looked
at when the table is settled; the entries behind a date or a time that is spelled out are not looked
at at all.
-/

set_option autoImplicit false

namespace CoinLedger.Toml

/-- The entries of a table as they are written. -/
abbrev Entries := List (String × Written)

namespace Entries

/-- The entries with another value in the first entry of a key. -/
def replaceFirst (key : String) (value : Written) : Entries → Entries
  | [] => []
  | (other, old) :: rest =>
    if other == key then (key, value) :: rest else (other, old) :: replaceFirst key value rest

/-- Adds a value under a path; a path through anything but a table made by paths is refused. -/
def add : List String → Written → Entries → Option Entries
  | [], _, _ => none
  | [key], value, entries => some (entries ++ [(key, value)])
  | key :: path, value, entries =>
    match entries.lookup key with
    | none => (add path value []).map fun inner => entries ++ [(key, .dotted inner)]
    | some (.dotted inner) =>
      (add path value inner).map fun inner => replaceFirst key (.dotted inner) entries
    | some _ => none

end Entries

/-- The date or time whose text is a given value. -/
def spelledDatetime? : Written → Option Value
  | .string text => (normalDatetime? text.toList).map .datetime
  | _ => none

mutual
/-- The value that is meant. -/
def Written.settle? : Written → Option Value
  | .string text => some (.string text)
  | .integer value => some (.integer value)
  | .float value => some (.float value)
  | .boolean value => some (.boolean value)
  | .datetime text => (normalDatetime? text).map .datetime
  | .array items => (settleItems? items).map .array
  | .inline entries => settleTable? entries
  | .dotted entries => settleTable? entries

/-- The values of the items of an array. -/
def settleItems? : List Written → Option (List Value)
  | [] => some []
  | item :: rest => do return (← item.settle?) :: (← settleItems? rest)

/-- The value of a table with the given entries. -/
def settleTable? : Entries → Option Value
  | [] => some (.table [])
  | (key, value) :: rest =>
    if key = datetimeKey then spelledDatetime? value
    else do
      let members := (key, ← value.settle?) :: (← settleEntries? rest)
      if (members.map (·.1)).Nodup then some (.table members) else none

/-- The values of entries. -/
def settleEntries? : Entries → Option (List (String × Value))
  | [] => some []
  | (key, value) :: rest => do return (key, ← value.settle?) :: (← settleEntries? rest)
end

end CoinLedger.Toml
