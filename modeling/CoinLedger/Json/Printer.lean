import CoinLedger.Json.Basic

/-!
# Writing JSON

Strings escape the quote, the backslash and the ASCII controls, the common controls by a letter and
the others by four digits.  The compact form has no blanks; the indented form puts every item and
member on a line of its own, two spaces deeper than the brackets around it, and leaves empty
brackets closed.
-/

set_option autoImplicit false

namespace CoinLedger.Json

/-- One character of a JSON string. -/
def escapeChar (character : Char) : List Char :=
  if character == '"' then ['\\', '"']
  else if character == '\\' then ['\\', '\\']
  else if character == '\n' then ['\\', 'n']
  else if character == '\r' then ['\\', 'r']
  else if character == '\t' then ['\\', 't']
  else if character == '\x08' then ['\\', 'b']
  else if character == '\x0c' then ['\\', 'f']
  else if character.toNat < 0x20 then
    ['\\', 'u', '0', '0', Nat.digitChar (character.toNat / 16),
      Nat.digitChar (character.toNat % 16)]
  else [character]

/-- A string between its quotes. -/
def printString (text : String) : String :=
  "\"" ++ String.ofList (text.toList.flatMap escapeChar) ++ "\""

/-- The opening bracket of an object. -/
def openBrace : String := "\x7b"

/-- The closing bracket of an object. -/
def closeBrace : String := "\x7d"

mutual
/-- The value without blanks. -/
def compact : Json → String
  | .null => "null"
  | .bool value => if value then "true" else "false"
  | .integer value => toString value
  | .fraction literal => literal
  | .string text => printString text
  | .array items => "[" ++ ",".intercalate (compactItems items) ++ "]"
  | .object members => openBrace ++ ",".intercalate (compactMembers members) ++ closeBrace

/-- Each item without blanks. -/
def compactItems : List Json → List String
  | [] => []
  | item :: rest => compact item :: compactItems rest

/-- Each member without blanks. -/
def compactMembers : List (String × Json) → List String
  | [] => []
  | (key, value) :: rest => (printString key ++ ":" ++ compact value) :: compactMembers rest
end

/-- The start of a line at the given depth. -/
def lineStart (depth : Nat) : String :=
  "\n" ++ String.ofList (List.replicate (2 * depth) ' ')

/-- Entries one to a line between brackets that stand at `depth`. -/
def block (opening closing : String) (depth : Nat) (entries : List String) : String :=
  if entries.isEmpty then opening ++ closing
  else
    opening ++ lineStart (depth + 1) ++ ("," ++ lineStart (depth + 1)).intercalate entries ++
      lineStart depth ++ closing

mutual
/-- The value over several lines, its brackets at the given depth. -/
def indented (depth : Nat) : Json → String
  | .array items => block "[" "]" depth (indentedItems (depth + 1) items)
  | .object members => block openBrace closeBrace depth (indentedMembers (depth + 1) members)
  | .null => "null"
  | .bool value => if value then "true" else "false"
  | .integer value => toString value
  | .fraction literal => literal
  | .string text => printString text

/-- Each item of an array that stands at the given depth. -/
def indentedItems (depth : Nat) : List Json → List String
  | [] => []
  | item :: rest => indented depth item :: indentedItems depth rest

/-- Each member of an object that stands at the given depth. -/
def indentedMembers (depth : Nat) : List (String × Json) → List String
  | [] => []
  | (key, value) :: rest =>
    (printString key ++ ": " ++ indented depth value) :: indentedMembers depth rest
end

/-- The value over several lines, indented by two spaces a level. -/
def pretty (value : Json) : String :=
  indented 0 value

end CoinLedger.Json
