import CoinLedger.Text.Utf8

/-!
# Shortened texts for log fields

A long hash is cut after a number of bytes and marked by three dots; a long list shows its first
items and says how many there are.
-/

set_option autoImplicit false

namespace CoinLedger.Text

/-- The text cut after `limit` bytes, or the whole text when it is no longer than that; `none` when
the cut would fall inside a character. -/
def shortenBytes? (text : String) (limit : Nat) : Option String :=
  if byteCount text.toList ≤ limit then some text
  else (takeBytes? limit text.toList).map fun start => String.ofList start ++ "..."

/-- The items between brackets; beyond `limit` items only the first ones, after a count. -/
def shortenList (items : List String) (limit : Nat) : String :=
  let preview := "[" ++ ", ".intercalate (items.take limit) ++ "]"
  if items.length ≤ limit then preview
  else "[" ++ toString limit ++ " of " ++ toString items.length ++ "]: " ++ preview

end CoinLedger.Text
