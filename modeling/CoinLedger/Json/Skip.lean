import CoinLedger.Json.Reader

/-!
# Passing over JSON values

A value that nobody asks for is passed over.  Its text has to follow the grammar, but an escape in a
string may spell an unpaired surrogate, numbers may be of any size, and containers may be nested to
any depth.
-/

set_option autoImplicit false

namespace CoinLedger.Json

/-- The text after a string whose opening quote is gone. -/
def skipString : List Char → Option (List Char)
  | [] => none
  | '"' :: rest => some rest
  | '\\' :: 'u' :: a :: b :: c :: d :: rest =>
    if (unit? a b c d).isSome then skipString rest else none
  | '\\' :: letter :: rest => if (letterEscape? letter).isSome then skipString rest else none
  | character :: rest =>
    if character.toNat < 0x20 || character == '\\' then none else skipString rest

/-- The text after the key of a member and its colon. -/
def skipKey (text : List Char) : Option (List Char) := do
  let '"' :: rest := skipBlanks text | none
  let ':' :: rest := skipBlanks (← skipString rest) | none
  return rest

/-- The text after a value that is no container. -/
def skipScalar : List Char → Option (List Char)
  | '"' :: rest => skipString rest
  | 'n' :: 'u' :: 'l' :: 'l' :: rest => some rest
  | 't' :: 'r' :: 'u' :: 'e' :: rest => some rest
  | 'f' :: 'a' :: 'l' :: 's' :: 'e' :: rest => some rest
  | text => (readNumber text).map (·.2)

/-- A container that is still open. -/
inductive Container where
  | object
  | array
  deriving DecidableEq, Repr

/-- What may come next in a value that is passed over. -/
inductive SkipState where
  /-- A value. -/
  | value
  /-- A comma or the end of the innermost open container. -/
  | separator
  deriving DecidableEq, Repr

/-- The text after the rest of a value, and the greatest number of containers around a point of it.
`opened` holds the open containers, the innermost one first, and `depth` is their number; `deepest`
is the greatest number so far. -/
def skipRest : Nat → SkipState → List Container → Nat → Nat → List Char → Option (Nat × List Char)
  | 0, _, _, _, _, _ => none
  | _, .separator, [], _, deepest, text => some (deepest, text)
  | fuel + 1, .value, opened, depth, deepest, text =>
    match skipBlanks text with
    | '\x7b' :: rest =>
      let deepest := max deepest (depth + 1)
      match skipBlanks rest with
      | '\x7d' :: rest => skipRest fuel .separator opened depth deepest rest
      | rest =>
        match skipKey rest with
        | some rest => skipRest fuel .value (.object :: opened) (depth + 1) deepest rest
        | none => none
    | '[' :: rest =>
      let deepest := max deepest (depth + 1)
      match skipBlanks rest with
      | ']' :: rest => skipRest fuel .separator opened depth deepest rest
      | rest => skipRest fuel .value (.array :: opened) (depth + 1) deepest rest
    | rest =>
      match skipScalar rest with
      | some rest => skipRest fuel .separator opened depth deepest rest
      | none => none
  | fuel + 1, .separator, .object :: opened, depth, deepest, text =>
    match skipBlanks text with
    | '\x7d' :: rest => skipRest fuel .separator opened (depth - 1) deepest rest
    | ',' :: rest =>
      match skipKey rest with
      | some rest => skipRest fuel .value (.object :: opened) depth deepest rest
      | none => none
    | _ => none
  | fuel + 1, .separator, .array :: opened, depth, deepest, text =>
    match skipBlanks text with
    | ']' :: rest => skipRest fuel .separator opened (depth - 1) deepest rest
    | ',' :: rest => skipRest fuel .value (.array :: opened) depth deepest rest
    | _ => none

/-- The depth of the value in front of a text, which is zero unless it is a container, and the text
after it.  `fuel` is at least twice the length of the text. -/
def skipValue (fuel : Nat) (text : List Char) : Option (Nat × List Char) :=
  skipRest (fuel + 1) .value [] 0 0 text

end CoinLedger.Json
