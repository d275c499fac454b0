import CoinLedger.Json.Basic
import CoinLedger.Text.Decimal

/-!
# Reading JSON

The reader takes exactly the JSON grammar: blanks are space, tab, line feed and carriage return, a
number has no superfluous zeros, a string holds no raw control character and no unpaired surrogate,
and nothing but blanks follows the value.  Recursion is bounded by the length of the text, since
every step consumes a character.
-/

set_option autoImplicit false

namespace CoinLedger.Json

/-- The text after the blanks it begins with. -/
def skipBlanks (text : List Char) : List Char :=
  text.dropWhile fun character =>
    character == ' ' || character == '\n' || character == '\t' || character == '\r'

/-! ## Numbers -/

/-- The longest run of digits in front, and what follows it. -/
def spanDigits (text : List Char) : List Char × List Char :=
  (text.takeWhile Char.isDigit, text.dropWhile Char.isDigit)

/-- The whole part: a single zero, or digits that begin with another one. -/
def readWhole (text : List Char) : Option (List Char × List Char) :=
  match spanDigits text with
  | ([], _) => none
  | ('0' :: _ :: _, _) => none
  | (digits, rest) => some (digits, rest)

/-- The fraction, empty when no point follows. -/
def readFraction : List Char → Option (List Char × List Char)
  | '.' :: rest =>
    match spanDigits rest with
    | ([], _) => none
    | (digits, rest) => some ('.' :: digits, rest)
  | text => some ([], text)

/-- The digits of an exponent after its letter, with the sign they may begin with. -/
def readExponentDigits (text : List Char) : Option (List Char × List Char) :=
  let (sign, unsigned) :=
    match text with
    | '+' :: rest => (['+'], rest)
    | '-' :: rest => (['-'], rest)
    | rest => ([], rest)
  match spanDigits unsigned with
  | ([], _) => none
  | (digits, rest) => some (sign ++ digits, rest)

/-- The exponent, empty when no letter of an exponent follows. -/
def readExponent : List Char → Option (List Char × List Char)
  | 'e' :: rest => (readExponentDigits rest).map fun (digits, rest) => ('e' :: digits, rest)
  | 'E' :: rest => (readExponentDigits rest).map fun (digits, rest) => ('E' :: digits, rest)
  | text => some ([], text)

/-- The value of a number's parts.  A negative zero is no integer, because it is not the number 0.
-/
def numberOf (negative : Bool) (whole places exponent : List Char) : Json :=
  let sign := if negative then ['-'] else []
  if places.isEmpty && exponent.isEmpty && !(negative && whole == ['0']) then
    let value := Text.digitsValue whole
    .integer (if negative then -(value : Int) else value)
  else
    .fraction (String.ofList (sign ++ whole ++ places ++ exponent))

/-- A number in front of the text. -/
def readNumber (text : List Char) : Option (Json × List Char) := do
  let (negative, unsigned) :=
    match text with
    | '-' :: rest => (true, rest)
    | rest => (false, rest)
  let (whole, rest) ← readWhole unsigned
  let (places, rest) ← readFraction rest
  let (exponent, rest) ← readExponent rest
  return (numberOf negative whole places exponent, rest)

/-! ## Strings -/

/-- The value of a hexadecimal digit in either letter case. -/
def hexValue? (character : Char) : Option Nat :=
  if '0' ≤ character ∧ character ≤ '9' then some (character.toNat - '0'.toNat)
  else if 'a' ≤ character ∧ character ≤ 'f' then some (character.toNat - 'a'.toNat + 10)
  else if 'A' ≤ character ∧ character ≤ 'F' then some (character.toNat - 'A'.toNat + 10)
  else none

/-- The 16-bit unit that four hexadecimal digits spell. -/
def unit? (first second third fourth : Char) : Option Nat := do
  let a ← hexValue? first
  let b ← hexValue? second
  let c ← hexValue? third
  let d ← hexValue? fourth
  return ((a * 16 + b) * 16 + c) * 16 + d

/-- Whether a 16-bit unit is the first half of a surrogate pair. -/
def isHighSurrogate (unit : Nat) : Bool :=
  0xd800 ≤ unit && unit ≤ 0xdbff

/-- Whether a 16-bit unit is the second half of a surrogate pair. -/
def isLowSurrogate (unit : Nat) : Bool :=
  0xdc00 ≤ unit && unit ≤ 0xdfff

/-- The character that a backslash and a letter stand for. -/
def letterEscape? (letter : Char) : Option Char :=
  match letter with
  | '"' => some '"'
  | '\\' => some '\\'
  | '/' => some '/'
  | 'b' => some '\x08'
  | 'f' => some '\x0c'
  | 'n' => some '\n'
  | 'r' => some '\r'
  | 't' => some '\t'
  | _ => none

/-- The rest of a string up to its closing quote, and what follows the quote. -/
def readStringBody : List Char → Option (List Char × List Char)
  | [] => none
  | '"' :: rest => some ([], rest)
  | '\\' :: 'u' :: a :: b :: c :: d :: rest =>
    match unit? a b c d with
    | none => none
    | some high =>
      if isLowSurrogate high then none
      else if isHighSurrogate high then
        match rest with
        | '\\' :: 'u' :: e :: f :: g :: h :: rest =>
          match unit? e f g h with
          | none => none
          | some low =>
            if isLowSurrogate low then
              let code := 0x10000 + (high - 0xd800) * 0x400 + (low - 0xdc00)
              (readStringBody rest).map fun (body, rest) => (Char.ofNat code :: body, rest)
            else none
        | _ => none
      else (readStringBody rest).map fun (body, rest) => (Char.ofNat high :: body, rest)
  | '\\' :: letter :: rest =>
    match letterEscape? letter with
    | none => none
    | some character => (readStringBody rest).map fun (body, rest) => (character :: body, rest)
  | character :: rest =>
    if character.toNat < 0x20 || character == '\\' then none
    else (readStringBody rest).map fun (body, rest) => (character :: body, rest)

/-! ## Values -/

mutual
/-- A value in front of the text, after blanks. -/
def readValue : Nat → List Char → Option (Json × List Char)
  | 0, _ => none
  | fuel + 1, text =>
    match skipBlanks text with
    | '\x7b' :: rest =>
      match skipBlanks rest with
      | '\x7d' :: rest => some (.object [], rest)
      | rest => (readMembers fuel rest).map fun (members, rest) => (.object members, rest)
    | '[' :: rest =>
      match skipBlanks rest with
      | ']' :: rest => some (.array [], rest)
      | rest => (readItems fuel rest).map fun (items, rest) => (.array items, rest)
    | '"' :: rest =>
      (readStringBody rest).map fun (body, rest) => (.string (String.ofList body), rest)
    | 'n' :: 'u' :: 'l' :: 'l' :: rest => some (.null, rest)
    | 't' :: 'r' :: 'u' :: 'e' :: rest => some (.bool true, rest)
    | 'f' :: 'a' :: 'l' :: 's' :: 'e' :: rest => some (.bool false, rest)
    | rest => readNumber rest

/-- The items of an array up to its closing bracket; at least one. -/
def readItems : Nat → List Char → Option (List Json × List Char)
  | 0, _ => none
  | fuel + 1, text =>
    match readValue fuel text with
    | none => none
    | some (item, rest) =>
      match skipBlanks rest with
      | ']' :: rest => some ([item], rest)
      | ',' :: rest => (readItems fuel rest).map fun (items, rest) => (item :: items, rest)
      | _ => none

/-- The members of an object up to its closing bracket; at least one. -/
def readMembers : Nat → List Char → Option (List (String × Json) × List Char)
  | 0, _ => none
  | fuel + 1, text =>
    match skipBlanks text with
    | '"' :: rest =>
      match readStringBody rest with
      | none => none
      | some (key, rest) =>
        match skipBlanks rest with
        | ':' :: rest =>
          match readValue fuel rest with
          | none => none
          | some (value, rest) =>
            let entry := (String.ofList key, value)
            match skipBlanks rest with
            | '\x7d' :: rest => some ([entry], rest)
            | ',' :: rest =>
              (readMembers fuel rest).map fun (members, rest) => (entry :: members, rest)
            | _ => none
        | _ => none
    | _ => none
end

/-- The value that a whole text spells. -/
def parse? (text : String) : Option Json :=
  let characters := text.toList
  match readValue (2 * characters.length + 1) characters with
  | some (value, rest) => if (skipBlanks rest).isEmpty then some value else none
  | none => none

end CoinLedger.Json
