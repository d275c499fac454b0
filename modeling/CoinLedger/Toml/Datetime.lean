import CoinLedger.Text.Decimal
import CoinLedger.Toml.Numbers

/-!
# Dates and times in TOML

A date, a time of day, or both with an offset; an offset needs both.  The normal form has a `T`
between date and time, a `Z` for no offset, and at most nine places of a second without zeros at the
end.
-/

set_option autoImplicit false

namespace CoinLedger.Toml

/-- The number that exactly `count` digits in front spell. -/
def readFixed (count : Nat) (text : List Char) : Option (Nat × List Char) :=
  let digits := text.take count
  if digits.length = count ∧ Text.allDigits digits then
    some (Text.digitsValue digits, text.drop count)
  else none

/-- The text after a character that has to stand in front. -/
def expect (character : Char) : List Char → Option (List Char)
  | first :: rest => if first == character then some rest else none
  | [] => none

/-- A number with zeros in front. -/
def padded (width value : Nat) : String :=
  String.ofList (Text.zeroPadded width value)

/-- A date in front, in its normal form. -/
def readDate (text : List Char) : Option (String × List Char) := do
  let (year, rest) ← readFixed 4 text
  let (month, rest) ← readFixed 2 (← expect '-' rest)
  let (day, rest) ← readFixed 2 (← expect '-' rest)
  if month < 1 || 12 < month || day < 1 || 31 < day then none
  else some (padded 4 year ++ "-" ++ padded 2 month ++ "-" ++ padded 2 day, rest)

/-- The places of a second in front, in their normal form. -/
def readPlaces : List Char → Option (String × List Char)
  | '.' :: rest =>
    let places := rest.takeWhile Char.isDigit
    if places.isEmpty then none
    else
      let significant := ((places.take 9).reverse.dropWhile (· == '0')).reverse
      let text := if significant.isEmpty then "" else "." ++ String.ofList significant
      some (text, rest.dropWhile Char.isDigit)
  | text => some ("", text)

/-- A time of day in front, in its normal form. -/
def readTime (text : List Char) : Option (String × List Char) := do
  let (hour, rest) ← readFixed 2 text
  let (minute, rest) ← readFixed 2 (← expect ':' rest)
  let (second, rest) ← readFixed 2 (← expect ':' rest)
  let (places, rest) ← readPlaces rest
  if 24 < hour || 59 < minute || 59 < second then none
  else some (padded 2 hour ++ ":" ++ padded 2 minute ++ ":" ++ padded 2 second ++ places, rest)

/-- The offset that is the rest of a text, in its normal form. -/
def offset? : List Char → Option String
  | [] => some ""
  | ['Z'] | ['z'] => some "Z"
  | sign :: rest => do
    if sign != '+' && sign != '-' then none
    let (hours, rest) ← readFixed 2 rest
    let (minutes, rest) ← readFixed 2 (← expect ':' rest)
    if !rest.isEmpty then none
    let sign := if sign == '-' && 0 < hours then "-" else "+"
    some (sign ++ padded 2 hours ++ ":" ++ padded 2 minutes)

/-- The normal form of a whole text that is a date, a time or both. -/
def normalDatetime? (text : List Char) : Option String :=
  if text.drop 2 |>.head? |> (· == some ':') then
    match readTime text with
    | some (time, []) => some time
    | _ => none
  else do
    let (date, rest) ← readDate text
    match rest with
    | separator :: rest' =>
      if separator == 'T' || separator == 't' || separator == ' ' then
        let (time, rest) ← readTime rest'
        return date ++ "T" ++ time ++ (← offset? rest)
      else none
    | [] => some date

/-- Whether a word that begins with a digit or a hyphen begins a date. -/
def beginsDate (word : List Char) : Bool :=
  let has (character : Char) := word.contains character
  let hasPair (letter : Char) := (word.zip (word.drop 1)).contains (letter, '-')
  has 'T' || has 't' ||
    ((word.drop 1).contains '-' && !hasPair 'e' && !hasPair 'E')

/-- Drops a character in front and the word behind it; `none` when only the character stands there.
-/
def skipPart (character : Char) (text : List Char) : Option (List Char) :=
  match text with
  | first :: rest =>
    if first == character then (readWord rest).map (·.2) else some text
  | [] => some []

/-- The text after the minutes, seconds, places and offset of a time, whose colon in front of the
minutes is gone. -/
def skipTimeParts (text : List Char) : Option (List Char) := do
  let (_, rest) ← readWord text
  let (_, rest) ← readWord (← expect ':' rest)
  let rest ← skipPart '.' rest
  let rest ← skipPart '+' rest
  skipPart ':' rest

/-- The text after a hour that a single space separates from the date. -/
def skipSpacedHour (text : List Char) : List Char :=
  match text with
  | ' ' :: rest =>
    match readWord rest with
    | some (_, rest) => rest
    | none => text
  | _ => text

/-- The text of a date or a time that begins with a given word.  `afterColon` tells that the word is
an hour and its colon is gone. -/
def readDatetime (word rest : List Char) (afterColon : Bool) :
    Option (Written × List Char) := do
  let spaced := skipSpacedHour rest
  let (colon, body) :=
    match afterColon, spaced with
    | false, ':' :: body => (true, body)
    | _, body => (afterColon, body)
  let after ← if colon then skipTimeParts body else some body
  let start := word ++ if afterColon then ':' :: rest else rest
  return (.datetime (start.take (start.length - after.length)), after)

/-- A number, date or time that begins with a given word. -/
def readNumberOrDate (word rest : List Char) : Option (Written × List Char) :=
  if beginsDate word then readDatetime word rest false
  else
    match rest with
    | ':' :: rest => readDatetime word rest true
    | _ => readNumber word rest

end CoinLedger.Toml
