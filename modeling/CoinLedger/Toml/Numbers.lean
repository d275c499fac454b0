import CoinLedger.Json.Reader
import CoinLedger.Toml.Basic

/-!
# Numbers in TOML

A number is a word of letters, digits, hyphens and underscores, with a point or a plus sign between
words where a fraction or an exponent needs one.  Underscores stand between digits, a decimal whole
part has no superfluous zeros, integers fit 64 signed bits and floats are finite.
-/

set_option autoImplicit false

namespace CoinLedger.Toml

/-- Whether a character belongs to a bare word. -/
def isWordChar (character : Char) : Bool :=
  character.isAlphanum || character == '-' || character == '_'

/-- The bare word in front of a text; a word is not empty. -/
def readWord (text : List Char) : Option (List Char × List Char) :=
  match text.takeWhile isWordChar with
  | [] => none
  | word => some (word, text.dropWhile isWordChar)

/-! ## Digits -/

/-- The value of a digit in a base of at most sixteen. -/
def digitIn? (base : Nat) (character : Char) : Option Nat :=
  match Json.hexValue? character with
  | some value => if value < base then some value else none
  | none => none

/-- Digits with single underscores between them, and the text after them; `previous` tells whether a
digit stands in front.  No underscore begins or ends the row. -/
def readDigits (base : Nat) (previous : Bool) : List Char → List Nat × List Char
  | '_' :: next :: rest =>
    match digitIn? base next with
    | some value =>
      if previous then
        let (values, rest) := readDigits base true rest
        (value :: values, rest)
      else ([], '_' :: next :: rest)
    | none => ([], '_' :: next :: rest)
  | character :: rest =>
    match digitIn? base character with
    | some value =>
      let (values, rest) := readDigits base true rest
      (value :: values, rest)
    | none => ([], character :: rest)
  | [] => ([], [])

/-- A row of at least one digit that no underscore follows. -/
def readDigitRow (base : Nat) (text : List Char) : Option (List Nat × List Char) :=
  match readDigits base false text with
  | ([], _) => none
  | (_, '_' :: _) => none
  | (values, rest) => some (values, rest)

/-- A sign in front of a text: whether it is a minus, and the text after it. -/
def readSign : List Char → Bool × List Char
  | '-' :: rest => (true, rest)
  | '+' :: rest => (false, rest)
  | text => (false, text)

/-- A signed decimal whole part without superfluous zeros. -/
def readWhole (text : List Char) : Option ((Bool × List Nat) × List Char) :=
  let (negative, digits) := readSign text
  match readDigitRow 10 digits with
  | some (0 :: _ :: _, _) => none
  | some (values, rest) => some ((negative, values), rest)
  | none => none

/-- The number that digits in a base spell. -/
def valueOf (base : Nat) (digits : List Nat) : Nat :=
  digits.foldl (fun value digit => base * value + digit) 0

/-! ## Integers -/

/-- An integer, if 64 signed bits hold it. -/
def integer? (negative : Bool) (magnitude : Nat) : Option Written :=
  let value : Int := if negative then -(magnitude : Int) else magnitude
  if Int64.minValue.toInt ≤ value ∧ value ≤ Int64.maxValue.toInt then some (.integer value)
  else none

/-- A word that is nothing but digits in a base. -/
def plainInteger? (base : Nat) (word : List Char) : Option Written :=
  match readDigitRow base word with
  | some (values, []) => integer? false (valueOf base values)
  | _ => none

/-- A word that is a decimal integer. -/
def decimalInteger? (word : List Char) : Option Written :=
  match readWhole word with
  | some ((negative, values), []) => integer? negative (valueOf 10 values)
  | _ => none

/-! ## Floats -/

/-- The number `digits` times ten to the power `exponent`; `none` when no finite float is near. -/
def float? (negative : Bool) (digits : List Nat) (exponent : Int) : Option Written :=
  let significant := digits.dropWhile (· == 0)
  let top : Int := significant.length + exponent
  let magnitude : Float :=
    if significant.isEmpty || top < -400 then 0
    else if 400 < top then 1 / 0
    else Float.ofScientific (valueOf 10 significant) (exponent < 0) exponent.natAbs
  if magnitude.isFinite then some (.float (if negative then -magnitude else magnitude)) else none

/-- An exponent: nothing, or a letter and a signed row of digits, of which a plus sign stands
between words.  `word` is what is left of the current word. -/
def readExponent (word rest : List Char) : Option (Int × List Char) :=
  match word with
  | [] => some (0, rest)
  | letter :: digits =>
    if letter == 'e' || letter == 'E' then
      if digits.isEmpty then do
        let rest := if rest.head? == some '+' then rest.drop 1 else rest
        let (word, rest) ← readWord rest
        match readDigitRow 10 word with
        | some (values, []) => some (valueOf 10 values, rest)
        | _ => none
      else
        let (negative, digits) := readSign digits
        match readDigitRow 10 digits with
        | some (values, []) =>
          let value : Int := valueOf 10 values
          some (if negative then -value else value, rest)
        | _ => none
    else none

/-- A float without a point. -/
def readExponentFloat (word rest : List Char) : Option (Written × List Char) := do
  let ((negative, whole), word) ← readWhole word
  let (exponent, rest) ← readExponent word rest
  return (← float? negative whole exponent, rest)

/-- A float with a point, given the word in front of it and the text behind it. -/
def readPointFloat (word rest : List Char) : Option (Written × List Char) := do
  let (after, rest) ← readWord rest
  let ((negative, whole), leftover) ← readWhole word
  if !leftover.isEmpty then none
  let (places, after) ← readDigitRow 10 after
  let (exponent, rest) ← readExponent after rest
  return (← float? negative (whole ++ places) (exponent - places.length), rest)

/-! ## Numbers -/

/-- A number that begins with a given word, and the text after it. -/
def readNumber (word rest : List Char) : Option (Written × List Char) :=
  match word with
  | '0' :: 'x' :: digits => (plainInteger? 16 digits).map (·, rest)
  | '0' :: 'o' :: digits => (plainInteger? 8 digits).map (·, rest)
  | '0' :: 'b' :: digits => (plainInteger? 2 digits).map (·, rest)
  | _ =>
    if word.contains 'e' || word.contains 'E' then readExponentFloat word rest
    else
      match rest with
      | '.' :: rest => readPointFloat word rest
      | _ =>
        if word = "inf".toList then some (.float (1 / 0), rest)
        else if word = "-inf".toList then some (.float (-1 / 0), rest)
        else if word = "nan".toList || word = "-nan".toList then some (.float (0 / 0), rest)
        else (decimalInteger? word).map (·, rest)

end CoinLedger.Toml
