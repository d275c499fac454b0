import CoinLedger.Json.Reader
import CoinLedger.Toml.Basic

/-!
# Strings in TOML

A string stands between single quotes, which keep every character, or between double quotes, which
know escapes.  Three quotes open a string of several lines; a line feed behind them does not count,
and the string may end with one or two quotes of its own in front of the closing three.
-/

set_option autoImplicit false

namespace CoinLedger.Toml

/-- Whether a character may stand in a string as it is. -/
def isStringChar (character : Char) : Bool :=
  character == '\t' || (0x20 ≤ character.toNat && character.toNat ≠ 0x7f)

/-- A character given by hexadecimal digits; surrogates and codes beyond the last one are refused.
-/
def codeChar? (digits : List Char) : Option Char := do
  let values ← digits.mapM Json.hexValue?
  let code := values.foldl (fun code value => 16 * code + value) 0
  if code.isValidChar then some (Char.ofNat code) else none

/-- Drops the blanks of an escaped line end: the rest of the line and the blanks of the next lines.
`none` when the line goes on. -/
def skipLineEnd (text : List Char) : Option (List Char) :=
  match text.dropWhile fun character => character == ' ' || character == '\t' with
  | '\n' :: rest =>
    some (rest.dropWhile fun character =>
      character == ' ' || character == '\t' || character == '\n')
  | _ => none

/-- What a backslash and the text after it stand for: a character, or nothing at a line end. -/
def readEscape (multiline : Bool) : List Char → Option (Option Char × List Char)
  | '"' :: rest => some (some '"', rest)
  | '\\' :: rest => some (some '\\', rest)
  | 'b' :: rest => some (some '\x08', rest)
  | 'f' :: rest => some (some '\x0c', rest)
  | 'n' :: rest => some (some '\n', rest)
  | 'r' :: rest => some (some '\r', rest)
  | 't' :: rest => some (some '\t', rest)
  | 'u' :: a :: b :: c :: d :: rest =>
    (codeChar? [a, b, c, d]).map fun character => (some character, rest)
  | 'U' :: a :: b :: c :: d :: e :: f :: g :: h :: rest =>
    (codeChar? [a, b, c, d, e, f, g, h]).map fun character => (some character, rest)
  | text => if multiline then (skipLineEnd text).map fun rest => (none, rest) else none

/-- The rest of a string of one line up to its closing quote. -/
def readLine (quote : Char) : Nat → List Char → Option (List Char × List Char)
  | 0, _ => none
  | _, [] => none
  | fuel + 1, character :: rest =>
    if character == quote then some ([], rest)
    else if character == '\\' && quote == '"' then
      match readEscape false rest with
      | some (some escaped, rest) =>
        (readLine quote fuel rest).map fun (body, rest) => (escaped :: body, rest)
      | _ => none
    else if isStringChar character then
      (readLine quote fuel rest).map fun (body, rest) => (character :: body, rest)
    else none

/-- Up to two quotes that belong to a string of several lines, in front of its end. -/
def closingQuotes (quote : Char) : List Char → List Char × List Char
  | first :: second :: rest =>
    if first == quote && second == quote then ([quote, quote], rest)
    else if first == quote then ([quote], second :: rest)
    else ([], first :: second :: rest)
  | [only] => if only == quote then ([quote], []) else ([], [only])
  | [] => ([], [])

/-- The rest of a string of several lines up to its closing quotes. -/
def readLines (quote : Char) : Nat → List Char → Option (List Char × List Char)
  | 0, _ => none
  | _, [] => none
  | fuel + 1, character :: rest =>
    if character == quote then
      match rest with
      | second :: third :: rest' =>
        if second == quote && third == quote then
          some (closingQuotes quote rest')
        else (readLines quote fuel rest).map fun (body, rest) => (quote :: body, rest)
      | _ => (readLines quote fuel rest).map fun (body, rest) => (quote :: body, rest)
    else if character == '\\' && quote == '"' then
      match readEscape true rest with
      | some (some escaped, rest) =>
        (readLines quote fuel rest).map fun (body, rest) => (escaped :: body, rest)
      | some (none, rest) => readLines quote fuel rest
      | none => none
    else if character == '\n' || isStringChar character then
      (readLines quote fuel rest).map fun (body, rest) => (character :: body, rest)
    else none

/-- A string in front of a text, and whether it is one of several lines. -/
def readString (text : List Char) : Option ((List Char × Bool) × List Char) :=
  match text with
  | quote :: rest =>
    if quote == '"' || quote == '\x27' then
      match rest with
      | second :: third :: body =>
        if second == quote && third == quote then
          let body := if body.head? == some '\n' then body.drop 1 else body
          (readLines quote (body.length + 1) body).map fun (text, rest) => ((text, true), rest)
        else
          (readLine quote (rest.length + 1) rest).map fun (text, rest) => ((text, false), rest)
      | _ => (readLine quote (rest.length + 1) rest).map fun (text, rest) => ((text, false), rest)
    else none
  | [] => none

end CoinLedger.Toml
