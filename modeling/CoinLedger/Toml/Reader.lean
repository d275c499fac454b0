import CoinLedger.Toml.Strings
import CoinLedger.Toml.Tree

/-!
# Lines of a TOML document

A document is a row of lines: headers that open a table or one more table of an array, and keys with
their values.  Keys are bare words or strings, joined by points.  The reader gives the lines in
order and gathers them in sections; what they make up is another question.
-/

set_option autoImplicit false

namespace CoinLedger.Toml

/-- A line of a document; blank lines and comments are none. -/
inductive Line where
  /-- Opens a table, or one more table of an array. -/
  | header (path : List String) (isArray : Bool)
  /-- Gives a key of the open table a value. -/
  | pair (path : List String) (value : Written)
  deriving Repr

/-! ## Blanks, comments and keys -/

/-- The text after spaces and tabs. -/
def skipSpaces (text : List Char) : List Char :=
  text.dropWhile fun character => character == ' ' || character == '\t'

/-- Whether a character may stand in a comment. -/
def isCommentChar (character : Char) : Bool :=
  character == '\t' || 0x20 ≤ character.toNat

/-- The text after a comment, which has to reach to the end of its line. -/
def skipComment (text : List Char) : Option (List Char) :=
  match text with
  | '#' :: rest =>
    match rest.dropWhile isCommentChar with
    | '\n' :: rest => some rest
    | [] => some []
    | _ => none
  | _ => some text

/-- The text after what may follow on a line: blanks and a comment, up to the end of the line. -/
def endLine (text : List Char) : Option (List Char) :=
  match skipSpaces text with
  | '#' :: rest => skipComment ('#' :: rest)
  | '\n' :: rest => some rest
  | [] => some []
  | _ => none

/-- The text after blank lines, line ends and comments. -/
def skipBlankLines : Nat → List Char → Option (List Char)
  | 0, text => some text
  | fuel + 1, text =>
    match skipSpaces text with
    | '\n' :: rest => skipBlankLines fuel rest
    | '#' :: rest => do skipBlankLines fuel (← skipComment ('#' :: rest))
    | rest => some rest

/-- A key in front of a text: a bare word or a string of one line. -/
def readKey (text : List Char) : Option (String × List Char) :=
  match readWord text with
  | some (word, rest) => some (String.ofList word, rest)
  | none =>
    match readString text with
    | some ((key, false), rest) => some (String.ofList key, rest)
    | _ => none

/-- Keys joined by points, with blanks around each of them. -/
def readPath : Nat → List Char → Option (List String × List Char)
  | 0, _ => none
  | fuel + 1, text => do
    let (key, rest) ← readKey (skipSpaces text)
    match skipSpaces rest with
    | '.' :: rest =>
      let (path, rest) ← readPath fuel rest
      return (key :: path, rest)
    | rest => return ([key], rest)

/-! ## Values -/

mutual
/-- A value in front of a text. -/
def readValue : Nat → List Char → Option (Written × List Char)
  | 0, _ => none
  | fuel + 1, text =>
    match text with
    | '[' :: rest => (readItems fuel rest).map fun (items, rest) => (.array items, rest)
    | '\x7b' :: rest =>
      match skipSpaces rest with
      | '\x7d' :: rest => some (.inline [], rest)
      | rest => (readInline fuel rest []).map fun (entries, rest) => (.inline entries, rest)
    | '+' :: rest => do
      let (word, rest) ← readWord rest
      readNumber word rest
    | _ =>
      match readWord text with
      | some (word, rest) =>
        if word = "true".toList then some (.boolean true, rest)
        else if word = "false".toList then some (.boolean false, rest)
        else if word = "inf".toList || word = "nan".toList || word.head? == some '-' ||
            (word.take 1).all Char.isDigit then
          readNumberOrDate word rest
        else none
      | none => (readString text).map fun (string, rest) =>
          (.string (String.ofList string.1), rest)

/-- The items of an array up to its closing bracket, which may follow a comma. -/
def readItems : Nat → List Char → Option (List Written × List Char)
  | 0, _ => none
  | fuel + 1, text => do
    match ← skipBlankLines text.length text with
    | ']' :: rest => return ([], rest)
    | text =>
      let (item, rest) ← readValue fuel text
      match ← skipBlankLines rest.length rest with
      | ',' :: rest =>
        let (items, rest) ← readItems fuel rest
        return (item :: items, rest)
      | ']' :: rest => return ([item], rest)
      | _ => none

/-- The entries of an inline table up to its closing bracket; at least one. -/
def readInline : Nat → List Char → Entries → Option (Entries × List Char)
  | 0, _, _ => none
  | fuel + 1, text, entries => do
    let (path, rest) ← readPath (text.length + 1) text
    let '=' :: rest := skipSpaces rest | none
    let (value, rest) ← readValue fuel (skipSpaces rest)
    let entries ← entries.add path value
    match skipSpaces rest with
    | '\x7d' :: rest => return (entries, rest)
    | ',' :: rest => readInline fuel rest entries
    | _ => none
end

/-! ## Lines -/

/-- A header in front of a text, after its opening brackets. -/
def readHeader (isArray : Bool) (text : List Char) : Option (Line × List Char) := do
  let (path, rest) ← readPath (text.length + 1) text
  match rest, isArray with
  | ']' :: rest, false => return (.header path false, ← endLine rest)
  | ']' :: ']' :: rest, true => return (.header path true, ← endLine rest)
  | _, _ => none

/-- A line in front of a text. -/
def readLineOf (text : List Char) : Option (Line × List Char) :=
  match text with
  | '[' :: '[' :: rest => readHeader true rest
  | '[' :: rest => readHeader false rest
  | _ => do
    let (path, rest) ← readPath (text.length + 1) text
    let '=' :: rest := rest | none
    let rest := skipSpaces rest
    let (value, rest) ← readValue (2 * rest.length + 1) rest
    return (.pair path value, ← endLine rest)

/-- All lines of a text. -/
def readDocument : Nat → List Char → Option (List Line)
  | 0, _ => none
  | fuel + 1, text => do
    match ← skipBlankLines text.length text with
    | [] => return []
    | text =>
      let (line, rest) ← readLineOf text
      return line :: (← readDocument fuel rest)

/-- The text with a line feed in the place of every carriage return and line feed. -/
def foldLineEnds : List Char → List Char
  | '\r' :: '\n' :: rest => '\n' :: foldLineEnds rest
  | character :: rest => character :: foldLineEnds rest
  | [] => []

/-- The lines of a document, which may begin with a byte order mark. -/
def lines? (text : String) : Option (List Line) :=
  let folded := foldLineEnds text.toList
  let body := if folded.head? == some '\ufeff' then folded.drop 1 else folded
  readDocument (body.length + 1) body

/-! ## Documents -/

/-- The sections that lines make up: the current one, to which pairs are added, and those behind
it. -/
def sections? : List Line → Section → Option (List Section)
  | [], current => some [current]
  | .header path isArray :: rest, current => do
    return current :: (← sections? rest { header := path, isArray })
  | .pair path value :: rest, current => do
    sections? rest { current with entries := ← current.entries.add path value }

/-- The value that a document describes: a table, or the date or time that it spells out. -/
def parse? (text : String) : Option Value := do
  match ← sections? (← lines? text) {} with
  | [] => none
  | first :: rest => documentValue? first.entries rest

end CoinLedger.Toml
