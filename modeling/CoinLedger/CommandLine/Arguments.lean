import CoinLedger.Text.Decimal

/-!
# Arguments

The arguments of a program are options and operands.  The name of an option follows two dashes; an
option that takes a value has it behind an equals sign or in the next argument, a flag takes none.
No option may be repeated or shortened.  Two dashes alone end the options, one dash alone is an
operand, and everything else that begins with a dash is refused.
-/

set_option autoImplicit false

namespace CoinLedger

/-- What an argument looks like. -/
inductive ArgumentForm where
  /-- Something that is no option. -/
  | operand
  /-- The mark that ends the options. -/
  | endOfOptions
  /-- An option, with the text behind its equals sign if it has one. -/
  | option (name : String) (attached : Option String)
  /-- A dash with something behind it. -/
  | dashed
  deriving DecidableEq, Repr

/-- The form of an argument. -/
def ArgumentForm.ofString (argument : String) : ArgumentForm :=
  match argument.toList with
  | ['-', '-'] => .endOfOptions
  | '-' :: '-' :: text =>
    let name := String.ofList (text.takeWhile (· ≠ '='))
    match text.dropWhile (· ≠ '=') with
    | [] => .option name none
    | _ :: value => .option name (some (String.ofList value))
  | '-' :: _ :: _ => .dashed
  | _ => .operand

/-- The options that a program knows. -/
structure OptionTable where
  /-- The options that take a value. -/
  valued : List String := []
  /-- The options that take none. -/
  flags : List String := []
  deriving Repr

/-- Arguments that have been told apart. -/
structure Arguments where
  values : List (String × String) := []
  flags : List String := []
  operands : List String := []
  deriving DecidableEq, Repr

namespace Arguments

/-- Adds an operand behind the others. -/
def addOperand (arguments : Arguments) (operand : String) : Arguments :=
  { arguments with operands := arguments.operands ++ [operand] }

/-- Gives an option its value, unless it has one already. -/
def setValue? (arguments : Arguments) (name value : String) : Option Arguments :=
  if (arguments.values.lookup name).isSome then none
  else some { arguments with values := (name, value) :: arguments.values }

/-- Raises a flag that is not raised yet. -/
def setFlag? (arguments : Arguments) (name : String) : Option Arguments :=
  if arguments.flags.contains name then none
  else some { arguments with flags := name :: arguments.flags }

/-- Whether a flag is raised. -/
def hasFlag (arguments : Arguments) (name : String) : Bool :=
  arguments.flags.contains name

/-! ## Values -/

/-- The value of an option, or its default; `none` when the value cannot be read. -/
def valueOr {α : Type} (arguments : Arguments) (name : String) (default : α)
    (read : String → Option α) : Option α :=
  match arguments.values.lookup name with
  | none => some default
  | some text => read text

/-- The value of an option that is an unsigned number of 64 bits. -/
def unsignedOr (arguments : Arguments) (name : String) (default : Nat) : Option Nat :=
  arguments.valueOr name default fun text =>
    (Text.unsigned? text.toList).filter (· ≤ 0xffffffffffffffff)

/-- The value of an option that is a signed number of 64 bits. -/
def signedOr (arguments : Arguments) (name : String) (default : Int64) : Option Int64 :=
  arguments.valueOr name default fun text =>
    ((Text.signed? text.toList).filter fun value =>
      Int64.minValue.toInt ≤ value && value ≤ Int64.maxValue.toInt).map Int64.ofInt

end Arguments

namespace OptionTable

/-- Reads arguments into `found`; `none` when the table does not admit them.  When options lead, the
first operand ends them and takes all that follows with it. -/
def readInto (table : OptionTable) (optionsLead : Bool) :
    List String → Arguments → Option Arguments
  | [], found => some found
  | argument :: rest, found =>
    match ArgumentForm.ofString argument with
    | .operand =>
      if optionsLead then some { found with operands := argument :: rest }
      else table.readInto optionsLead rest (found.addOperand argument)
    | .endOfOptions =>
      if optionsLead then none else some { found with operands := found.operands ++ rest }
    | .dashed => none
    | .option name (some value) =>
      if table.valued.contains name then
        (found.setValue? name value).bind fun found => table.readInto optionsLead rest found
      else none
    | .option name none =>
      if table.flags.contains name then
        (found.setFlag? name).bind fun found => table.readInto optionsLead rest found
      else if table.valued.contains name then
        match rest with
        | [] => none
        | value :: rest =>
          if ArgumentForm.ofString value = .operand then
            (found.setValue? name value).bind fun found => table.readInto optionsLead rest found
          else none
      else none

/-- Reads arguments in which options and operands may stand in any order. -/
def read? (table : OptionTable) (arguments : List String) : Option Arguments :=
  table.readInto false arguments {}

/-- Reads the options in front of the first operand; this and all that follows are the operands. -/
def readLeading? (table : OptionTable) (arguments : List String) : Option Arguments :=
  table.readInto true arguments {}

end OptionTable

end CoinLedger
