import CoinLedger.QueryError
import CoinLedger.Text.Decimal

/-!
# Amounts

Amounts are whole numbers of the smallest unit, a hundred million to the coin, held in 64 signed
bits.  They are written in coins with eight decimal places, and a request may ask for one unit up to
five billion coins.  A sum or a difference that is no amount stops the query; only the totals and
the charges of selections are cut at the ends of the range.
-/

set_option autoImplicit false

namespace CoinLedger.Amount

open Text

/-- The units of one coin. -/
def unitsPerCoin : Nat := 100000000

/-- The largest amount that a request may ask for. -/
def maxRequest : Nat := 5000000000 * unitsPerCoin

/-- The amount in coins with eight decimal places. -/
def format (amount : Int64) : String :=
  let magnitude := amount.toInt.natAbs
  let sign := if amount < 0 then ['-'] else []
  String.ofList (sign ++ decimal (magnitude / unitsPerCoin) ++ ['.'] ++
    zeroPadded 8 (magnitude % unitsPerCoin))

/-! ## Sums and differences -/

/-- The whole numbers that an amount can be. -/
def InRange (value : Int) : Prop :=
  Int64.minValue.toInt ≤ value ∧ value ≤ Int64.maxValue.toInt

instance (value : Int) : Decidable (InRange value) :=
  inferInstanceAs (Decidable (_ ∧ _))

/-- A whole number as an amount. -/
def ofExact (value : Int) : Answer Int64 :=
  if InRange value then .ok (Int64.ofInt value) else .error .stopped

/-- The sum of two amounts. -/
def add (left right : Int64) : Answer Int64 :=
  ofExact (left.toInt + right.toInt)

/-- The difference of two amounts. -/
def sub (left right : Int64) : Answer Int64 :=
  ofExact (left.toInt - right.toInt)

/-- The sum of amounts that are added up one after the other. -/
def sum (amounts : List Int64) : Answer Int64 :=
  amounts.foldlM add 0

/-- The sum of two amounts, held within the range of amounts. -/
def addClamped (left right : Int64) : Int64 :=
  let sum := left.toInt + right.toInt
  if sum < Int64.minValue.toInt then Int64.minValue
  else if Int64.maxValue.toInt < sum then Int64.maxValue
  else Int64.ofInt sum

/-! ## Requests -/

/-- Accepts the amounts that a request may ask for. -/
def check (amount : Int64) : Answer Unit :=
  if 1 ≤ amount.toInt ∧ amount.toInt ≤ maxRequest then .ok ()
  else
    .error (.invalidParameter ("amount out of range: " ++ toString amount.toInt ++
      " (expected 1 - " ++ toString maxRequest ++ ")"))

/-- The text before the first point and the text after it, empty without a point. -/
def splitAtPoint (text : List Char) : List Char × List Char :=
  (text.takeWhile (· ≠ '.'), (text.dropWhile (· ≠ '.')).drop 1)

/-- The units that a whole part and up to eight decimal places spell; either part may be empty. -/
def units? (whole places : List Char) : Option Nat :=
  if whole.isEmpty && places.isEmpty then none
  else if 8 < places.length || !allDigits whole || !allDigits places then none
  else
    let padded := places ++ List.replicate (8 - places.length) '0'
    some (digitsValue whole * unitsPerCoin + digitsValue padded)

/-- Reads an amount in coins that a request may ask for, with blanks around it. -/
def parse (text : String) : Answer Int64 :=
  let trimmed := trim text.toList
  let parts := splitAtPoint trimmed
  let invalid : Answer Int64 :=
    .error (.invalidParameter ("invalid amount: " ++ String.ofList trimmed))
  match units? parts.1 parts.2 with
  | none => invalid
  | some units =>
    if Int64.maxValue.toInt < units then invalid
    else
      let amount := Int64.ofNat units
      (check amount).map fun _ => amount

end CoinLedger.Amount
