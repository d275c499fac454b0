import CoinLedger.Json.Reader

/-!
# Numbers in the range of floats

A number is in range when it can be taken as a float.  Of its digits as many are taken as 64 bits
hold; a digit of the whole part that is not taken raises the exponent, and one of the fraction is
dropped.  What the taken digits spell, times the power of ten, must be finite.
-/

set_option autoImplicit false

namespace CoinLedger.Json

/-- The digits that are taken behind a number that has been taken, and how many are left. -/
def takeDigits : Nat → List Char → Nat × Nat
  | taken, [] => (taken, 0)
  | taken, digit :: rest =>
    let next := 10 * taken + Text.digitValue digit
    if next ≤ 0xffffffffffffffff then takeDigits next rest else (taken, rest.length + 1)

/-- The greatest power of ten that is a float. -/
def greatestExponent : Int := 308

/-- Whether a number times a power of ten is finite, both being rounded to floats first. -/
def isFiniteScaled (taken : Nat) (exponent : Int) : Bool :=
  taken = 0 || exponent ≤ 0 ||
    (exponent ≤ greatestExponent &&
      (Float.ofNat taken * Float.ofScientific 1 false exponent.toNat).isFinite)

/-- Whether the number with the given parts is in range. -/
def isInRange (whole places : List Char) (exponent : Int) : Bool :=
  let (taken, left) := takeDigits 0 whole
  let (taken', dropped) := takeDigits taken places
  isFiniteScaled taken' (left - (places.length - dropped) + exponent)

/-- Whether a literal of a number is in range. -/
def literalInRange (literal : String) : Bool :=
  let unsigned := literal.toList.dropWhile (· == '-')
  let (whole, rest) := spanDigits unsigned
  let (places, rest) := spanDigits (rest.dropWhile (· == '.'))
  isInRange whole places ((Text.signed? (rest.drop 1)).getD 0)

mutual
/-- Whether all numbers of a value are in range. -/
def numbersInRange : Json → Bool
  | .integer value => isInRange (Text.decimal value.natAbs) [] 0
  | .fraction literal => literalInRange literal
  | .array items => itemsInRange items
  | .object members => membersInRange members
  | .null => true
  | .bool _ => true
  | .string _ => true

/-- Whether all numbers of the items of an array are in range. -/
def itemsInRange : List Json → Bool
  | [] => true
  | item :: rest => numbersInRange item && itemsInRange rest

/-- Whether all numbers of the members of an object are in range. -/
def membersInRange : List (String × Json) → Bool
  | [] => true
  | (_, value) :: rest => numbersInRange value && membersInRange rest
end

end CoinLedger.Json
