import CoinLedger.Hash

/-!
# Query errors

`QueryError` lists why a query fails; `code` is the stable name of the cause and `message` its one
wording.  A batch keeps the failure of each address beside the address.  One cause is shown to
nobody: a query that is stopped has no answer at all, and neither has the program that runs it.
-/

set_option autoImplicit false

namespace CoinLedger

/-- Why a query has no answer. -/
inductive QueryError where
  | invalidAddress (text : String)
  /-- No address of a batch could be evaluated; each one with its own error. -/
  | addressNotFound (failures : List (String × QueryError))
  | noUnspentOutputs
  | noDeposits
  | balanceInsufficient (requested : Int64)
  | selectionTimedOut (elapsedMillis : Nat)
  | pageOutOfRange (page pages : Nat)
  | blockNotFound (height : Int32)
  | transactionNotFound (txid : Txid) (height : Int32)
  | unknownAddressType (code : UInt8)
  | invalidParameter (text : String)
  /-- The program stops where it stands: a number leaves its range, or there is no room for a
  cache. -/
  | stopped
  deriving Repr, Inhabited

/-- An address of a batch with the error that it met. -/
abbrev AddressFailure := String × QueryError

namespace QueryError

/-- The stable name of the cause. -/
def code : QueryError → String
  | .invalidAddress _ => "InvalidAddress"
  | .addressNotFound _ => "AddressNotFound"
  | .noUnspentOutputs => "NoUTXOsAvailable"
  | .noDeposits => "NoDepositAvailable"
  | .balanceInsufficient _ => "BalanceInsufficient"
  | .selectionTimedOut _ => "SelectionTimedOut"
  | .pageOutOfRange _ _ => "PageOutOfRange"
  | .blockNotFound _ => "BlockNotFound"
  | .transactionNotFound _ _ => "TransactionNotFound"
  | .unknownAddressType _ => "UnknownAddressType"
  | .invalidParameter _ => "InvalidParameter"
  | .stopped => "Stopped"

mutual
/-- The wording of an error. -/
def message : QueryError → String
  | .invalidAddress text => "Invalid address: " ++ text
  | .addressNotFound failures =>
    "No information available for address: " ++
      if failures.isEmpty then "no addresses given" else "; ".intercalate (failureTexts failures)
  | .noUnspentOutputs => "No unspent outputs available"
  | .noDeposits => "No deposits available for the given time range"
  | .balanceInsufficient requested =>
    "Requested amount " ++ toString requested.toInt ++ " exceeds spendable balance"
  | .selectionTimedOut elapsed => "No solution found within " ++ toString elapsed ++ "ms"
  | .pageOutOfRange page pages =>
    "Page number out of range: " ++ toString page ++ " (valid: 1 - " ++ toString pages ++ ")"
  | .blockNotFound height => "Can\x27t read block at height " ++ toString height.toInt
  | .transactionNotFound txid height =>
    "Can\x27t find tx " ++ txid.toHex ++ " in block " ++ toString height.toInt
  | .unknownAddressType code => "Unknown address type: " ++ toString code.toNat
  | .invalidParameter text => "Invalid parameter: " ++ text
  | .stopped => "The query was stopped"

/-- Each address, a colon and the wording of its error. -/
def failureTexts : List AddressFailure → List String
  | [] => []
  | (address, error) :: rest => (address ++ ": " ++ error.message) :: failureTexts rest
end

/-- Whether a batch records the error with its address and goes on. -/
def isPerAddress : QueryError → Bool
  | .invalidAddress _ | .addressNotFound _ => true
  | _ => false

/-- The failures that an error carries, one for each address of a batch. -/
def failures : QueryError → List AddressFailure
  | .addressNotFound failures => failures
  | _ => []

end QueryError

/-- The result of a query. -/
abbrev Answer (α : Type) := Except QueryError α

end CoinLedger
