import CoinLedger.Address.Key
import CoinLedger.QueryError
import CoinLedger.Text.Base58

/-!
# Address text

An address is written in base 58: a version byte that tells the kind, the hash, and four check
bytes, the first ones of the SHA-256 digest of the SHA-256 digest of what stands before them.  The
version bytes are those of a network.
-/

set_option autoImplicit false

namespace CoinLedger

open Text

/-- The version bytes of a network's addresses. -/
structure Network where
  pubKeyVersion : UInt8 := 63
  scriptVersion : UInt8 := 18
  deriving DecidableEq, Repr, Inhabited

namespace Network

/-- The kind that a version byte tells; the version of public keys comes first. -/
def kindOf? (network : Network) (version : UInt8) : Option AddressKind :=
  if version = network.pubKeyVersion then some .pubKeyHash
  else if version = network.scriptVersion then some .scriptHash
  else none

/-- The version byte of a kind. -/
def versionOf (network : Network) : AddressKind → UInt8
  | .pubKeyHash => network.pubKeyVersion
  | .scriptHash => network.scriptVersion

/-- The four check bytes of a payload. -/
def checksum (payload : List UInt8) : List UInt8 :=
  (Digest.sha256 (Digest.sha256 payload)).take 4

/-- The version byte and the hash of a key. -/
def payload (network : Network) (key : AddressKey) : List UInt8 :=
  network.versionOf key.kind :: key.hash.bytes

/-- The text of a key. -/
def encode (network : Network) (key : AddressKey) : String :=
  let payload := network.payload key
  String.ofList (Base58.encode (payload ++ checksum payload))

/-- The key spelled by bytes that begin with a version and end with their check bytes. -/
def keyOfBytes? (network : Network) (bytes : List UInt8) : Option AddressKey :=
  match bytes.take 21 with
  | [] => none
  | version :: hash =>
    if sized : bytes.length = 25 ∧ hash.length = 20 then
      if checksum (version :: hash) = bytes.drop 21 then
        (network.kindOf? version).map fun kind => ⟨⟨hash, sized.2⟩, kind⟩
      else none
    else none

/-- The key of an address, which may have blanks around it. -/
def resolve (network : Network) (address : String) : Answer AddressKey :=
  match (Base58.decode? (trim address.toList)).bind network.keyOfBytes? with
  | some key => .ok key
  | none => .error (.invalidAddress address)

/-- The text of the address with a kind given by its number in the indexes. -/
def encodeIndexed (network : Network) (indexType : UInt8) (hash : Hash160) : Answer String :=
  match AddressKind.ofIndexType? indexType with
  | some kind => .ok (network.encode ⟨hash, kind⟩)
  | none => .error (.unknownAddressType indexType)

end Network

end CoinLedger
