import CoinLedger.Address.Text
import CoinLedger.Proofs.Address
import CoinLedger.Proofs.Text.Base58
import CoinLedger.Proofs.Text.Blank

/-!
# One text for every key

The bytes that spell a key are its payload and the check bytes of the payload
(`keyOfBytes?_eq_some_iff`).  Base 58 gives every row of bytes one text, so a text resolves to a key
exactly when trimming leaves the text of the key (`resolve_eq_ok_iff`), and any other text is an
invalid address (`resolve_spelling`).
-/

set_option autoImplicit false

namespace CoinLedger.Network

open Text

/-! ## Versions -/

/-- A version that is known is the version of its kind. -/
theorem versionOf_of_kindOf? {network : Network} {version : UInt8} {kind : AddressKind}
    (known : network.kindOf? version = some kind) : network.versionOf kind = version := by
  rw [kindOf?] at known
  split at known
  next same =>
    cases known
    exact same.symm
  next =>
    split at known
    next same =>
      cases known
      exact same.symm
    next => cases known

theorem kindOf?_versionOf {network : Network}
    (apart : network.pubKeyVersion ≠ network.scriptVersion) (kind : AddressKind) :
    network.kindOf? (network.versionOf kind) = some kind := by
  cases kind with
  | pubKeyHash => rw [kindOf?, versionOf, if_pos rfl]
  | scriptHash => rw [kindOf?, versionOf, if_neg apart.symm, if_pos rfl]

/-! ## Bytes -/

/-- The bytes that spell a key. -/
def spelling (network : Network) (key : AddressKey) : List UInt8 :=
  network.payload key ++ checksum (network.payload key)

theorem length_checksum (payload : List UInt8) : (checksum payload).length = 4 := by
  rw [checksum, List.length_take, Digest.length_sha256]
  rfl

theorem length_payload (network : Network) (key : AddressKey) :
    (network.payload key).length = 21 := by
  rw [payload, List.length_cons, key.hash.length_bytes]

theorem keyOfBytes?_spelling {network : Network}
    (apart : network.pubKeyVersion ≠ network.scriptVersion) (key : AddressKey) :
    network.keyOfBytes? (network.spelling key) = some key := by
  have front : (network.spelling key).take 21 = network.versionOf key.kind :: key.hash.bytes :=
    List.take_left' (network.length_payload key)
  have back : checksum (network.versionOf key.kind :: key.hash.bytes) =
      (network.spelling key).drop 21 := (List.drop_left' (network.length_payload key)).symm
  have sized : (network.spelling key).length = 25 ∧ key.hash.bytes.length = 20 := by
    refine ⟨?_, key.hash.length_bytes⟩
    rw [spelling, List.length_append, length_payload, length_checksum]
  rw [keyOfBytes?, front]
  dsimp only
  rw [dif_pos sized, if_pos back, kindOf?_versionOf apart, Option.map_some]

/-- Bytes that are read as a key are its spelling, whichever versions the network has. -/
theorem eq_spelling_of_keyOfBytes? {network : Network} {bytes : List UInt8} {key : AddressKey}
    (read : network.keyOfBytes? bytes = some key) : bytes = network.spelling key := by
  rw [keyOfBytes?] at read
  split at read
  next => cases read
  next version hash front =>
    split at read
    next sized =>
      split at read
      next checked =>
        obtain ⟨kind, known, rfl⟩ := Option.map_eq_some_iff.mp read
        have same : network.payload ⟨⟨hash, sized.2⟩, kind⟩ = bytes.take 21 := by
          rw [payload, versionOf_of_kindOf? known, front]
        calc bytes = bytes.take 21 ++ bytes.drop 21 := (List.take_append_drop 21 bytes).symm
          _ = network.spelling ⟨⟨hash, sized.2⟩, kind⟩ := by rw [spelling, same, front, checked]
      next => cases read
    next => cases read

theorem keyOfBytes?_eq_some_iff {network : Network}
    (apart : network.pubKeyVersion ≠ network.scriptVersion) {bytes : List UInt8}
    {key : AddressKey} :
    network.keyOfBytes? bytes = some key ↔ bytes = network.spelling key := by
  constructor
  · exact eq_spelling_of_keyOfBytes?
  · rintro rfl
    exact keyOfBytes?_spelling apart key

/-! ## Texts -/

theorem toList_encode (network : Network) (key : AddressKey) :
    (network.encode key).toList = Base58.encode (network.spelling key) :=
  String.toList_ofList

/-- **A text resolves to a key exactly when trimming leaves the text of the key.** -/
theorem resolve_eq_ok_iff {network : Network}
    (apart : network.pubKeyVersion ≠ network.scriptVersion) {text : String} {key : AddressKey} :
    network.resolve text = .ok key ↔ String.ofList (trim text.toList) = network.encode key := by
  have read : network.resolve text = .ok key ↔
      (Base58.decode? (trim text.toList)).bind network.keyOfBytes? = some key := by
    rw [resolve]
    split
    next found known => simp [known]
    next unknown => simp [unknown]
  rw [read, Option.bind_eq_some_iff, ← String.toList_inj, String.toList_ofList, toList_encode]
  simp only [keyOfBytes?_eq_some_iff apart, exists_eq_right]
  constructor
  · intro decoded
    exact (Base58.encode_of_decode? decoded).symm
  · intro same
    rw [same, Base58.decode?_encode]

/-- The text of a key, with any blanks around it, is trimmed to the text of the key. -/
theorem trim_encode (network : Network) (key : AddressKey) {before after : List Char}
    (blankBefore : ∀ character ∈ before, isBlank character = true)
    (blankAfter : ∀ character ∈ after, isBlank character = true) :
    trim (String.ofList (before ++ (network.encode key).toList ++ after)).toList =
      (network.encode key).toList := by
  rw [String.toList_ofList]
  refine trim_padded blankBefore blankAfter fun character mem => ?_
  rw [toList_encode] at mem
  exact Base58.isBlank_eq_false_of_mem_encode mem

/-- **Every key has one text up to blanks.**  On a network that tells its two kinds apart the text
of a key, with any blanks around it, resolves to the key; no other text does; a text that is the
text of no key is an invalid address; and the number of a kind gives the text of the same key. -/
theorem resolve_spelling {network : Network}
    (apart : network.pubKeyVersion ≠ network.scriptVersion) :
    (∀ (key : AddressKey) (before after : List Char),
      (∀ character ∈ before, isBlank character = true) →
      (∀ character ∈ after, isBlank character = true) →
      network.resolve (String.ofList (before ++ (network.encode key).toList ++ after)) =
        .ok key) ∧
    (∀ (text : String) (key : AddressKey), network.resolve text = .ok key ↔
      String.ofList (trim text.toList) = network.encode key) ∧
    (∀ text : String, network.resolve text = .error (.invalidAddress text) ↔
      ∀ key, String.ofList (trim text.toList) ≠ network.encode key) ∧
    ∀ key : AddressKey,
      network.encodeIndexed key.kind.indexType key.hash = .ok (network.encode key) := by
  refine ⟨fun key before after blankBefore blankAfter => ?_,
    fun text key => resolve_eq_ok_iff apart,
    fun text => ⟨fun invalid key same => ?_, fun foreign => ?_⟩, fun key => ?_⟩
  · rw [resolve_eq_ok_iff apart, trim_encode network key blankBefore blankAfter,
      String.ofList_toList]
  · rw [(resolve_eq_ok_iff apart).mpr same] at invalid
    cases invalid
  · rcases network.resolve_cases text with ⟨key, resolved, _⟩ | ⟨invalid, _⟩
    · exact absurd ((resolve_eq_ok_iff apart).mp resolved) (foreign key)
    · exact invalid
  · obtain ⟨hash, kind⟩ := key
    cases kind <;> rfl

/-- A version of zero and a hash of zeros are written as ones in front, and the blanks around them
do not matter. -/
theorem resolve_zeros :
    (⟨0, 5⟩ : Network).pubKeyVersion ≠ (⟨0, 5⟩ : Network).scriptVersion ∧
      (⟨0, 5⟩ : Network).resolve "\t1111111111111111111114oLvT2\u2003" =
        .ok ⟨.zero, .pubKeyHash⟩ := by
  have apart : (⟨0, 5⟩ : Network).pubKeyVersion ≠ (⟨0, 5⟩ : Network).scriptVersion := by decide
  have trimmed : String.ofList (trim "\t1111111111111111111114oLvT2\u2003".toList) =
      (⟨0, 5⟩ : Network).encode ⟨.zero, .pubKeyHash⟩ := by decide +kernel
  exact ⟨apart, ((resolve_spelling apart).2.1 _ _).mpr trimmed⟩

end CoinLedger.Network
