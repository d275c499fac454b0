import CoinLedger.Hash
import CoinLedger.Proofs.Text.Decimal
import CoinLedger.Proofs.Text.Hex

/-!
# Texts of hashes

A hash is shown as sixty-four lower-case digits, two for each of its bytes and the last byte in
front (`shows_toHex`).  A text is read as a hash exactly when it is the digits of the hash in either
letter case, with any blanks around them (`ofHex_eq_ok_iff`).  So the texts that are read are those
of sixty-four digits, each hash is read back from its text, and both hashes and outpoints are told
apart by their texts (`hashes_read_shown`).
-/

set_option autoImplicit false

namespace CoinLedger

open Text

/-! ## Showing -/

namespace Text.Hex

/-- The digits of base sixteen in lower case, by their values. -/
def lowerDigits : List Char := "0123456789abcdef".toList

theorem getElem?_lowerDigits : ∀ nibble < 16, lowerDigits[nibble]? = some (digit nibble) := by
  decide +kernel

/-- The halves of a byte stand at two positions in a row. -/
theorem getElem?_nibbles (bytes : List UInt8) (position : Nat) :
    (nibbles bytes)[2 * position]? = bytes[position]?.map (·.toNat / 16) ∧
      (nibbles bytes)[2 * position + 1]? = bytes[position]?.map (·.toNat % 16) := by
  induction bytes generalizing position with
  | nil => exact ⟨rfl, rfl⟩
  | cons byte rest ih =>
      cases position with
      | zero => exact ⟨rfl, rfl⟩
      | succ position => exact ih position

end Text.Hex

namespace Hash256

/-- A text shows a hash: sixty-four lower-case digits, two for each byte, the high one first and the
bytes from the last one on. -/
structure Shows (hash : Hash256) (text : List Char) : Prop where
  length : text.length = 64
  digits : ∀ position < 32, ∃ byte, hash.bytes[31 - position]? = some byte ∧
    text[2 * position]? = Hex.lowerDigits[byte.toNat / 16]? ∧
    text[2 * position + 1]? = Hex.lowerDigits[byte.toNat % 16]?

theorem toList_toHex (hash : Hash256) : hash.toHex.toList = Hex.encode hash.bytes.reverse :=
  String.toList_ofList

theorem length_reverse_bytes (hash : Hash256) : hash.bytes.reverse.length = 32 := by
  rw [List.length_reverse, hash.length_bytes]

/-- **A hash is shown by its text.** -/
theorem shows_toHex (hash : Hash256) : hash.Shows hash.toHex.toList := by
  rw [toList_toHex]
  constructor
  · rw [Hex.length_encode, length_reverse_bytes]
  · intro position below
    have inside : 31 - position < hash.bytes.length := by
      rw [hash.length_bytes]
      omega
    have place : hash.bytes.reverse[position]? = some hash.bytes[31 - position] := by
      rw [List.getElem?_reverse (by rw [hash.length_bytes]; exact below), hash.length_bytes]
      exact List.getElem?_eq_getElem inside
    obtain ⟨high, low⟩ := Hex.getElem?_nibbles hash.bytes.reverse position
    have bound : hash.bytes[31 - position].toNat < 256 := UInt8.toNat_lt _
    refine ⟨_, List.getElem?_eq_getElem inside, ?_, ?_⟩
    · rw [Hex.encode_eq_map, List.getElem?_map, high, place, Hex.getElem?_lowerDigits _ (by omega)]
      rfl
    · rw [Hex.encode_eq_map, List.getElem?_map, low, place, Hex.getElem?_lowerDigits _ (by omega)]
      rfl

/-! ## Reading -/

/-- **A text is read as a hash exactly when, trimmed and in lower case, it is the text of the
hash.** -/
theorem ofHex_eq_ok_iff {text : String} {hash : Hash256} :
    ofHex text = .ok hash ↔ (trim text.toList).map Char.toLower = hash.toHex.toList := by
  have exactly : Hex.decodeExactly 32 (trim text.toList) = .ok hash.bytes.reverse ↔
      (trim text.toList).map Char.toLower = hash.toHex.toList := by
    rw [Hex.decodeExactly_eq_ok_iff, toList_toHex]
    exact and_iff_right (length_reverse_bytes hash)
  rw [← exactly]
  unfold ofHex
  split
  next bytes read =>
    constructor
    · rintro same
      cases same
      rw [List.reverse_reverse]
      exact read
    · intro found
      cases read.symm.trans found
      simp
  next fault failed =>
    rw [failed]
    exact ⟨nofun, nofun⟩

/-- Both ways the bytes are turned round, so a hash is read back as it is stored. -/
theorem ofHex_toHex (hash : Hash256) : ofHex hash.toHex = .ok hash := by
  rw [ofHex_eq_ok_iff, toList_toHex, Hex.trim_encode, Hex.toLower_encode]

/-- The texts that are read are those of sixty-four digits. -/
theorem exists_ofHex_iff {text : String} :
    (∃ hash, ofHex text = .ok hash) ↔
      (trim text.toList).length = 64 ∧ ∀ character ∈ trim text.toList, Hex.IsDigit character := by
  rw [show 64 = 2 * 32 from rfl, ← Hex.exists_encode_iff]
  constructor
  · rintro ⟨hash, read⟩
    rw [ofHex_eq_ok_iff, toList_toHex] at read
    exact ⟨_, length_reverse_bytes hash, read⟩
  · rintro ⟨bytes, length, lower⟩
    refine ⟨⟨bytes.reverse, by rw [List.length_reverse, length]⟩, ?_⟩
    rw [ofHex_eq_ok_iff, toList_toHex, List.reverse_reverse, lower]

theorem toHex_injective : Function.Injective toHex := by
  intro left right same
  have read := ofHex_toHex left
  rw [same, ofHex_toHex, Except.ok.injEq] at read
  exact read.symm

end Hash256

/-- **Outpoints are told apart by their texts.**  The texts of both hashes are of one length, and
what follows the colon is the position. -/
theorem OutPoint.toText_injective : Function.Injective toText := by
  intro left right same
  have lists := congrArg String.toList same
  rw [toText, toText, String.toList_append, String.toList_append, String.toList_append,
    String.toList_append, List.append_assoc, List.append_assoc] at lists
  have lengths : left.txid.toHex.toList.length = right.txid.toHex.toList.length := by
    rw [left.txid.shows_toHex.length, right.txid.shows_toHex.length]
  obtain ⟨hashes, positions⟩ := List.append_inj lists lengths
  have txids := Hash256.toHex_injective (String.toList_injective hashes)
  have numerals : decimal left.index.toNat = decimal right.index.toNat := by
    simpa [decimal] using positions
  have indices : left.index = right.index := by
    rw [← UInt32.toNat_inj, ← digitsValue_decimal left.index.toNat, numerals, digitsValue_decimal]
  cases left
  cases right
  cases txids
  cases indices
  rfl

/-- **Hashes are read as they are shown.**  Every hash is shown by its text and read back from it;
the texts that are read are those of sixty-four digits in either letter case, with any blanks around
them, and in lower case they are the texts of what is read.  So hashes and outpoints are told apart
by their texts. -/
theorem hashes_read_shown :
    (∀ hash : Hash256, hash.Shows hash.toHex.toList ∧ Hash256.ofHex hash.toHex = .ok hash) ∧
    (∀ text : String, (∃ hash, Hash256.ofHex text = .ok hash) ↔
      (trim text.toList).length = 64 ∧ ∀ character ∈ trim text.toList, Hex.IsDigit character) ∧
    (∀ (text : String) (hash : Hash256), Hash256.ofHex text = .ok hash ↔
      (trim text.toList).map Char.toLower = hash.toHex.toList) ∧
    Function.Injective Hash256.toHex ∧ Function.Injective OutPoint.toText :=
  ⟨fun hash => ⟨hash.shows_toHex, hash.ofHex_toHex⟩, fun _ => Hash256.exists_ofHex_iff,
    fun _ _ => Hash256.ofHex_eq_ok_iff, Hash256.toHex_injective, OutPoint.toText_injective⟩

end CoinLedger
