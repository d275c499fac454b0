/-!
# Blocks of a padded message

Both digests cut a message into blocks of sixteen 32-bit words after the same padding: a single bit,
zeros up to eight bytes before a multiple of sixty-four, and the bit count of the message.  They
differ in the order of the bytes of a word.
-/

set_option autoImplicit false

namespace CoinLedger.Digest

/-- The items in groups of `size + 1`; a shorter remainder is left out. -/
def groupsOf {α : Type} (size : Nat) (items : List α) : List (List α) :=
  if size < items.length then
    items.take (size + 1) :: groupsOf size (items.drop (size + 1))
  else
    []
termination_by items.length
decreasing_by simp only [List.length_drop]; omega

/-- The low `count` bytes of a number, the lowest first. -/
def lowBytes : Nat → Nat → List UInt8
  | 0, _ => []
  | count + 1, value => UInt8.ofNat (value % 256) :: lowBytes count (value / 256)

/-- There are as many bytes as asked for. -/
theorem length_lowBytes (count value : Nat) : (lowBytes count value).length = count := by
  induction count generalizing value with
  | zero => rfl
  | succ count ih => simp [lowBytes, ih]

/-- How bytes make up a word. -/
inductive ByteOrder where
  | bigEndian
  | littleEndian
  deriving DecidableEq, Repr

namespace ByteOrder

/-- The bytes in the order in which a word stores them, given the lowest first. -/
def arrange : ByteOrder → List UInt8 → List UInt8
  | .bigEndian, bytes => bytes.reverse
  | .littleEndian, bytes => bytes

/-- The word whose stored bytes are given. -/
def word (order : ByteOrder) (bytes : List UInt8) : UInt32 :=
  (order.arrange bytes).foldr (fun byte value => value * 256 + UInt32.ofNat byte.toNat) 0

/-- The bytes of a message with its padding. -/
def padded (order : ByteOrder) (message : List UInt8) : List UInt8 :=
  let zeros := (119 - message.length % 64) % 64
  message ++ [0x80] ++ List.replicate zeros 0 ++
    order.arrange (lowBytes 8 (8 * message.length))

/-- The padded message as blocks of sixteen words. -/
def blocks (order : ByteOrder) (message : List UInt8) : List (List UInt32) :=
  groupsOf 15 ((groupsOf 3 (order.padded message)).map order.word)

/-- The bytes of a row of words. -/
def bytes (order : ByteOrder) (words : List UInt32) : List UInt8 :=
  words.flatMap fun value => order.arrange (lowBytes 4 value.toNat)

end ByteOrder

/-- The word rotated to the left; the amount lies between 1 and 31. -/
def rotateLeft (value : UInt32) (amount : UInt32) : UInt32 :=
  (value <<< amount) ||| (value >>> (32 - amount))

/-- The word rotated to the right; the amount lies between 1 and 31. -/
def rotateRight (value : UInt32) (amount : UInt32) : UInt32 :=
  (value >>> amount) ||| (value <<< (32 - amount))

end CoinLedger.Digest
