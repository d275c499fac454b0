import CoinLedger.Digest.Block

/-!
# RIPEMD-160

Each block runs through two lines of eighty steps.  The lines use the words of the block in
different orders, with different rotations, constants and mixing functions, and their results are
crossed into the state.
-/

set_option autoImplicit false

namespace CoinLedger.Digest

namespace Ripemd160

/-- The five words carried from block to block. -/
structure State where
  a : UInt32
  b : UInt32
  c : UInt32
  d : UInt32
  e : UInt32

/-- The state before the first block. -/
def initial : State where
  a := 0x67452301
  b := 0xefcdab89
  c := 0x98badcfe
  d := 0x10325476
  e := 0xc3d2e1f0

/-- A mixing function of three words. -/
abbrev Mixer := UInt32 → UInt32 → UInt32 → UInt32

/-- The mixing functions of the five rounds of the left line. -/
def mixers : List Mixer := [
  fun x y z => x ^^^ y ^^^ z,
  fun x y z => (x &&& y) ||| (~~~x &&& z),
  fun x y z => (x ||| ~~~y) ^^^ z,
  fun x y z => (x &&& z) ||| (y &&& ~~~z),
  fun x y z => x ^^^ (y ||| ~~~z)]

/-- What one round of one line uses: its mixing function, its constant, and the index of the word
and the rotation of each of its sixteen steps. -/
structure Round where
  mixer : Mixer
  constant : UInt32
  steps : List (Nat × UInt32)

/-- Puts the rounds of a line together. -/
def line (roundMixers : List Mixer) (constants : List UInt32) (indices : List (List Nat))
    (rotations : List (List UInt32)) : List Round :=
  (roundMixers.zip constants).zipWith
    (fun (mixer, constant) steps => { mixer, constant, steps })
    (indices.zipWith List.zip rotations)

/-- The rounds of the left line. -/
def leftLine : List Round :=
  line mixers [0x00000000, 0x5a827999, 0x6ed9eba1, 0x8f1bbcdc, 0xa953fd4e]
    [[0, 1, 2, 3, 4, 5, 6, 7, 8, 9, 10, 11, 12, 13, 14, 15],
     [7, 4, 13, 1, 10, 6, 15, 3, 12, 0, 9, 5, 2, 14, 11, 8],
     [3, 10, 14, 4, 9, 15, 8, 1, 2, 7, 0, 6, 13, 11, 5, 12],
     [1, 9, 11, 10, 0, 8, 12, 4, 13, 3, 7, 15, 14, 5, 6, 2],
     [4, 0, 5, 9, 7, 12, 2, 10, 14, 1, 3, 8, 11, 6, 15, 13]]
    [[11, 14, 15, 12, 5, 8, 7, 9, 11, 13, 14, 15, 6, 7, 9, 8],
     [7, 6, 8, 13, 11, 9, 7, 15, 7, 12, 15, 9, 11, 7, 13, 12],
     [11, 13, 6, 7, 14, 9, 13, 15, 14, 8, 13, 6, 5, 12, 7, 5],
     [11, 12, 14, 15, 14, 15, 9, 8, 9, 14, 5, 6, 8, 6, 5, 12],
     [9, 15, 5, 11, 6, 8, 13, 12, 5, 12, 13, 14, 11, 8, 5, 6]]

/-- The rounds of the right line. -/
def rightLine : List Round :=
  line mixers.reverse [0x50a28be6, 0x5c4dd124, 0x6d703ef3, 0x7a6d76e9, 0x00000000]
    [[5, 14, 7, 0, 9, 2, 11, 4, 13, 6, 15, 8, 1, 10, 3, 12],
     [6, 11, 3, 7, 0, 13, 5, 10, 14, 15, 8, 12, 4, 9, 1, 2],
     [15, 5, 1, 3, 7, 14, 6, 9, 11, 8, 12, 2, 10, 0, 4, 13],
     [8, 6, 4, 1, 3, 11, 15, 0, 5, 12, 2, 13, 9, 7, 10, 14],
     [12, 15, 10, 4, 1, 5, 8, 7, 6, 2, 13, 14, 0, 3, 9, 11]]
    [[8, 9, 9, 11, 13, 15, 15, 5, 7, 7, 8, 11, 14, 14, 12, 6],
     [9, 13, 15, 7, 12, 8, 9, 11, 7, 7, 12, 7, 6, 15, 13, 11],
     [9, 7, 15, 11, 8, 6, 6, 14, 12, 13, 5, 14, 13, 13, 7, 5],
     [15, 5, 8, 11, 14, 14, 6, 14, 6, 9, 12, 9, 12, 5, 15, 8],
     [8, 5, 12, 9, 12, 5, 14, 6, 8, 13, 6, 5, 15, 13, 11, 11]]

/-- One step with the word of the block that it uses. -/
def step (mixer : Mixer) (constant : UInt32) (s : State) (word rotation : UInt32) : State where
  a := s.e
  b := rotateLeft (s.a + mixer s.b s.c s.d + word + constant) rotation + s.e
  c := s.b
  d := rotateLeft s.c 10
  e := s.d

/-- Runs a block through a line. -/
def run (rounds : List Round) (block : Array UInt32) (s : State) : State :=
  rounds.foldl
    (fun s round =>
      round.steps.foldl
        (fun s (index, rotation) =>
          step round.mixer round.constant s (block.getD index 0) rotation) s) s

/-- Takes one block into the state. -/
def absorb (s : State) (block : List UInt32) : State :=
  let left := run leftLine block.toArray s
  let right := run rightLine block.toArray s
  { a := s.b + left.c + right.d
    b := s.c + left.d + right.e
    c := s.d + left.e + right.a
    d := s.e + left.a + right.b
    e := s.a + left.b + right.c }

/-- The words of a state in order. -/
def State.words (s : State) : List UInt32 :=
  [s.a, s.b, s.c, s.d, s.e]

end Ripemd160

/-- The RIPEMD-160 digest of a message, twenty bytes. -/
def ripemd160 (message : List UInt8) : List UInt8 :=
  ByteOrder.littleEndian.bytes
    ((ByteOrder.littleEndian.blocks message).foldl Ripemd160.absorb Ripemd160.initial).words

/-- The digest has twenty bytes. -/
theorem length_ripemd160 (message : List UInt8) : (ripemd160 message).length = 20 := by
  simp [ripemd160, ByteOrder.bytes, ByteOrder.arrange, Ripemd160.State.words, length_lowBytes]

end CoinLedger.Digest
