import CoinLedger.Digest.Block

/-!
# SHA-256

The digest of a message is a fold over its blocks: each block is stretched to sixty-four words,
which a round each mixes into eight working words, and the result is added to the state.
-/

set_option autoImplicit false

namespace CoinLedger.Digest

namespace Sha256

/-- The eight words carried from block to block. -/
structure State where
  a : UInt32
  b : UInt32
  c : UInt32
  d : UInt32
  e : UInt32
  f : UInt32
  g : UInt32
  h : UInt32

/-- The state before the first block. -/
def initial : State where
  a := 0x6a09e667
  b := 0xbb67ae85
  c := 0x3c6ef372
  d := 0xa54ff53a
  e := 0x510e527f
  f := 0x9b05688c
  g := 0x1f83d9ab
  h := 0x5be0cd19

/-- The constant of each round. -/
def roundConstants : List UInt32 := [
  0x428a2f98, 0x71374491, 0xb5c0fbcf, 0xe9b5dba5, 0x3956c25b, 0x59f111f1, 0x923f82a4, 0xab1c5ed5,
  0xd807aa98, 0x12835b01, 0x243185be, 0x550c7dc3, 0x72be5d74, 0x80deb1fe, 0x9bdc06a7, 0xc19bf174,
  0xe49b69c1, 0xefbe4786, 0x0fc19dc6, 0x240ca1cc, 0x2de92c6f, 0x4a7484aa, 0x5cb0a9dc, 0x76f988da,
  0x983e5152, 0xa831c66d, 0xb00327c8, 0xbf597fc7, 0xc6e00bf3, 0xd5a79147, 0x06ca6351, 0x14292967,
  0x27b70a85, 0x2e1b2138, 0x4d2c6dfc, 0x53380d13, 0x650a7354, 0x766a0abb, 0x81c2c92e, 0x92722c85,
  0xa2bfe8a1, 0xa81a664b, 0xc24b8b70, 0xc76c51a3, 0xd192e819, 0xd6990624, 0xf40e3585, 0x106aa070,
  0x19a4c116, 0x1e376c08, 0x2748774c, 0x34b0bcb5, 0x391c0cb3, 0x4ed8aa4a, 0x5b9cca4f, 0x682e6ff3,
  0x748f82ee, 0x78a5636f, 0x84c87814, 0x8cc70208, 0x90befffa, 0xa4506ceb, 0xbef9a3f7, 0xc67178f2]

/-- The next word of a schedule, from the words two, seven, fifteen and sixteen places back. -/
def nextWord (schedule : Array UInt32) : UInt32 :=
  let back (distance : Nat) := schedule.getD (schedule.size - distance) 0
  let early := back 15
  let late := back 2
  let sigma0 := rotateRight early 7 ^^^ rotateRight early 18 ^^^ (early >>> 3)
  let sigma1 := rotateRight late 17 ^^^ rotateRight late 19 ^^^ (late >>> 10)
  back 16 + sigma0 + back 7 + sigma1

/-- Stretches a schedule by a number of words. -/
def stretch : Nat → Array UInt32 → Array UInt32
  | 0, schedule => schedule
  | count + 1, schedule => stretch count (schedule.push (nextWord schedule))

/-- One round, with its constant and its word of the schedule. -/
def round (s : State) (constant word : UInt32) : State :=
  let sum1 := rotateRight s.e 6 ^^^ rotateRight s.e 11 ^^^ rotateRight s.e 25
  let choice := (s.e &&& s.f) ^^^ (~~~s.e &&& s.g)
  let mixed := s.h + sum1 + choice + constant + word
  let sum0 := rotateRight s.a 2 ^^^ rotateRight s.a 13 ^^^ rotateRight s.a 22
  let majority := (s.a &&& s.b) ^^^ (s.a &&& s.c) ^^^ (s.b &&& s.c)
  { a := mixed + (sum0 + majority), b := s.a, c := s.b, d := s.c
    e := s.d + mixed, f := s.e, g := s.f, h := s.g }

/-- Takes one block into the state. -/
def absorb (s : State) (block : List UInt32) : State :=
  let schedule := (stretch 48 block.toArray).toList
  let t := (roundConstants.zip schedule).foldl (fun t entry => round t entry.1 entry.2) s
  { a := s.a + t.a, b := s.b + t.b, c := s.c + t.c, d := s.d + t.d
    e := s.e + t.e, f := s.f + t.f, g := s.g + t.g, h := s.h + t.h }

/-- The words of a state in order. -/
def State.words (s : State) : List UInt32 :=
  [s.a, s.b, s.c, s.d, s.e, s.f, s.g, s.h]

end Sha256

/-- The SHA-256 digest of a message, thirty-two bytes. -/
def sha256 (message : List UInt8) : List UInt8 :=
  ByteOrder.bigEndian.bytes
    ((ByteOrder.bigEndian.blocks message).foldl Sha256.absorb Sha256.initial).words

/-- The digest has thirty-two bytes. -/
theorem length_sha256 (message : List UInt8) : (sha256 message).length = 32 := by
  simp [sha256, ByteOrder.bytes, ByteOrder.arrange, Sha256.State.words, length_lowBytes]

end CoinLedger.Digest
