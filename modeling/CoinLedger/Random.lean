/-!
# Random draws

A random source draws a number below a bound and hands on its state.  Every generator of 64-bit
words gives one: a word is scaled to the bound and drawn again as long as it falls into the part of
the range that would favour some numbers.  `RandomSource.shuffle` exchanges the last item with a
random one, then the one before it, and so on.
-/

set_option autoImplicit false

namespace CoinLedger

/-- Draws of random numbers; the number of bits that a draw is made from is part of the request. -/
structure RandomSource (σ : Type) where
  /-- A number up to and including `greatest`, from 64 bits. -/
  draw64 : (greatest : Nat) → σ → Fin (greatest + 1) × σ
  /-- A number up to and including `greatest`, from 32 bits. -/
  draw32 : (greatest : Nat) → σ → Fin (greatest + 1) × σ

/-! ## Draws from words -/

/-- Whether a word scaled to `count` numbers lies in the fair part of the range of `width` bits. -/
def isFairDraw (width count word : Nat) : Bool :=
  let spare := width - (Nat.log2 count + 1)
  (word * count) % (1 <<< width) < count <<< spare

/-- Draws words of `width` bits until one is fair, but at most `attempts` of them. -/
def drawScaled {σ : Type} (word : σ → Nat × σ) (width greatest : Nat) :
    Nat → σ → Fin (greatest + 1) × σ
  | 0, state => (0, state)
  | attempts + 1, state =>
    let (value, state) := word state
    if isFairDraw width (greatest + 1) value then
      (Fin.ofNat (greatest + 1) ((value * (greatest + 1)) >>> width), state)
    else drawScaled word width greatest attempts state

/-- How many words a draw takes at most.  At least half of all words are fair. -/
def drawAttempts : Nat := 1000

/-- The source of draws from a generator of 64-bit words; 32 bits are the upper half of a word. -/
def RandomSource.ofWords {σ : Type} (next : σ → UInt64 × σ) : RandomSource σ where
  draw64 greatest :=
    drawScaled (fun state => let (word, state) := next state; (word.toNat, state)) 64 greatest
      drawAttempts
  draw32 greatest :=
    drawScaled (fun state => let (word, state) := next state; ((word >>> 32).toNat, state)) 32
      greatest drawAttempts

/-! ## A generator -/

/-- The next word of the generator SplitMix64 and its next state. -/
def splitMix64 (state : UInt64) : UInt64 × UInt64 :=
  let state := state + 0x9e3779b97f4a7c15
  let mixed := (state ^^^ (state >>> 30)) * 0xbf58476d1ce4e5b9
  let mixed := (mixed ^^^ (mixed >>> 27)) * 0x94d049bb133111eb
  (mixed ^^^ (mixed >>> 31), state)

/-- The source of draws that a seed determines. -/
def RandomSource.seeded : RandomSource UInt64 :=
  .ofWords splitMix64

/-! ## Shuffling -/

namespace RandomSource

variable {σ α : Type}

/-- Exchanges each item from position `last` down to position one with one that does not stand
behind it. -/
def shuffleFrom (source : RandomSource σ) : Nat → Array α → σ → Array α × σ
  | 0, items, state => (items, state)
  | last + 1, items, state =>
    let (choice, state) := source.draw32 (last + 1) state
    source.shuffleFrom last (items.swapIfInBounds (last + 1) choice) state

/-- The items in a random order. -/
def shuffle (source : RandomSource σ) (items : List α) (state : σ) : List α × σ :=
  let (shuffled, state) := source.shuffleFrom (items.length - 1) items.toArray state
  (shuffled.toList, state)

end RandomSource

end CoinLedger
