import QuerySynth.Random.Source

/-!
# The seeded source

Words are the output of a ChaCha block function with six double rounds, read
block after block from block zero.  The eight words of the key are spread from
a 64-bit seed by a permuted congruential step.  A 64-bit word is two 32-bit
words, low half first, also across the end of a block.
-/

namespace QuerySynth.Keystream

/-- Sixteen words in row order. -/
abbrev Block := Vector UInt32 16

/-- Rotation towards the high end. -/
def rotateLeft (x n : UInt32) : UInt32 := (x <<< n) ||| (x >>> (32 - n))

/-- Rotation towards the low end; rotation by zero is the identity. -/
def rotateRight (x n : UInt32) : UInt32 := (x >>> n) ||| (x <<< ((32 - n) % 32))

/-- One half of a quarter round: adds, mixes and rotates. -/
def stir (s : Block) (a b d : Fin 16) (n : UInt32) : Block :=
  let s := s.set a (s[a] + s[b])
  s.set d (rotateLeft (s[d] ^^^ s[a]) n)

/-- The quarter round on four positions. -/
def quarter (s : Block) (a b c d : Fin 16) : Block :=
  let s := stir s a b d 16
  let s := stir s c d b 12
  let s := stir s a b d 8
  stir s c d b 7

/-- Four columns, then four diagonals. -/
def doubleRound (s : Block) : Block :=
  let s := quarter s 0 4 8 12
  let s := quarter s 1 5 9 13
  let s := quarter s 2 6 10 14
  let s := quarter s 3 7 11 15
  let s := quarter s 0 5 10 15
  let s := quarter s 1 6 11 12
  let s := quarter s 2 7 8 13
  quarter s 3 4 9 14

/-- The output block with the given number: six double rounds, added to the
block they started from. -/
def block (key : Vector UInt32 8) (number : UInt64) : Block :=
  let start : Block :=
    #v[0x61707865, 0x3320646e, 0x79622d32, 0x6b206574,
       key[0], key[1], key[2], key[3], key[4], key[5], key[6], key[7],
       number.toUInt32, (number >>> 32).toUInt32, 0, 0]
  let mixed := doubleRound (doubleRound (doubleRound
    (doubleRound (doubleRound (doubleRound start)))))
  start.zipWith (· + ·) mixed

/-- One step of the seed spreader. -/
def spreadState (state : UInt64) : UInt64 :=
  state * 6364136223846793005 + 11634580027462260723

/-- The key word read off a spreader state. -/
def spreadWord (state : UInt64) : UInt32 :=
  rotateRight (((state >>> 18) ^^^ state) >>> 27).toUInt32 (state >>> 59).toUInt32

/-- The first `n` key words of a spreader state. -/
def spread : Nat → UInt64 → List UInt32
  | 0, _ => []
  | n + 1, state =>
      let state := spreadState state
      spreadWord state :: spread n state

/-- The key of a seed. -/
def keyOfSeed (seed : UInt64) : Vector UInt32 8 :=
  Vector.ofFn fun i => (spread 8 seed).getD i 0

end Keystream

/-- A keystream in progress: the unread words of the current block, and the
number of the block after it. -/
structure Keystream where
  key : Vector UInt32 8
  following : UInt64
  unread : List UInt32

namespace Keystream

/-- The keystream of a seed, from its first word. -/
def ofSeed (seed : UInt64) : Keystream := ⟨keyOfSeed seed, 0, []⟩

/-- The next word of the stream. -/
def word32 (s : Keystream) : UInt32 × Keystream :=
  match s.unread with
  | w :: rest => (w, { s with unread := rest })
  | [] =>
      let fresh := block s.key s.following
      (fresh[0], ⟨s.key, s.following + 1, fresh.toList.tail⟩)

/-- The next two words of the stream, low half first. -/
def word64 (s : Keystream) : UInt64 × Keystream :=
  let (low, s) := s.word32
  let (high, s) := s.word32
  (low.toUInt64 ||| (high.toUInt64 <<< 32), s)

instance : Generator Keystream := ⟨word32, word64⟩

end Keystream

end QuerySynth
