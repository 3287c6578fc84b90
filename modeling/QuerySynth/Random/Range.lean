import QuerySynth.Random.Source

/-!
# Numbers below a bound

A word of `b` bits is scaled to `n` values by taking the high half of its
product with `n`.  Some products are refused, by a test on the low half, so
that all values are equally likely.  Two tests are in use: the coarse one
compares with `n` shifted to the top of the word, the even one with the exact
multiple of `n`.
-/

namespace QuerySynth.Draw

/-- The largest low half that the coarse test accepts: `n` shifted until its
leading bit is the top bit of the word, less one. -/
def coarseZone (bits n : Nat) : Nat := (n <<< (bits - 1 - n.log2)) - 1

/-- The largest low half that the even test accepts; it refuses exactly as many
words as are left over when all are dealt out in rounds of `n`. -/
def evenZone (bits n : Nat) : Nat :=
  Nat.pow 2 bits - 1 - (Nat.pow 2 bits - n) % n

/-- The value of a word among `n`, if its low half is within the zone. -/
def scale? (bits n zone word : Nat) : Option Nat :=
  if word * n % Nat.pow 2 bits ≤ zone then some (word * n / Nat.pow 2 bits) else none

variable {σ : Type} [WordSource σ]

/-- A number below `n` from words of the given width. -/
def scaled (bits n zone : Nat) (word : Draw σ Nat) : Draw σ Nat :=
  retry do return scale? bits n zone (← word)

/-- A number below `n`, for `n` at most `2 ^ 64`, by the coarse test on 64-bit
words.  With `2 ^ 64` values the word itself is the answer. -/
def below64 (n : Nat) : Draw σ Nat :=
  if n = UInt64.size then word64 else scaled 64 n (coarseZone 64 n) word64

/-- A number below `n`, for `n` below `2 ^ 32`, by the coarse test on 32-bit
words. -/
def below32 (n : Nat) : Draw σ Nat := scaled 32 n (coarseZone 32 n) word32

/-- A place in a list, by the coarse test on the shortest words that hold its
length. -/
def place (length : Nat) : Draw σ Nat :=
  if length < UInt32.size then below32 length else below64 length

/-- A number below `n` by the even test on 64-bit words. -/
def evenBelow64 (n : Nat) : Draw σ Nat := scaled 64 n (evenZone 64 n) word64

/-- A number below `n` by the even test on 32-bit words. -/
def evenBelow32 (n : Nat) : Draw σ Nat := scaled 32 n (evenZone 32 n) word32

/-- True with the given probability: a word counts if it is below that share of
`2 ^ 64`.  Certainty takes no word; impossibility takes one all the same. -/
def coin (probability : Float) : Draw σ Bool := do
  if probability == 1.0 then
    return true
  let word ← word64
  return word < (probability * 18446744073709551616.0).toUInt64.toNat

end QuerySynth.Draw
