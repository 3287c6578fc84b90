import QuerySynth.Random.Choice

/-!
# Positions without replacement

A sample of `amount` distinct positions below `length`, in random order.  Three
methods share the work: shuffling the front of the whole range, Floyd's method,
and drawing until a new position comes up.  Which one runs depends on an
estimate of their cost in single precision; it is part of what a seed means,
since the three take different words.
-/

namespace QuerySynth

namespace Draw

/-- The ways of sampling positions. -/
inductive SampleMethod where
  | shuffle
  | floyd
  | rejection
  deriving DecidableEq, Repr

/-- The cheapest method by estimate. -/
def SampleMethod.choose (length amount : Nat) : SampleMethod :=
  let long := decide (500000 ≤ length)
  let size := length.toUInt32.toFloat32
  let count := amount.toUInt32.toFloat32
  if amount < 163 then
    let perItem : Float32 := if long then 8 / 45 else 1.6
    let fixed : Float32 := if long then 70 / 9 else 10
    if 11 < amount ∧ size < (fixed + perItem * count) * count then .shuffle else .floyd
  else
    let perItem : Float32 := if long then 330 / 9 else 270
    if size < perItem * count then .shuffle else .rejection

variable {σ : Type} [WordSource σ]

/-- Settles the next `n` positions of the array from `start` on, each with an
entry from the part not yet settled. -/
def shuffleFrom (entries : Array Nat) (start : Nat) : Nat → Draw σ (Array Nat)
  | 0 => pure entries
  | n + 1 => do
      let offset ← below32 (entries.size - start)
      shuffleFrom (entries.swapIfInBounds start (start + offset)) (start + 1) n

/-- Shuffles the front of the whole range and keeps it. -/
def sampleByShuffle (length amount : Nat) : Draw σ (List Nat) := do
  let entries ← shuffleFrom (Array.range length) 0 amount
  return (entries.extract 0 amount).toList

/-- Floyd's method in random order: position `last` takes the place in front of
a draw that is already in the sample. -/
def floydInserting (sample : List Nat) (last : Nat) : Nat → Draw σ (List Nat)
  | 0 => pure sample
  | n + 1 => do
      let drawn ← below32 (last + 1)
      let next := match sample.idxOf? drawn with
        | some place => sample.insertIdx place last
        | none => sample ++ [drawn]
      floydInserting next (last + 1) n

/-- Floyd's method in order of arrival: position `last` stands in for a draw
that is already in the sample. -/
def floydAppending (sample : Array Nat) (last : Nat) : Nat → Draw σ (Array Nat)
  | 0 => pure sample
  | n + 1 => do
      let drawn ← below32 (last + 1)
      floydAppending (sample.push (if sample.contains drawn then last else drawn)) (last + 1) n

/-- Shuffles the entries at `n` and below, from the top down. -/
def shuffleDown (entries : Array Nat) : Nat → Draw σ (Array Nat)
  | 0 => pure entries
  | n + 1 => do
      let place ← below32 (n + 2)
      shuffleDown (entries.swapIfInBounds (n + 1) place) n

/-- Floyd's method; samples of fifty and more are shuffled afterwards. -/
def sampleByFloyd (length amount : Nat) : Draw σ (List Nat) := do
  if amount < 50 then
    floydInserting [] (length - amount) amount
  else
    let arrived ← floydAppending #[] (length - amount) amount
    return (← shuffleDown arrived (amount - 1)).toList

/-- Draws from `next` until `n` new positions have come up. -/
def sampleByRejection (next : Draw σ Nat) (sample : Array Nat) : Nat → Draw σ (List Nat)
  | 0 => pure sample.toList
  | n + 1 => do
      let fresh ← retry do
        let drawn ← next
        return if sample.contains drawn then none else some drawn
      sampleByRejection next (sample.push fresh) n

/-- Distinct positions below `length`, in random order.  A length beyond 32 bits
leaves only rejection, from longer words. -/
def positions (length amount : Nat) : Draw σ (List Nat) :=
  if length < UInt32.size then
    match SampleMethod.choose length amount with
    | .shuffle => sampleByShuffle length amount
    | .floyd => sampleByFloyd length amount
    | .rejection => sampleByRejection (evenBelow32 length) #[] amount
  else sampleByRejection (evenBelow64 length) #[] amount

end Draw

/-- A sublist of random size, at least one if there is anything to take, in
random order. -/
def Choose.subset {σ α : Type} [WordSource σ] (items : List α) : Choose σ (List α) := do
  if items.isEmpty then
    return []
  let amount ← Choose.below items.length
  let places ← ExceptT.lift (Draw.positions items.length (amount + 1))
  let table := items.toArray
  Choose.inRange (places.mapM (table[·]?))

end QuerySynth
