import QuerySynth.Random.Choice

/-!
# Chains

A chain has one element for certain.  Before each further one a coin is thrown,
as long as the limit leaves room; the chance starts at one half and is
multiplied with the decay after every element added.
-/

namespace QuerySynth

/-- How long chains get. -/
structure ChainPolicy where
  /-- The greatest number of elements after the first. -/
  limit : Nat
  /-- What the chance of another element is multiplied with after each. -/
  decay : Float

namespace ChainPolicy

/-- The nearest number from zero to one; the undefined value stays itself. -/
def clamp (x : Float) : Float := if x < 0.0 then 0.0 else if 1.0 < x then 1.0 else x

/-- At most `n` further elements, with the given chance of the first of them. -/
def extend {m : Type → Type} [Monad m] {α : Type} (decay : Float) (coin : Float → m Bool)
    (next : m α) (chance : Float) : Nat → m (List α)
  | 0 => pure []
  | n + 1 => do
      if ← coin chance then
        let element ← next
        return element :: (← extend decay coin next (clamp (chance * decay)) n)
      else
        return []

/-- A chain of elements, with its coins from `coin`. -/
def chainWith {m : Type → Type} [Monad m] {α : Type} (policy : ChainPolicy)
    (coin : Float → m Bool) (next : m α) : m (List α) := do
  let element ← next
  return element :: (← extend policy.decay coin next 0.5 policy.limit)

/-- A chain of drawn elements. -/
def chain {σ α : Type} [WordSource σ] (policy : ChainPolicy) (next : Choose σ α) :
    Choose σ (List α) :=
  policy.chainWith (fun chance => ExceptT.lift (Draw.coin chance)) next

end ChainPolicy

end QuerySynth
