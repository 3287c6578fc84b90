import QuerySynth.Random.Range

/-!
# Weighted and uniform choice

Every decision of the grammar is one of these two: one option by weight, or one
item of a list with equal chances.  Nothing is drawn when there is nothing to
choose from.  Numbers and places are asked for by bounds and lists that are
settled elsewhere, so a range without numbers and a place outside of a list are
outcomes too.
-/

namespace QuerySynth

/-- Why a choice could not be made. -/
inductive ChoiceError where
  /-- No option of the named group is available with a positive weight. -/
  | zeroWeights (group : String)
  /-- The list of the named candidates is empty. -/
  | emptyCandidates (what : String)
  /-- A place outside of a list was asked for, or a number out of none. -/
  | outOfRange
  deriving DecidableEq, Repr

/-- The text shown for a failed choice. -/
def ChoiceError.message : ChoiceError → String
  | .zeroWeights group =>
      "weight group `" ++ group ++ "` has no positive weight among its available options"
  | .emptyCandidates what => "cannot choose " ++ what ++ " from an empty candidate list"
  | .outOfRange => "a place outside of a list was asked for"

/-- A drawing computation that may find nothing to choose from. -/
abbrev Choose (σ : Type) : Type → Type := ExceptT ChoiceError (Draw σ)

/-- A list of options with their weights. -/
abbrev Options (α : Type) := List (α × UInt32)

namespace Options

variable {α : Type}

/-- The exact sum of the weights. -/
def total : Options α → Nat
  | [] => 0
  | (_, weight) :: rest => weight.toNat + total rest

/-- The first option whose running sum exceeds the drawn number. -/
def at? : Options α → Nat → Option α
  | [], _ => none
  | (a, w) :: rest, drawn =>
      if drawn < w.toNat then some a else at? rest (drawn - w.toNat)

/-- Takes the weight from every option that is not available. -/
def mask (options : Options α) (available : α → Bool) : Options α :=
  options.map fun (a, w) => (a, if available a then w else 0)

/-- Options paired with weights in order; the longer list is cut. -/
def ofWeights (options : List α) (weights : List UInt32) : Options α := options.zip weights

end Options

namespace Choose

variable {σ α : Type} [WordSource σ]

/-- What was found at a place that has to be there. -/
def inRange (found : Option α) : Choose σ α :=
  match found with
  | some a => pure a
  | none => throw .outOfRange

/-- A number below a bound, which has to leave room for one. -/
def below (n : Nat) : Choose σ Nat := do
  if n = 0 then
    throw .outOfRange
  ExceptT.lift (Draw.below64 n)

/-- Picks one option with a chance in proportion to its weight. -/
def weighted (group : String) (options : Options α) : Choose σ α := do
  if options.total = 0 then
    throw (.zeroWeights group)
  let drawn ← ExceptT.lift (Draw.evenBelow64 options.total)
  inRange (options.at? drawn)

/-- Picks one item, each with the same chance. -/
def uniform (what : String) (items : List α) : Choose σ α := do
  if items.isEmpty then
    throw (.emptyCandidates what)
  let drawn ← ExceptT.lift (Draw.place items.length)
  inRange items[drawn]?

end Choose

end QuerySynth
