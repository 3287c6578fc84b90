import QuerySynth.Generate.Attribute
import QuerySynth.Grammar.Select

/-!
# Drawing results

The shape is drawn first, then the number of elements of a bracketed tuple, then
the elements one by one.
-/

namespace QuerySynth

/-- The two readings of a weight list with two options. -/
inductive Side where
  | first
  | second
  deriving DecidableEq, Repr

namespace Side

/-- Both readings with their weights, if there are two weights. -/
def options? : List UInt32 → Option (Options Side)
  | a :: b :: _ => some [(.first, a), (.second, b)]
  | _ => none

end Side

/-- The weights that a result is drawn by. -/
structure SelectWeights where
  /-- Tuple, truth value. -/
  result : List UInt32
  /-- Single element, bracketed tuple. -/
  tuple : List UInt32
  /-- Synonym, attribute reference. -/
  elem : List UInt32
  /-- The four attributes. -/
  attrName : List UInt32

variable {σ : Type} [WordSource σ]

/-- So many draws in a row. -/
def Choose.times {α : Type} (next : Choose σ α) : Nat → Choose σ (List α)
  | 0 => pure []
  | n + 1 => do
      let a ← next
      return a :: (← Choose.times next n)

namespace SelectWeights

/-- Draws one element. -/
def drawElem (weights : SelectWeights) (synonyms : List Synonym) (subjects : AttrSubjects) :
    Choose σ Elem := do
  let available
    | .first => !synonyms.isEmpty
    | .second => subjects.canDraw weights.attrName none
  let options ← Choose.inRange (Side.options? weights.elem)
  match ← Choose.weighted "elem" (options.mask available) with
  | .first => return .synonym (← Choose.uniform "select synonym" synonyms)
  | .second => return .attr (← subjects.draw weights.attrName none)

/-- Draws a result with at most so many elements; a tuple has at least one. -/
def draw (weights : SelectWeights) (limit : Nat) (synonyms : List Synonym)
    (subjects : AttrSubjects) : Choose σ SelectResult := do
  match ← Choose.weighted "result" (← Choose.inRange (Side.options? weights.result)) with
  | .second => return .boolean
  | .first =>
      match ← Choose.weighted "tuple" (← Choose.inRange (Side.options? weights.tuple)) with
      | .first => return .single (← weights.drawElem synonyms subjects)
      | .second =>
          let more ← Choose.below (max limit 1)
          return .tuple (← Choose.times (weights.drawElem synonyms subjects) (more + 1))

end SelectWeights

end QuerySynth
