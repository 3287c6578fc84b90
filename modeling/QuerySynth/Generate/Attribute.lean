import QuerySynth.Declaration
import QuerySynth.Grammar.Attribute
import QuerySynth.Random.Choice

/-!
# Drawing attribute references

An attribute is drawn by weight among those of the wanted type that have a
subject, and then one of its subjects.
-/

namespace QuerySynth

/-- The synonyms that each attribute can be read off. -/
structure AttrSubjects where
  procName : List Synonym := []
  varName : List Synonym := []
  value : List Synonym := []
  stmtNo : List Synonym := []
  deriving DecidableEq, Repr

namespace AttrSubjects

/-- The subjects of an attribute. -/
def get (subjects : AttrSubjects) : AttrName → List Synonym
  | .procName => subjects.procName
  | .varName => subjects.varName
  | .value => subjects.value
  | .stmtNo => subjects.stmtNo

/-- The declared synonyms of the kinds that own each attribute. -/
def ofDeclarations (declared : Declarations) : AttrSubjects where
  procName := declared.ofKinds AttrName.procName.owners
  varName := declared.ofKinds AttrName.varName.owners
  value := declared.ofKinds AttrName.value.owners
  stmtNo := declared.ofKinds AttrName.stmtNo.owners

theorem get_ofDeclarations (declared : Declarations) (attr : AttrName) :
    (ofDeclarations declared).get attr = declared.ofKinds attr.owners := by
  cases attr <;> rfl

/-- Whether an attribute is of the wanted type, if any is wanted, and has a
subject. -/
def offers (subjects : AttrSubjects) (wanted : Option ValueType) (attr : AttrName) : Bool :=
  wanted.all (attr.valueType == ·) && !(subjects.get attr).isEmpty

/-- Whether there is anything to draw. -/
def canDraw (subjects : AttrSubjects) (weights : List UInt32) (wanted : Option ValueType) :
    Bool :=
  (Options.ofWeights AttrName.all weights).any fun (attr, weight) =>
    0 < weight && subjects.offers wanted attr

/-- Draws an attribute reference of the wanted type. -/
def draw {σ : Type} [WordSource σ] (subjects : AttrSubjects) (weights : List UInt32)
    (wanted : Option ValueType) : Choose σ AttrRef := do
  let options := Options.ofWeights AttrName.all weights
  let attr ← Choose.weighted "attr_name" (options.mask (subjects.offers wanted))
  let subject ← Choose.uniform "attribute operand" (subjects.get attr)
  return ⟨subject, attr⟩

end AttrSubjects

end QuerySynth
