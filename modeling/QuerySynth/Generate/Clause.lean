import QuerySynth.Config.Weights
import QuerySynth.Generate.Attribute
import QuerySynth.Generate.Scope

/-!
# Drawing clauses

One function per family.  A relation without operands and a kind of reference
without candidates are never chosen.  A kind of pattern without subjects can be
chosen, and then the clause fails instead of falling back to another kind.
-/

namespace QuerySynth

variable {σ : Type} [WordSource σ]

namespace Scope

/-- Draws a such-that clause: the relation, its form if it has two, and its
operands. -/
def drawSuchThat (scope : Scope) (relations forms : List UInt32) : Choose σ Clause := do
  let options := Options.ofWeights Relation.all relations
  let relation ← Choose.weighted "relation" (options.mask scope.supports)
  let transitive ←
    if relation.hasTransitive then
      Choose.weighted "transitive" (Options.ofWeights [false, true] forms)
    else pure false
  let left ← Choose.uniform "relation left operand" (scope.left relation)
  let right ← Choose.uniform "relation right operand" (scope.right relation)
  return .suchThat relation transitive left right

/-- Draws a pattern clause: its kind, its subject and its leading operand. -/
def drawPattern (scope : Scope) (kinds : List UInt32) : Choose σ Clause := do
  let kind ← Choose.weighted "pattern" (Options.ofWeights PatternKind.all kinds)
  let subjects := scope.patternSubjects kind
  if subjects.isEmpty then
    throw (.emptyCandidates kind.missing)
  let entity ← Choose.uniform "pattern synonym" subjects
  let leader ← Choose.uniform "pattern left-hand side" scope.leaders
  return .pattern kind entity leader

end Scope

/-- The kinds of sides an equation can have. -/
inductive WithRefKind where
  | literal
  | attr
  | synonym
  deriving DecidableEq, Repr

namespace WithRefKind

/-- Every kind of side, in the order of its weights. -/
def all : List WithRefKind := [.literal, .attr, .synonym]

/-- The kind of a side. -/
def ofRef : WithRef → WithRefKind
  | .literal _ => .literal
  | .attr _ => .attr
  | .synonym _ => .synonym

end WithRefKind

/-- What the sides of an equation are drawn from. -/
structure EquationScope where
  names : List Operand
  integers : List Operand
  subjects : AttrSubjects
  lines : List Synonym

namespace EquationScope

/-- The literals, attributes and line numbers of declarations. -/
def ofDeclarations (declared : Declarations) (literals : Literals) : EquationScope where
  names := literals.nameOperands
  integers := literals.constantOperands
  subjects := .ofDeclarations declared
  lines := declared.ofKind .progLine

/-- Every literal, names first. -/
def literals (scope : EquationScope) : List Operand := scope.names ++ scope.integers

/-- The literals of a type of value, or all of them. -/
def literalsOf (scope : EquationScope) : Option ValueType → List Operand
  | none => scope.literals
  | some .name => scope.names
  | some .number => scope.integers

/-- The line numbers that fit a type of value. -/
def linesOf (scope : EquationScope) : Option ValueType → List Synonym
  | some .name => []
  | _ => scope.lines

/-- The sum of two weights, or the greatest weight if that is less. -/
def addWeights (a b : UInt32) : UInt32 := (min (a.toNat + b.toNat) (UInt32.size - 1)).toUInt32

/-- The weight of each kind of side; missing weights are zero. -/
def weightsOf (weights : List UInt32) : Options WithRefKind :=
  WithRefKind.all.zipIdx.map fun (kind, i) => (kind, weights.getD i 0)

/-- The weights of the first side.  Without literals their weight goes to line
numbers. -/
def firstWeights (scope : EquationScope) (weights : List UInt32) : Options WithRefKind :=
  if scope.literals.isEmpty then
    [(.literal, 0), (.attr, weights.getD 1 0),
      (.synonym, addWeights (weights.getD 2 0) (weights.getD 0 0))]
  else weightsOf weights

/-- Whether a kind of side has candidates of the wanted type. -/
def offers (scope : EquationScope) (attrs : List UInt32) (wanted : Option ValueType) :
    WithRefKind → Bool
  | .literal => !(scope.literalsOf wanted).isEmpty
  | .attr => scope.subjects.canDraw attrs wanted
  | .synonym => !(scope.linesOf wanted).isEmpty

/-- What the literals for a side are called. -/
def literalName : Option ValueType → String
  | none => "with literal"
  | some .name => "name literal"
  | some .number => "integer literal"

/-- Draws one side of the wanted type, by the given weights. -/
def drawSide (scope : EquationScope) (options : Options WithRefKind) (attrs : List UInt32)
    (wanted : Option ValueType) : Choose σ WithRef := do
  match ← Choose.weighted "with_ref" (options.mask (scope.offers attrs wanted)) with
  | .literal => return .literal (← Choose.uniform (literalName wanted) (scope.literalsOf wanted))
  | .attr => return .attr (← scope.subjects.draw attrs wanted)
  | .synonym => return .synonym (← Choose.uniform "prog_line synonym" (scope.linesOf wanted))

/-- Draws an equation.  The first side is free, and the second has its type. -/
def draw (scope : EquationScope) (weights attrs : List UInt32) : Choose σ Clause := do
  let left ← scope.drawSide (scope.firstWeights weights) attrs none
  let right ← scope.drawSide (weightsOf weights) attrs (some left.valueType)
  return .equation left right

end EquationScope

end QuerySynth
