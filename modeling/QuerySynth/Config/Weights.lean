/-!
# Weight groups

Every decision of the grammar has a group of weights, one weight per option.
The groups are listed here in the order in which they are checked and reported.
-/

namespace QuerySynth

/-- The decisions that have weights. -/
inductive WeightGroup where
  /-- Tuple, truth value. -/
  | result
  /-- Single element, bracketed tuple. -/
  | tuple
  /-- Synonym, attribute reference. -/
  | elem
  /-- Such-that, with, pattern. -/
  | clauseFamily
  /-- The seven relations. -/
  | relation
  /-- Plain, transitive. -/
  | transitive
  /-- Literal, attribute reference, synonym. -/
  | withRef
  /-- The four attributes. -/
  | attrName
  /-- Assign, if, while. -/
  | pattern
  deriving DecidableEq, Repr

namespace WeightGroup

/-- Every group, in order. -/
def all : List WeightGroup :=
  [.result, .tuple, .elem, .clauseFamily, .relation, .transitive, .withRef, .attrName, .pattern]

/-- The name of a group in configuration files and messages. -/
def name : WeightGroup → String
  | .result => "result"
  | .tuple => "tuple"
  | .elem => "elem"
  | .clauseFamily => "clause_family"
  | .relation => "relation"
  | .transitive => "transitive"
  | .withRef => "with_ref"
  | .attrName => "attr_name"
  | .pattern => "pattern"

/-- The number of options of a group. -/
def arity : WeightGroup → Nat
  | .result | .tuple | .elem | .transitive => 2
  | .clauseFamily | .withRef | .pattern => 3
  | .attrName => 4
  | .relation => 7

theorem mem_all (group : WeightGroup) : group ∈ all := by cases group <;> decide

end WeightGroup

/-- One entry for every weight group. -/
structure PerGroup (α : Type) where
  result : α
  tuple : α
  elem : α
  clauseFamily : α
  relation : α
  transitive : α
  withRef : α
  attrName : α
  pattern : α
  deriving DecidableEq, Repr

namespace PerGroup

variable {α β : Type}

/-- The entry of a group. -/
def get (table : PerGroup α) : WeightGroup → α
  | .result => table.result
  | .tuple => table.tuple
  | .elem => table.elem
  | .clauseFamily => table.clauseFamily
  | .relation => table.relation
  | .transitive => table.transitive
  | .withRef => table.withRef
  | .attrName => table.attrName
  | .pattern => table.pattern

/-- The table of a function. -/
def ofFn (entry : WeightGroup → α) : PerGroup α :=
  ⟨entry .result, entry .tuple, entry .elem, entry .clauseFamily, entry .relation,
    entry .transitive, entry .withRef, entry .attrName, entry .pattern⟩

/-- The table of a computation run once for every group, in order. -/
def generate {m : Type → Type} [Monad m] (entry : WeightGroup → m α) : m (PerGroup α) := do
  let result ← entry .result
  let tuple ← entry .tuple
  let elem ← entry .elem
  let clauseFamily ← entry .clauseFamily
  let relation ← entry .relation
  let transitive ← entry .transitive
  let withRef ← entry .withRef
  let attrName ← entry .attrName
  let pattern ← entry .pattern
  return ⟨result, tuple, elem, clauseFamily, relation, transitive, withRef, attrName, pattern⟩

/-- Takes the entries of a second table where it has any. -/
def override (base : PerGroup α) (changes : PerGroup (Option α)) : PerGroup α :=
  ofFn fun group => (changes.get group).getD (base.get group)

/-- No entry for any group. -/
def none : PerGroup (Option α) := ofFn fun _ => Option.none

@[simp]
theorem get_ofFn (entry : WeightGroup → α) (group : WeightGroup) :
    (ofFn entry).get group = entry group := by
  cases group <;> rfl

@[simp]
theorem get_none (group : WeightGroup) : (none : PerGroup (Option α)).get group = .none := by
  simp [none]

theorem get_override (base : PerGroup α) (changes : PerGroup (Option α)) (group : WeightGroup) :
    (base.override changes).get group = (changes.get group).getD (base.get group) := by
  simp [override]

@[ext]
theorem ext_get {a b : PerGroup α} (h : ∀ group, a.get group = b.get group) : a = b := by
  cases a
  cases b
  simp only [mk.injEq]
  exact ⟨h .result, h .tuple, h .elem, h .clauseFamily, h .relation, h .transitive, h .withRef,
    h .attrName, h .pattern⟩

end PerGroup

/-- The weights of every group; the lists may have any length until checked. -/
abbrev Weights := PerGroup (List UInt32)

namespace Weights

/-- The weights in force when nothing else is said. -/
def standard : Weights where
  result := [4, 1]
  tuple := [1, 3]
  elem := [1, 1]
  clauseFamily := [1, 1, 1]
  relation := [1, 1, 1, 1, 1, 1, 1]
  transitive := [1, 1]
  withRef := [1, 1, 1]
  attrName := [1, 1, 1, 1]
  pattern := [1, 1, 1]

/-- The exact sum of a list of weights. -/
def sum : List UInt32 → Nat
  | [] => 0
  | weight :: rest => weight.toNat + sum rest

/-- The sum of two weights, unless it is too large for a weight. -/
def add? (a b : UInt32) : Option UInt32 :=
  if a.toNat + b.toNat < UInt32.size then some (a + b) else none

/-- Adds up a list of weights from the left, and stops at the first sum that is too large for
a weight. -/
def addUp? (weights : List UInt32) : Option UInt32 := weights.foldlM add? 0

end Weights

end QuerySynth
