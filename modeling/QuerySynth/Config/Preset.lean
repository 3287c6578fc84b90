import QuerySynth.Config.Basic
import QuerySynth.Grammar.Clause

/-!
# Presets

A preset is a pair: the select half fixes the shape of results and shrinks the
run, the family half narrows the clause weights.  A preset without a select
half changes nothing.
-/

namespace QuerySynth

/-- The shapes of results a preset can fix. -/
inductive SelectPreset where
  | none
  | boolean
  | tuple
  | single
  deriving DecidableEq, Repr

namespace SelectPreset

/-- Every select half, by index. -/
def all : List SelectPreset := [.none, .boolean, .tuple, .single]

/-- The select half with an index. -/
def ofIndex (index : UInt8) : Except SettingError SelectPreset :=
  match all[index.toNat]? with
  | some preset => .ok preset
  | Option.none => .error (.selectPreset index)

/-- What a select half replaces. -/
structure Change where
  label : String
  result : List UInt32
  tuple : Option (List UInt32) := Option.none
  deriving DecidableEq, Repr

/-- What a select half replaces, if it does anything. -/
def change? : SelectPreset → Option Change
  | .none => Option.none
  | .boolean => some { label := "BOOLEAN SELECT", result := [0, 1] }
  | .tuple => some { label := "tuple SELECT", result := [1, 0], tuple := some [0, 1] }
  | .single => some { label := "single SELECT", result := [1, 0], tuple := some [1, 0] }

example : all.map change? =
    [Option.none,
      some ⟨"BOOLEAN SELECT", [0, 1], Option.none⟩,
      some ⟨"tuple SELECT", [1, 0], some [0, 1]⟩,
      some ⟨"single SELECT", [1, 0], some [1, 0]⟩] := rfl

end SelectPreset

/-- The narrowings of clauses. -/
inductive FamilyPreset where
  /-- Every family, without parent and follows relations and without assign
  patterns. -/
  | iterationMix
  /-- One relation, in its starred form if it has one and that is asked for. -/
  | relation (named : Relation) (starred : Bool)
  /-- One kind of pattern. -/
  | pattern (kind : PatternKind)
  /-- Equations only. -/
  | equation
  deriving DecidableEq, Repr

namespace FamilyPreset

/-- Every family half, by index. -/
def all : List FamilyPreset :=
  [.iterationMix,
    .relation .follows false, .relation .follows true,
    .relation .parent false, .relation .parent true,
    .relation .calls false, .relation .calls true,
    .relation .uses false,
    .relation .modifies false,
    .relation .next false, .relation .next true,
    .relation .affects false, .relation .affects true,
    .pattern .assign, .pattern .ifStmt, .pattern .whileStmt,
    .equation]

/-- The family half with an index. -/
def ofIndex (index : UInt8) : Except SettingError FamilyPreset :=
  match all[index.toNat]? with
  | some preset => .ok preset
  | none => .error (.familyPreset index)

/-- What a family half replaces. -/
structure Change where
  label : String
  clauseFamily : Option (List UInt32) := none
  relation : Option (List UInt32) := none
  transitive : Option (List UInt32) := none
  pattern : Option (List UInt32) := none
  deriving DecidableEq, Repr

/-- Weight one for one option of a list and zero for the others. -/
def only {α : Type} [BEq α] (options : List α) (option : α) : List UInt32 :=
  options.map fun other => if other == option then 1 else 0

/-- The label of a relation half: a relation with a transitive form is named by
its text, the others by the two forms that they have. -/
def relationLabel (named : Relation) (starred : Bool) : String :=
  if named.hasTransitive then named.text ++ (if starred then "*" else "")
  else named.text ++ "P/S"

/-- What a family half replaces. -/
def change : FamilyPreset → Change
  | .iterationMix =>
      { label := "iter2 queries"
        relation := some [1, 1, 1, 0, 0, 1, 1]
        pattern := some [0, 1, 1] }
  | .relation named starred =>
      { label := relationLabel named starred
        clauseFamily := some (only ClauseFamily.all .suchThat)
        relation := some (only Relation.all named)
        transitive := if named.hasTransitive then some (only [false, true] starred) else none }
  | .pattern kind =>
      { label := "pattern " ++ kind.entity.keyword
        clauseFamily := some (only ClauseFamily.all .pattern)
        pattern := some (only PatternKind.all kind) }
  | .equation =>
      { label := "with"
        clauseFamily := some (only ClauseFamily.all .equation) }

-- by index: the label, and the weights of families, relations, plain and starred, patterns
example : all.map change =
    [⟨"iter2 queries", none, some [1, 1, 1, 0, 0, 1, 1], none, some [0, 1, 1]⟩,
      ⟨"Follows", some [1, 0, 0], some [0, 0, 0, 0, 1, 0, 0], some [1, 0], none⟩,
      ⟨"Follows*", some [1, 0, 0], some [0, 0, 0, 0, 1, 0, 0], some [0, 1], none⟩,
      ⟨"Parent", some [1, 0, 0], some [0, 0, 0, 1, 0, 0, 0], some [1, 0], none⟩,
      ⟨"Parent*", some [1, 0, 0], some [0, 0, 0, 1, 0, 0, 0], some [0, 1], none⟩,
      ⟨"Calls", some [1, 0, 0], some [0, 0, 1, 0, 0, 0, 0], some [1, 0], none⟩,
      ⟨"Calls*", some [1, 0, 0], some [0, 0, 1, 0, 0, 0, 0], some [0, 1], none⟩,
      ⟨"UsesP/S", some [1, 0, 0], some [0, 1, 0, 0, 0, 0, 0], none, none⟩,
      ⟨"ModifiesP/S", some [1, 0, 0], some [1, 0, 0, 0, 0, 0, 0], none, none⟩,
      ⟨"Next", some [1, 0, 0], some [0, 0, 0, 0, 0, 1, 0], some [1, 0], none⟩,
      ⟨"Next*", some [1, 0, 0], some [0, 0, 0, 0, 0, 1, 0], some [0, 1], none⟩,
      ⟨"Affects", some [1, 0, 0], some [0, 0, 0, 0, 0, 0, 1], some [1, 0], none⟩,
      ⟨"Affects*", some [1, 0, 0], some [0, 0, 0, 0, 0, 0, 1], some [0, 1], none⟩,
      ⟨"pattern assign", some [0, 0, 1], none, none, some [1, 0, 0]⟩,
      ⟨"pattern if", some [0, 0, 1], none, none, some [0, 1, 0]⟩,
      ⟨"pattern while", some [0, 0, 1], none, none, some [0, 0, 1]⟩,
      ⟨"with", some [0, 1, 0], none, none, none⟩] := by
  decide

end FamilyPreset

/-- A select half and a family half. -/
structure Preset where
  select : SelectPreset := .none
  family : FamilyPreset := .iterationMix
  deriving DecidableEq, Repr

namespace Preset

/-- The preset with a pair of indices; a fault of the select half comes first. -/
def ofIndices (select family : UInt8) : Except SettingError Preset := do
  return ⟨← SelectPreset.ofIndex select, ← FamilyPreset.ofIndex family⟩

/-- Whether the preset changes anything. -/
def isActive (preset : Preset) : Bool := preset.select != .none

/-- The comment on every query of an active preset. -/
def comment? (preset : Preset) : Option String :=
  preset.select.change?.map fun change => change.label ++ " - " ++ preset.family.change.label

/-- The active presets are those that write a comment. -/
theorem isActive_eq_isSome_comment? (preset : Preset) :
    preset.isActive = preset.comment?.isSome := by
  obtain ⟨select, family⟩ := preset
  cases select <;> rfl

/-- The configuration under a preset. -/
def apply (preset : Preset) (base : Config) : Config :=
  match preset.select.change? with
  | none => base
  | some select =>
      let family := preset.family.change
      { base with
        numQueries := 20
        lenQueries := 2
        pools := { base.pools with standard := 5 }
        idenLen := 2
        andLimit := 2
        comment := select.label ++ " - " ++ family.label
        weights :=
          { base.weights with
            result := select.result
            tuple := select.tuple.getD base.weights.tuple
            clauseFamily := family.clauseFamily.getD base.weights.clauseFamily
            relation := family.relation.getD base.weights.relation
            transitive := family.transitive.getD base.weights.transitive
            pattern := family.pattern.getD base.weights.pattern } }

end Preset

end QuerySynth
