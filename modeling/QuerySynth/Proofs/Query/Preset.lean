import QuerySynth.Proofs.Config.Preset
import QuerySynth.Proofs.Generate.Query
import QuerySynth.Proofs.Reading.Clause

/-!
# Queries under a preset

A preset with a select half governs every query drawn under it: the comment, the
shape of the result, the number of chains and of clauses, and what the clauses may
be.  None of this depends on the configuration that the preset was applied to.
-/

namespace QuerySynth

open Draw

/-! ## What a preset asks of a query -/

/-- The text of the result stands in angle brackets. -/
def SelectResult.Bracketed (result : SelectResult) : Prop :=
  ∃ inner, result.render = "<" ++ inner ++ ">"

/-- The result has the shape of the select half. -/
def SelectPreset.Shapes : SelectPreset → SelectResult → Prop
  | .none, _ => True
  | .boolean, result => result = .boolean
  | .tuple, result => (∃ elems, result = .tuple elems) ∧ result.Bracketed
  | .single, result => (∃ elem, result = .single elem) ∧ ¬ result.Bracketed

/-- The clause is one of those that the family half leaves.  A star that is asked
for is put on a relation that can have it. -/
def FamilyPreset.Allows : FamilyPreset → Clause → Prop
  | .iterationMix, .suchThat chosen _ _ _ => chosen ≠ .parent ∧ chosen ≠ .follows
  | .iterationMix, .equation _ _ => True
  | .iterationMix, .pattern kind _ _ => kind ≠ .assign
  | .relation named starred, clause =>
      ∃ left right, clause = .suchThat named (starred && named.hasTransitive) left right
  | .pattern kind, clause => ∃ entity lhs, clause = .pattern kind entity lhs
  | .equation, clause => ∃ left right, clause = .equation left right

/-- The query is as the preset has it. -/
structure Preset.Governs (preset : Preset) (query : Query) : Prop where
  comment_eq : preset.comment? = some query.comment
  select : preset.select.Shapes query.select
  chains_length : query.chains.length ≤ 2
  chain_length : ∀ chain ∈ query.chains, chain.clauses.length ≤ 3
  clauses : ∀ chain ∈ query.chains, ∀ clause ∈ chain.clauses, preset.family.Allows clause

/-! ## Results -/

namespace SelectResult

theorem bracketed_tuple (elems : List Elem) : (tuple elems).Bracketed := ⟨_, rfl⟩

/-- The text of an element opens with a letter. -/
theorem not_bracketed_single (elem : Elem) : ¬ (single elem).Bracketed := by
  rintro ⟨inner, hrender⟩
  have hopening : Opening.Of ("<" ++ inner ++ ">").toList .other := by
    rw [String.append_assoc, String.toList_append]
    rfl
  cases elem.opening_render.unique hopening (congrArg (·.toList ++ []) hrender)

end SelectResult

/-- A result that is admitted by the lists of a select half has its shape. -/
theorem SelectPreset.shapes_of_admitsResult {preset : SelectPreset} {change : Change}
    {weights : Weights} {elem attrName : List UInt32} {limit : Nat} {synonyms : List Synonym}
    {subjects : AttrSubjects} {result : SelectResult} (hchange : preset.change? = some change)
    (hfixes : change.Fixes weights)
    (h : SelectWeights.AdmitsResult ⟨weights.result, weights.tuple, elem, attrName⟩ limit synonyms
      subjects result) : preset.Shapes result := by
  -- an option of a list that the half fixes has the weight listed there
  have hresult : ∀ {side}, Side.Possible weights.result side →
      0 < change.result.getD side.ctorIdx 0 := by
    intro side hside
    rw [hfixes.result] at hside
    exact Side.pos_of_possible hside
  have htuple : ∀ {list side}, list ∈ change.tuple → Side.Possible weights.tuple side →
      0 < list.getD side.ctorIdx 0 := by
    intro list side hlist hside
    rw [hfixes.tuple list hlist] at hside
    exact Side.pos_of_possible hside
  cases preset with
  | none => cases hchange
  | boolean =>
      cases hchange
      cases result with
      | boolean => exact rfl
      | single only => exact absurd (hresult h.1) (by decide)
      | tuple elems => exact absurd (hresult h.1) (by decide)
  | tuple =>
      cases hchange
      cases result with
      | boolean => exact absurd (hresult h) (by decide)
      | single only => exact absurd (htuple rfl h.2.1) (by decide)
      | tuple elems => exact ⟨⟨elems, rfl⟩, SelectResult.bracketed_tuple elems⟩
  | single =>
      cases hchange
      cases result with
      | boolean => exact absurd (hresult h) (by decide)
      | single only => exact ⟨⟨only, rfl⟩, SelectResult.not_bracketed_single only⟩
      | tuple elems => exact absurd (htuple rfl h.2.1) (by decide)

/-! ## Clauses -/

namespace Setup

variable {setup : Setup} {declared : Declarations} {family : FamilyPreset}

/-- Where the family half singles out a family of clauses, there is no other. -/
theorem family_eq_of_fixes {chosen only : ClauseFamily}
    (hfixes : family.change.Fixes setup.config.weights)
    (honly : family.change.clauseFamily = some (FamilyPreset.only ClauseFamily.all only))
    (h : setup.FamilyPossible chosen) : chosen = only := by
  rw [FamilyPossible, hfixes.clauseFamily _ honly] at h
  exact FamilyPreset.eq_of_possible_only h

/-- A clause that is admitted by the lists of a family half is one that the half
allows. -/
theorem allows_of_admitsClause {clause : Clause}
    (hfixes : family.change.Fixes setup.config.weights)
    (hfamily : setup.FamilyPossible clause.family) (h : setup.AdmitsClause declared clause) :
    family.Allows clause := by
  cases family with
  | iterationMix =>
      cases clause with
      | suchThat relation transitive left right =>
          have hpossible := h.possible
          rw [hfixes.relation _ rfl,
            Options.possible_ofWeights_iff (by decide) relation.getElem?_all] at hpossible
          refine ⟨?_, ?_⟩
          · rintro rfl
            exact absurd hpossible (by decide)
          · rintro rfl
            exact absurd hpossible (by decide)
      | equation left right => exact trivial
      | pattern kind entity lhs =>
          have hpossible := h.possible
          rw [hfixes.pattern _ rfl,
            Options.possible_ofWeights_iff (by decide) kind.getElem?_all] at hpossible
          rintro rfl
          exact absurd hpossible (by decide)
  | relation named starred =>
      have hsuchThat := family_eq_of_fixes hfixes rfl hfamily
      cases clause with
      | equation left right => cases hsuchThat
      | pattern kind entity lhs => cases hsuchThat
      | suchThat relation transitive left right =>
          have hpossible := h.possible
          rw [hfixes.relation _ rfl] at hpossible
          cases FamilyPreset.eq_of_possible_only hpossible
          refine ⟨left, right, ?_⟩
          have hform := h.form
          by_cases hboth : named.hasTransitive = true
          · rw [if_pos hboth, hfixes.transitive _ (if_pos hboth)] at hform
            rw [FamilyPreset.eq_of_possible_only hform, hboth, Bool.and_true]
          · rw [if_neg hboth] at hform
            rw [hform, eq_false_of_ne_true hboth, Bool.and_false]
  | pattern only =>
      have hpattern := family_eq_of_fixes hfixes rfl hfamily
      cases clause with
      | suchThat relation transitive left right => cases hpattern
      | equation left right => cases hpattern
      | pattern kind entity lhs =>
          have hpossible := h.possible
          rw [hfixes.pattern _ rfl] at hpossible
          cases FamilyPreset.eq_of_possible_only hpossible
          exact ⟨entity, lhs, rfl⟩
  | equation =>
      have hequation := family_eq_of_fixes hfixes rfl hfamily
      cases clause with
      | suchThat relation transitive left right => cases hequation
      | equation left right => exact ⟨left, right, rfl⟩
      | pattern kind entity lhs => cases hequation

end Setup

/-! ## Queries -/

namespace Preset

variable {preset : Preset} {base : Config} {pool : Pool} {literals : Literals} {σ : Type}
  [WordSource σ]

/-- Every query drawn under a preset with a select half is governed by it, whatever
the configuration below it had in its weights and limits. -/
theorem drawQuery_governed (hselect : preset.select ≠ .none) {index : Nat} {query : Query}
    {s t : σ}
    (h : (Setup.drawQuery ⟨preset.apply base, pool, literals⟩ index).run s =
      some (.ok query, t)) :
    preset.Governs query := by
  obtain ⟨change, hchange⟩ := SelectPreset.exists_change? hselect
  have hadmits := (Setup.succeeds_drawQuery (succeeds_of_run h)).2
  refine ⟨?_, ?_, ?_, ?_, ?_⟩
  · rw [hadmits.comment_eq]
    exact comment?_apply hchange
  · exact SelectPreset.shapes_of_admitsResult hchange (select_fixes_apply hchange) hadmits.select
  · have hlength := hadmits.chains_length
    rwa [lenQueries_apply hchange] at hlength
  · intro chain hchain
    have hlength := (hadmits.chains chain hchain).length_le
    rwa [andLimit_apply hchange] at hlength
  · intro chain hchain clause hclause
    have hchain := hadmits.chains chain hchain
    refine Setup.allows_of_admitsClause (family_fixes_apply hchange) ?_
      (hchain.clauses clause hclause)
    rw [hchain.family_eq clause hclause]
    exact hchain.possible

/-- Tuples over `Follows*`, applied to a configuration without tuples, without
`Follows` and without stars. -/
def starredSetup : Setup where
  config := apply ⟨.tuple, .relation .follows true⟩
    { weights := { Weights.standard with
        result := [0, 9], tuple := [9, 0], clauseFamily := [0, 9, 9],
        relation := [9, 9, 9, 9, 0, 9, 9], transitive := [9, 0] }
      lenQueries := 9
      comment := "contrary" }
  pool := ⟨⟨[], [], ["x"], [], [], [], [], [], [], [], []⟩⟩
  literals := {}

/-- The words of the run. -/
def starredTape : Tape :=
  Setup.tapeOfEighths [0, 0, 0, 0, 0, 0, 0, 3, 0, 0, 0, 0, 4, 7]

/-- The query of the run, `Select <sx> such that Follows*(sx, _)`. -/
def starredQuery : Query where
  index := 1
  comment := "tuple SELECT - Follows*"
  declarations := ⟨⟨[], [], ["x"], [], [], [], [], [], [], [], []⟩⟩
  select := .tuple [.synonym ⟨.stmt, "x"⟩]
  chains := [⟨.suchThat, [.suchThat .follows true (.synonym ⟨.stmt, "x"⟩) .wildcard]⟩]
  timeout := "5000"

theorem drawQuery_starred :
    (starredSetup.drawQuery 1).run starredTape = some (.ok starredQuery, ⟨[]⟩) := rfl

theorem drawQuery_starred_governed :
    starredSetup.config.check = .ok () ∧
      (starredSetup.drawQuery 1).run starredTape = some (.ok starredQuery, ⟨[]⟩) ∧
      Governs ⟨.tuple, .relation .follows true⟩ starredQuery :=
  ⟨rfl, drawQuery_starred, drawQuery_governed (by decide) drawQuery_starred⟩

end Preset

end QuerySynth
