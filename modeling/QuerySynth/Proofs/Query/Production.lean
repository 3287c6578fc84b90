import QuerySynth.Proofs.Generate.Equation
import QuerySynth.Proofs.Generate.Query

/-!
# Weights of zero

A query shows which options were chosen for it: the productions that it was made
of.  Every one of them has a positive weight in its group, so a weight of zero
keeps its option out of all queries.

There is one exception.  Where no literals are supplied, their weight goes to line
numbers on the first side of an equation, and then a line number can stand there
although its own weight is zero.
-/

namespace QuerySynth

open Draw

/-- A choice that can be read off a query. -/
inductive Production where
  /-- Any elements at all, or a truth value. -/
  | result (shape : Side)
  /-- A single element, or a bracketed tuple. -/
  | tuple (shape : Side)
  /-- A bare synonym in the result, or an attribute. -/
  | elem (kind : Side)
  | family (chosen : ClauseFamily)
  | relation (chosen : Relation)
  /-- The form of a relation that has two. -/
  | form (transitive : Bool)
  /-- What stands left in an equation. -/
  | firstSide (side : WithRef)
  /-- What stands right in an equation. -/
  | secondSide (side : WithRef)
  | attr (chosen : AttrName)
  | pattern (kind : PatternKind)

namespace Production

/-- The group that the choice was made in. -/
def group : Production → WeightGroup
  | .result _ => .result
  | .tuple _ => .tuple
  | .elem _ => .elem
  | .family _ => .clauseFamily
  | .relation _ => .relation
  | .form _ => .transitive
  | .firstSide _ => .withRef
  | .secondSide _ => .withRef
  | .attr _ => .attrName
  | .pattern _ => .pattern

/-- The place of the option in its group. -/
def place : Production → Nat
  | .result shape => shape.ctorIdx
  | .tuple shape => shape.ctorIdx
  | .elem kind => kind.ctorIdx
  | .family chosen => chosen.ctorIdx
  | .relation chosen => chosen.ctorIdx
  | .form transitive => transitive.toNat
  | .firstSide side => (WithRefKind.ofRef side).ctorIdx
  | .secondSide side => (WithRefKind.ofRef side).ctorIdx
  | .attr chosen => chosen.ctorIdx
  | .pattern kind => kind.ctorIdx

/-- The weight of the option in its group. -/
def weight (production : Production) (weights : Weights) : UInt32 :=
  (weights.get production.group).getD production.place 0

/-- The exception: a line number on the first side, chosen with the weight of
literals where none are supplied. -/
def Displaced (production : Production) (setup : Setup) : Prop :=
  ∃ line, production = .firstSide (.synonym line) ∧ line.kind = .progLine ∧
    setup.literals.isEmpty = true ∧ 0 < setup.config.weights.withRef.getD 0 0

end Production

/-! ## The productions of a query -/

/-- The kind of the element, and its attribute if it has one. -/
def Elem.productions : Elem → List Production
  | .synonym _ => [.elem .first]
  | .attr ref => [.elem .second, .attr ref.attr]

/-- The shape of the result, then its elements. -/
def SelectResult.productions : SelectResult → List Production
  | .boolean => [.result .second]
  | .single elem => .result .first :: .tuple .first :: elem.productions
  | .tuple elems => .result .first :: .tuple .second :: elems.flatMap Elem.productions

/-- The kind of the clause and of its sides, and the attributes on them. -/
def Clause.productions : Clause → List Production
  | .suchThat relation transitive _ _ =>
      .relation relation :: if relation.hasTransitive then [.form transitive] else []
  | .equation left right =>
      .firstSide left :: .secondSide right ::
        (Clause.equation left right).attrRefs.map fun ref => .attr ref.attr
  | .pattern kind _ _ => [.pattern kind]

/-- The family of the chain, then its clauses. -/
def ClauseChain.productions (chain : ClauseChain) : List Production :=
  .family chain.family :: chain.clauses.flatMap Clause.productions

/-- Every choice of the query from left to right. -/
def Query.productions (query : Query) : List Production :=
  query.select.productions ++ query.chains.flatMap ClauseChain.productions

/-! ## Admitted parts have positive weights -/

theorem AttrSubjects.Admits.weight_pos {subjects : AttrSubjects} {weights : Weights}
    {wanted : Option ValueType} {ref : AttrRef}
    (h : subjects.Admits weights.attrName wanted ref) :
    0 < (Production.attr ref.attr).weight weights :=
  (Options.possible_ofWeights_iff (by decide) ref.attr.getElem?_all).mp h.possible

/-- An attribute on a side of an equation has a positive weight. -/
theorem EquationScope.Candidate.weight_pos_of_attr? {scope : EquationScope} {weights : Weights}
    {wanted : Option ValueType} {side : WithRef} {ref : AttrRef}
    (h : scope.Candidate weights.attrName wanted side) (href : ref ∈ side.attr?) :
    0 < (Production.attr ref.attr).weight weights := by
  cases side with
  | literal operand => cases href
  | attr only =>
      cases href
      exact AttrSubjects.Admits.weight_pos h
  | synonym line => cases href

namespace Setup

variable {setup : Setup} {declared : Declarations} {production : Production}

theorem weight_pos_of_admitsElem {synonyms : List Synonym} {subjects : AttrSubjects} {elem : Elem}
    (h : setup.selectWeights.AdmitsElem synonyms subjects elem)
    (hproduction : production ∈ elem.productions) :
    0 < production.weight setup.config.weights := by
  cases elem with
  | synonym s =>
      rw [List.mem_singleton.mp hproduction]
      exact Side.pos_of_possible h.1
  | attr ref =>
      rcases List.mem_pair.mp hproduction with rfl | rfl
      · exact Side.pos_of_possible h.1
      · exact h.2.weight_pos

theorem weight_pos_of_admitsResult {limit : Nat} {synonyms : List Synonym}
    {subjects : AttrSubjects} {result : SelectResult}
    (h : setup.selectWeights.AdmitsResult limit synonyms subjects result)
    (hproduction : production ∈ result.productions) :
    0 < production.weight setup.config.weights := by
  cases result with
  | boolean =>
      rw [List.mem_singleton.mp hproduction]
      exact Side.pos_of_possible h
  | single elem =>
      obtain ⟨hresult, htuple, helem⟩ := h
      rcases List.mem_cons.mp hproduction with rfl | hproduction
      · exact Side.pos_of_possible hresult
      rcases List.mem_cons.mp hproduction with rfl | hproduction
      · exact Side.pos_of_possible htuple
      · exact weight_pos_of_admitsElem helem hproduction
  | tuple elems =>
      obtain ⟨hresult, htuple, -, helems⟩ := h
      rcases List.mem_cons.mp hproduction with rfl | hproduction
      · exact Side.pos_of_possible hresult
      rcases List.mem_cons.mp hproduction with rfl | hproduction
      · exact Side.pos_of_possible htuple
      · obtain ⟨elem, helem, hproduction⟩ := List.mem_flatMap.mp hproduction
        exact weight_pos_of_admitsElem (helems elem helem) hproduction

theorem weight_pos_of_familyPossible {family : ClauseFamily} (h : setup.FamilyPossible family) :
    0 < (Production.family family).weight setup.config.weights :=
  (Options.possible_ofWeights_iff (by decide) family.getElem?_all).mp h

theorem weight_pos_of_admits_first {attrs : List UInt32} {wanted : Option ValueType}
    {side : WithRef}
    (h : (EquationScope.ofDeclarations declared setup.literals).Admits
      ((EquationScope.ofDeclarations declared setup.literals).firstWeights
        setup.config.weights.withRef) attrs wanted side) :
    0 < (Production.firstSide side).weight setup.config.weights ∨
      (Production.firstSide side).Displaced setup := by
  rcases EquationScope.pos_of_possible_firstWeights h.possible with hpos | ⟨hkind, hnone, hpos⟩
  · exact .inl hpos
  -- the moved weight: the side is a line number, and nothing is supplied
  · cases side with
    | literal operand => cases hkind
    | attr ref => cases hkind
    | synonym line =>
        have hline := EquationScope.mem_lines_of_mem_linesOf h.candidate
        exact .inr ⟨line, rfl, (EquationScope.mem_lines hline).1,
          EquationScope.literals_eq_nil_iff.mp hnone, hpos⟩

/-- The productions of an admitted clause have positive weights, but for a line
number with the weight of absent literals. -/
theorem weight_pos_of_admitsClause {clause : Clause} (h : setup.AdmitsClause declared clause)
    (hproduction : production ∈ clause.productions) :
    0 < production.weight setup.config.weights ∨ production.Displaced setup := by
  cases clause with
  | suchThat relation transitive left right =>
      refine .inl ?_
      rcases List.mem_cons.mp hproduction with rfl | hform
      · exact (Options.possible_ofWeights_iff (by decide) relation.getElem?_all).mp h.possible
      · by_cases hboth : relation.hasTransitive = true
        · have hpossible := h.form
          rw [if_pos hboth] at hform hpossible
          rw [List.mem_singleton.mp hform]
          have hplace : [false, true][transitive.toNat]? = some transitive := by
            cases transitive <;> rfl
          exact (Options.possible_ofWeights_iff (by decide) hplace).mp hpossible
        · rw [if_neg hboth] at hform
          cases hform
  | equation left right =>
      obtain ⟨hleft, hright⟩ := h
      rcases List.mem_cons.mp hproduction with rfl | hproduction
      · exact weight_pos_of_admits_first hleft
      rcases List.mem_cons.mp hproduction with rfl | hproduction
      · exact .inl (EquationScope.possible_weightsOf_iff.mp hright.possible)
      · obtain ⟨ref, href, rfl⟩ := List.mem_map.mp hproduction
        rcases List.mem_append.mp href with href | href
        · exact .inl (hleft.candidate.weight_pos_of_attr? (Option.mem_toList.mp href))
        · exact .inl (hright.candidate.weight_pos_of_attr? (Option.mem_toList.mp href))
  | pattern kind entity lhs =>
      rw [List.mem_singleton.mp hproduction]
      exact .inl ((Options.possible_ofWeights_iff (by decide) kind.getElem?_all).mp h.possible)

variable {σ : Type} [WordSource σ]

/-- An option of weight zero does not occur in a drawn query, except for a line
number on the first side of an equation that took the weight of absent literals. -/
theorem drawQuery_weight_pos {index : Nat} {query : Query} {s t : σ}
    (h : (setup.drawQuery index).run s = some (.ok query, t)) :
    ∀ production ∈ query.productions,
      0 < production.weight setup.config.weights ∨ production.Displaced setup := by
  have hadmits := (succeeds_drawQuery (succeeds_of_run h)).2
  intro production hproduction
  rcases List.mem_append.mp hproduction with hproduction | hproduction
  · exact .inl (weight_pos_of_admitsResult hadmits.select hproduction)
  obtain ⟨chain, hchain, hproduction⟩ := List.mem_flatMap.mp hproduction
  have hchain := hadmits.chains chain hchain
  rcases List.mem_cons.mp hproduction with rfl | hproduction
  · exact .inl (weight_pos_of_familyPossible hchain.possible)
  · obtain ⟨clause, hclause, hproduction⟩ := List.mem_flatMap.mp hproduction
    exact weight_pos_of_admitsClause (hchain.clauses clause hclause) hproduction

/-- One equation, with no weight for line numbers and no literals. -/
def displacedSetup : Setup where
  config :=
    { weights := { Weights.standard with
        result := [0, 1], clauseFamily := [0, 1, 0], withRef := [1, 1, 0] }
      andLimit := 0, lenQueries := 1 }
  pool := ⟨⟨[], ["n"], [], [], [], [], [], [], [], [], ["c"]⟩⟩
  literals := {}

/-- The words of the run. -/
def displacedTape : Tape := tapeOfEighths [0, 0, 0, 0, 0, 4, 0, 4, 0, 0, 0, 0]

/-- The query of the run, `Select BOOLEAN with progn = consc.value`. -/
def displacedQuery : Query where
  index := 1
  comment := "NIL"
  declarations := ⟨⟨[], ["n"], [], [], [], [], [], [], [], [], ["c"]⟩⟩
  select := .boolean
  chains := [⟨.equation,
    [.equation (.synonym ⟨.progLine, "n"⟩) (.attr ⟨⟨.const, "c"⟩, .value⟩)]⟩]
  timeout := "5000"

/-- The exception does happen, beside productions with weights of their own. -/
theorem drawQuery_displaced :
    displacedSetup.config.check = .ok () ∧
      (displacedSetup.drawQuery 1).run displacedTape = some (.ok displacedQuery, ⟨[]⟩) ∧
      (∃ production ∈ displacedQuery.productions,
        production.weight displacedSetup.config.weights = 0) ∧
      ∀ production ∈ displacedQuery.productions,
        0 < production.weight displacedSetup.config.weights ∨
          production.Displaced displacedSetup := by
  have hrun : (displacedSetup.drawQuery 1).run displacedTape = some (.ok displacedQuery, ⟨[]⟩) :=
    rfl
  refine ⟨rfl, hrun, ⟨.firstSide (.synonym ⟨.progLine, "n"⟩), ?_, rfl⟩, drawQuery_weight_pos hrun⟩
  simp [displacedQuery, Query.productions, ClauseChain.productions, Clause.productions]

end Setup

end QuerySynth
