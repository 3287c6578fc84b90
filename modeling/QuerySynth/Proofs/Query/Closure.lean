import QuerySynth.Proofs.Generate.Equation
import QuerySynth.Proofs.Generate.Query

/-!
# Queries mention only what they declare

Every synonym of a drawn query is declared in it and named in the pool of its own
kind, and every literal is one of those supplied.

* `Scope.Covers` says so of one operand; every list of operands of a scope is
  covered, one lemma for each list, in the order of their definitions.
* The sides of equations come from lists of their own and are treated apart.
* Nothing depends on weights, limits or the check of the configuration.
-/

namespace QuerySynth

open Draw

/-! ## Occurrences -/

/-- The operand on a side of an equation. -/
def WithRef.operand? : WithRef → Option Operand
  | .literal operand => some operand
  | _ => none

/-- Every operand of a clause, literals of an equation included. -/
def Clause.operands : Clause → List Operand
  | .suchThat _ _ left right => [left, right]
  | .equation left right => left.operand?.toList ++ right.operand?.toList
  | .pattern _ _ lhs => [lhs]

namespace Query

/-- The clauses of all chains. -/
def clauses (query : Query) : List Clause := query.chains.flatMap ClauseChain.clauses

/-- Every synonym that a query mentions behind its declarations: the subjects of
its elements, the synonyms of its clauses, and any synonym inside an operand. -/
def mentioned (query : Query) : List Synonym :=
  query.select.elems.map Elem.subject ++ query.clauses.flatMap Clause.synonyms ++
    (query.clauses.flatMap Clause.operands).filterMap Operand.synonym?

/-- Synonyms are declared and in the pool of their kind, kinds without names are
absent, and literals are supplied, constants in equations only. -/
structure Closed (query : Query) (pool : Pool) (literals : Literals) : Prop where
  declared : ∀ s ∈ query.mentioned, query.declarations.contains s = true
  pooled : ∀ s ∈ query.mentioned, s.name ∈ pool.names.get s.kind
  absent : ∀ kind, pool.names.get kind = [] →
    query.declarations.ofKind kind = [] ∧ ∀ s ∈ query.mentioned, s.kind ≠ kind
  name_supplied : ∀ clause ∈ query.clauses, ∀ text, .name text ∈ clause.operands →
    text ∈ literals.procedureNames ∨ text ∈ literals.variableNames
  integer_supplied : ∀ clause ∈ query.clauses, ∀ text, .integer text ∈ clause.operands →
    clause.family = .equation ∧ text ∈ literals.constants

end Query

/-! ## Operands of a scope -/

namespace Scope

/-- The operand is a declared synonym, a supplied name or the wildcard. -/
def Covers (scope : Scope) : Operand → Prop
  | .synonym s => scope.declared.contains s = true
  | .name text => text ∈ scope.literals.procedureNames ∨ text ∈ scope.literals.variableNames
  | .integer _ => False
  | .wildcard => True

variable {scope : Scope}

theorem covers_append {left right : List Operand} (hleft : ∀ operand ∈ left, scope.Covers operand)
    (hright : ∀ operand ∈ right, scope.Covers operand) :
    ∀ operand ∈ left ++ right, scope.Covers operand :=
  List.forall_mem_append.mpr ⟨hleft, hright⟩

theorem covers_operands (kinds : List Kind) :
    ∀ operand ∈ scope.operands kinds, scope.Covers operand := by
  intro operand h
  obtain ⟨s, hs, rfl⟩ := List.mem_map.mp h
  exact (Declarations.mem_ofKinds.mp hs).2

theorem covers_lines : ∀ operand ∈ scope.lines, scope.Covers operand := by
  unfold lines
  split
  · exact covers_operands _
  · simp

theorem covers_procedureOperands :
    ∀ operand ∈ scope.literals.procedureOperands, scope.Covers operand := by
  intro operand h
  obtain ⟨text, htext, rfl⟩ := List.mem_map.mp h
  exact .inl htext

theorem covers_variableOperands :
    ∀ operand ∈ scope.literals.variableOperands, scope.Covers operand := by
  intro operand h
  obtain ⟨text, htext, rfl⟩ := List.mem_map.mp h
  exact .inr htext

theorem covers_wildcard : ∀ operand ∈ [Operand.wildcard], scope.Covers operand := by
  intro operand h
  rw [List.mem_singleton.mp h]
  exact trivial

theorem covers_actors : ∀ operand ∈ scope.actors, scope.Covers operand :=
  covers_append (covers_append (covers_operands _) covers_lines) covers_procedureOperands

theorem covers_targets : ∀ operand ∈ scope.targets, scope.Covers operand :=
  covers_append (covers_append (covers_operands _) covers_variableOperands) covers_wildcard

theorem covers_procedures : ∀ operand ∈ scope.procedures, scope.Covers operand :=
  covers_append (covers_append (covers_operands _) covers_procedureOperands) covers_wildcard

theorem covers_containers : ∀ operand ∈ scope.containers, scope.Covers operand :=
  covers_append (covers_append (covers_operands _) covers_lines) covers_wildcard

theorem covers_statements : ∀ operand ∈ scope.statements, scope.Covers operand :=
  covers_append covers_containers (covers_operands _)

theorem covers_left (relation : Relation) :
    ∀ operand ∈ scope.left relation, scope.Covers operand := by
  cases relation with
  | modifies => exact covers_append covers_actors (covers_operands _)
  | uses => exact covers_append covers_actors (covers_operands _)
  | calls => exact covers_procedures
  | parent => exact covers_containers
  | follows | next | affects => exact covers_statements

theorem covers_right (relation : Relation) :
    ∀ operand ∈ scope.right relation, scope.Covers operand := by
  cases relation with
  | modifies | uses => exact covers_targets
  | calls => exact covers_procedures
  | parent | follows | next | affects => exact covers_statements

theorem covers_leaders : ∀ operand ∈ scope.leaders, scope.Covers operand := by
  unfold leaders
  split
  · exact covers_wildcard
  · refine covers_append (covers_append (covers_operands _) covers_variableOperands) ?_
    split
    · exact covers_procedureOperands
    · simp

end Scope

/-! ## Clauses and queries of a setup -/

namespace Setup

variable {setup : Setup} {declared : Declarations}

theorem mem_synonym?_toList {operand : Operand} {s : Synonym}
    (h : s ∈ operand.synonym?.toList) : operand = .synonym s := by
  cases operand with
  | synonym other =>
      rw [List.mem_singleton.mp h]
  | name text => cases h
  | integer text => cases h
  | wildcard => cases h

/-- An operand of an admitted clause is covered by the scope, unless it is a
constant of an equation. -/
theorem AdmitsClause.covers {clause : Clause} (h : setup.AdmitsClause declared clause)
    {operand : Operand} (hoperand : operand ∈ clause.operands) :
    (setup.scope declared).Covers operand ∨
      (clause.family = .equation ∧ ∃ text, operand = .integer text ∧
        text ∈ setup.literals.constants) := by
  -- the operand of a side is a literal, and constants are literals of no other place
  have hside : ∀ {side attrs wanted}, side.operand? = some operand →
      (EquationScope.ofDeclarations declared setup.literals).Candidate attrs wanted side →
      (setup.scope declared).Covers operand ∨
        ∃ text, operand = .integer text ∧ text ∈ setup.literals.constants := by
    intro side attrs wanted hside hcandidate
    cases side with
    | literal only =>
        cases hside
        rcases EquationScope.mem_literals (EquationScope.mem_literals_of_mem_literalsOf hcandidate)
          with ⟨text, rfl, htext⟩ | hinteger
        · exact .inl htext
        · exact .inr hinteger
    | attr ref => cases hside
    | synonym line => cases hside
  cases clause with
  | suchThat relation transitive left right =>
      rcases List.mem_cons.mp hoperand with rfl | hoperand
      · exact .inl (Scope.covers_left relation _ h.left_mem)
      · rw [List.mem_singleton.mp hoperand]
        exact .inl (Scope.covers_right relation _ h.right_mem)
  | equation left right =>
      rcases List.mem_append.mp hoperand with hoperand | hoperand
      · exact (hside (Option.mem_toList.mp hoperand) h.1.candidate).imp_right fun hinteger =>
          ⟨rfl, hinteger⟩
      · exact (hside (Option.mem_toList.mp hoperand) h.2.candidate).imp_right fun hinteger =>
          ⟨rfl, hinteger⟩
  | pattern kind entity lhs =>
      rw [List.mem_singleton.mp hoperand]
      exact .inl (Scope.covers_leaders _ h.lhs_mem)

/-- The synonyms of an admitted clause are declared. -/
theorem AdmitsClause.declares {clause : Clause} (h : setup.AdmitsClause declared clause) :
    ∀ s ∈ clause.synonyms, declared.contains s = true := by
  intro s hs
  cases clause with
  | suchThat relation transitive left right =>
      rcases List.mem_append.mp hs with hs | hs
      · have hcovers := Scope.covers_left relation _ h.left_mem
        rw [mem_synonym?_toList hs] at hcovers
        exact hcovers
      · have hcovers := Scope.covers_right relation _ h.right_mem
        rw [mem_synonym?_toList hs] at hcovers
        exact hcovers
  | equation left right =>
      rcases List.mem_append.mp hs with hs | hs
      · exact h.1.candidate.declared_of_mem s (Option.mem_toList.mp hs)
      · exact h.2.candidate.declared_of_mem s (Option.mem_toList.mp hs)
  | pattern kind entity lhs =>
      rcases List.mem_cons.mp hs with rfl | hs
      · exact Declarations.contains_of_mem_ofKind h.entity_mem
      · have hcovers := Scope.covers_leaders _ h.lhs_mem
        rw [mem_synonym?_toList hs] at hcovers
        exact hcovers

theorem Admits.clause {query : Query} (h : setup.Admits query) {clause : Clause}
    (hclause : clause ∈ query.clauses) : setup.AdmitsClause query.declarations clause := by
  obtain ⟨chain, hchain, hclause⟩ := List.mem_flatMap.mp hclause
  exact (h.chains chain hchain).clauses clause hclause

/-- Every synonym of an admitted query is declared. -/
theorem Admits.declares {query : Query} (h : setup.Admits query) :
    ∀ s ∈ query.mentioned, query.declarations.contains s = true := by
  intro s hs
  rcases List.mem_append.mp hs with hs | hs
  · rcases List.mem_append.mp hs with hs | hs
    · obtain ⟨elem, helem, rfl⟩ := List.mem_map.mp hs
      have hadmits := h.select.elems elem helem
      cases elem with
      | synonym s => exact Declarations.mem_synonyms.mp hadmits.2
      | attr ref => exact hadmits.2.owned.2
    · obtain ⟨clause, hclause, hs⟩ := List.mem_flatMap.mp hs
      exact (h.clause hclause).declares s hs
  · obtain ⟨operand, hoperand, hs⟩ := List.mem_filterMap.mp hs
    obtain ⟨clause, hclause, hoperand⟩ := List.mem_flatMap.mp hoperand
    rw [mem_synonym?_toList (Option.mem_toList.mpr hs)] at hoperand
    rcases (h.clause hclause).covers hoperand with hcovers | ⟨-, text, htext, -⟩
    · exact hcovers
    · cases htext

variable {σ : Type} [WordSource σ]

/-- A drawn query is closed over its declarations, its pool and the literals,
whatever the configuration and the source of words. -/
theorem drawQuery_closed {index : Nat} {query : Query} {s t : σ}
    (h : (setup.drawQuery index).run s = some (.ok query, t)) :
    query.Closed setup.pool setup.literals := by
  have hadmits := (succeeds_drawQuery (succeeds_of_run h)).2
  have hdeclared := hadmits.declares
  have hpooled : ∀ s ∈ query.mentioned, s.name ∈ setup.pool.names.get s.kind :=
    fun s hs => hadmits.declarations.name_mem (hdeclared s hs)
  refine ⟨hdeclared, hpooled, ?_, ?_, ?_⟩
  · intro kind hkind
    refine ⟨?_, ?_⟩
    · rw [Declarations.ofKind, hadmits.declarations.names_eq_nil hkind, List.map_nil]
    · rintro s hs rfl
      have hname := hpooled s hs
      rw [hkind] at hname
      cases hname
  · intro clause hclause text htext
    rcases (hadmits.clause hclause).covers htext with hcovers | ⟨-, other, heq, -⟩
    · exact hcovers
    · cases heq
  · intro clause hclause text htext
    rcases (hadmits.clause hclause).covers htext with hcovers | ⟨hfamily, other, heq, hother⟩
    · exact hcovers.elim
    · cases heq
      exact ⟨hfamily, hother⟩

/-- A run with all three families of clauses, and what it ends with. -/
theorem drawQuery_sample_closed :
    (sampleSetup.drawQuery 1).run sampleTape = some (.ok sampleQuery, ⟨[]⟩) ∧
      sampleQuery.Closed sampleSetup.pool sampleSetup.literals :=
  ⟨drawQuery_sample, drawQuery_closed drawQuery_sample⟩

end Setup

end QuerySynth
