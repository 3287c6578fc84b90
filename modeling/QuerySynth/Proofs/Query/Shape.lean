import QuerySynth.Proofs.Config.Check
import QuerySynth.Proofs.Generate.Equation
import QuerySynth.Proofs.Generate.Query

/-!
# Drawn queries are well typed and within their limits

* Attributes are read off kinds that own them, the two sides of an equation are
  of one type, a pattern opens with a synonym of its kind, and `Modifies` and
  `Uses` never carry the star.
* The lengths of a query, of its chains and of a tuple stay within the limits of
  a checked configuration, and a chain holds clauses of its own family.
-/

namespace QuerySynth

open Draw

/-! ## Well-typed clauses -/

/-- A literal is a name or a constant, an attribute is read off an owner, and a
bare synonym is a line number. -/
def WithRef.WellFormed : WithRef → Prop
  | .literal operand => (∃ text, operand = .name text) ∨ ∃ text, operand = .integer text
  | .attr ref => ref.subject.kind ∈ ref.attr.owners
  | .synonym s => s.kind = .progLine

/-- The typing rule of each family. -/
def Clause.WellTyped : Clause → Prop
  | .suchThat relation transitive _ _ =>
      relation = .modifies ∨ relation = .uses → transitive = false
  | .equation left right =>
      left.WellFormed ∧ right.WellFormed ∧ left.valueType = right.valueType
  | .pattern kind entity _ => entity.kind = kind.entity

/-- A query of well-typed parts that stays within the limits. -/
structure Query.WellShaped (query : Query) (config : Config) : Prop where
  elem_owned : ∀ ref, .attr ref ∈ query.select.elems → ref.subject.kind ∈ ref.attr.owners
  tuple_length : ∀ elems, query.select = .tuple elems →
    0 < elems.length ∧ elems.length ≤ config.selectLimit.toNat
  chains_length : query.chains.length ≤ config.lenQueries.toNat
  chain_length : ∀ chain ∈ query.chains,
    0 < chain.clauses.length ∧ chain.clauses.length ≤ config.andLimit.toNat + 1
  family_eq : ∀ chain ∈ query.chains, ∀ clause ∈ chain.clauses, clause.family = chain.family
  wellTyped : ∀ chain ∈ query.chains, ∀ clause ∈ chain.clauses, clause.WellTyped

theorem EquationScope.Candidate.wellFormed {declared : Declarations} {literals : Literals}
    {attrs : List UInt32} {wanted : Option ValueType} {side : WithRef}
    (h : (ofDeclarations declared literals).Candidate attrs wanted side) : side.WellFormed := by
  cases side with
  | literal operand =>
      rcases mem_literals (mem_literals_of_mem_literalsOf h) with ⟨text, rfl, -⟩ | ⟨text, rfl, -⟩
      · exact .inl ⟨text, rfl⟩
      · exact .inr ⟨text, rfl⟩
  | attr ref => exact (AttrSubjects.Admits.owned h).1
  | synonym s => exact (mem_lines (mem_lines_of_mem_linesOf h)).1

namespace Setup

variable {setup : Setup} {declared : Declarations}

theorem AdmitsClause.wellTyped {clause : Clause} (h : setup.AdmitsClause declared clause) :
    clause.WellTyped := by
  cases clause with
  | suchThat relation transitive left right =>
      intro hrelation
      have hform := h.form
      have hplain : relation.hasTransitive = false := by
        rcases hrelation with rfl | rfl <;> rfl
      rwa [hplain, if_neg Bool.false_ne_true] at hform
  | equation left right =>
      have hright : right.valueType = left.valueType := h.2.candidate.valueType_eq
      exact ⟨h.1.candidate.wellFormed, h.2.candidate.wellFormed, hright.symm⟩
  | pattern kind entity lhs => exact (Declarations.mem_ofKind.mp h.entity_mem).1

variable {σ : Type} [WordSource σ]

/-- A query drawn from a checked configuration is well typed and within its
limits. -/
theorem drawQuery_wellShaped {index : Nat} {query : Query} {s t : σ}
    (hconfig : setup.config.check = .ok ())
    (h : (setup.drawQuery index).run s = some (.ok query, t)) :
    query.WellShaped setup.config := by
  have hadmits := (succeeds_drawQuery (succeeds_of_run h)).2
  refine ⟨?_, ?_, hadmits.chains_length, ?_, ?_, ?_⟩
  · intro ref href
    exact (hadmits.select.elems _ href).2.owned.1
  · intro elems helems
    have hselect := hadmits.select
    rw [helems] at hselect
    obtain ⟨-, -, ⟨hpos, hle⟩, -⟩ := hselect
    -- the check rules out a limit of zero, which a tuple would exceed
    have hlimit : setup.config.selectLimit.toNat ≠ 0 := fun hzero =>
      (Config.check_eq_ok_iff.mp hconfig).2.2.1 (UInt64.toNat_inj.mp hzero)
    exact ⟨hpos, by omega⟩
  · intro chain hchain
    exact ⟨(hadmits.chains chain hchain).length_pos, (hadmits.chains chain hchain).length_le⟩
  · intro chain hchain
    exact (hadmits.chains chain hchain).family_eq
  · intro chain hchain clause hclause
    exact ((hadmits.chains chain hchain).clauses clause hclause).wellTyped

/-- A run under a checked configuration, with a tuple and a chain at their
limits. -/
theorem drawQuery_sample_wellShaped :
    sampleSetup.config.check = .ok () ∧
      (sampleSetup.drawQuery 1).run sampleTape = some (.ok sampleQuery, ⟨[]⟩) ∧
      sampleQuery.WellShaped sampleSetup.config :=
  ⟨rfl, drawQuery_sample, drawQuery_wellShaped rfl drawQuery_sample⟩

end Setup

end QuerySynth
