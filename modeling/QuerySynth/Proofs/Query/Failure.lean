import QuerySynth.Proofs.Config.Check
import QuerySynth.Proofs.Generate.Query
import QuerySynth.Proofs.Select.Support

/-!
# The errors of queries

What a query over a checked configuration can fail with, and nothing else: one of
eight weight groups leaves nothing to choose, or a kind of pattern was chosen that
has no synonym.

* Two guards keep the weights of attributes out of this: an element and a side of
  an equation are only drawn as an attribute where there is one to draw.
* Lists that are picked from evenly are never empty, by a mask, by a wildcard, or
  by a test in front of the pick.
* The arities of a checked configuration rule out a place outside of a list, and
  every bound of a drawn number is positive.
-/

namespace QuerySynth

open Draw

/-- The error is one of those that a query can end with. -/
def ChoiceError.OfQuery : ChoiceError → Prop
  | .zeroWeights group =>
      group ∈ ["result", "tuple", "elem", "clause_family", "relation", "transitive", "with_ref",
        "pattern"]
  | .emptyCandidates what =>
      what ∈ ["pattern-assign synonym", "pattern-if synonym", "pattern-while synonym"]
  | .outOfRange => False

theorem ChoiceError.ofQuery_missing (kind : PatternKind) :
    OfQuery (.emptyCandidates kind.missing) := by
  show kind.missing ∈ ["pattern-assign synonym", "pattern-if synonym", "pattern-while synonym"]
  cases kind <;> decide

namespace Setup

variable {setup : Setup} {declared : Declarations} {σ : Type} [WordSource σ] {e : ChoiceError}

/-! ## Every error is one of these -/

theorem fails_drawSelect (hcheck : setup.config.weights.check = .ok ())
    (h : Fails (setup.selectWeights.draw setup.config.selectLimit.toNat declared.synonyms
      (.ofDeclarations declared) : Choose σ SelectResult) e) : e.OfQuery := by
  cases SelectWeights.refuses_of_fails (SelectWeights.full_of_check hcheck) h with
  | result => simp [ChoiceError.OfQuery]
  | tuple => simp [ChoiceError.OfQuery]
  | elem => simp [ChoiceError.OfQuery]

theorem fails_drawClause {family : ClauseFamily}
    (h : Fails (setup.drawClause declared family : Choose σ Clause) e) : e.OfQuery := by
  cases family with
  | suchThat =>
      rcases Scope.fails_drawSuchThat h with ⟨rfl, -⟩ | ⟨rfl, -⟩
      · simp [ChoiceError.OfQuery]
      · simp [ChoiceError.OfQuery]
  | equation =>
      rw [(EquationScope.fails_draw h).1]
      simp [ChoiceError.OfQuery]
  | pattern =>
      rcases Scope.fails_drawPattern h with ⟨rfl, -⟩ | ⟨kind, rfl, -⟩
      · simp [ChoiceError.OfQuery]
      · exact ChoiceError.ofQuery_missing kind

theorem ofQuery_of_fails_drawQuery {index : Nat} (hconfig : setup.config.check = .ok ())
    (h : Fails (setup.drawQuery index : Choose σ Query) e) : e.OfQuery := by
  have hcheck := (Config.check_eq_ok_iff.mp hconfig).1
  obtain ⟨declared, -, hselect | hchain⟩ := fails_drawQuery h
  · exact fails_drawSelect hcheck hselect
  · rcases fails_drawChain hchain with ⟨rfl, -⟩ | ⟨family, -, hclause⟩
    · simp [ChoiceError.OfQuery]
    · exact fails_drawClause hclause

/-! ## Each of them happens -/

/-- Standard settings but for the weights, over nothing to choose from. -/
def barren (weights : Weights) : Setup := ⟨{ weights }, .empty, {}⟩

/-- Over an empty pool nothing is drawn for the declarations.  The words then go to
the result, the number of chains, a family, and what is first drawn for it. -/
theorem exists_run_barren_of_ofQuery (h : e.OfQuery) :
    ∃ (weights : Weights) (eighths : List Nat), (barren weights).config.check = .ok () ∧
      ((barren weights).drawQuery 1).run (tapeOfEighths eighths) = some (.error e, ⟨[]⟩) := by
  cases e with
  | zeroWeights group =>
      simp only [ChoiceError.OfQuery, List.mem_cons, List.not_mem_nil, or_false] at h
      rcases h with rfl | rfl | rfl | rfl | rfl | rfl | rfl | rfl
      · exact ⟨{ Weights.standard with result := [0, 0] }, [], rfl, rfl⟩
      · exact ⟨{ Weights.standard with tuple := [0, 0] }, [0], rfl, rfl⟩
      · exact ⟨.standard, [0, 0], rfl, rfl⟩
      · exact ⟨{ Weights.standard with clauseFamily := [0, 0, 0] }, [7, 7], rfl, rfl⟩
      · exact ⟨{ Weights.standard with relation := [0, 0, 0, 0, 0, 0, 0] }, [7, 7, 0], rfl, rfl⟩
      · exact ⟨{ Weights.standard with transitive := [0, 0] }, [7, 7, 0, 0], rfl, rfl⟩
      · exact ⟨.standard, [7, 7, 4], rfl, rfl⟩
      · exact ⟨{ Weights.standard with pattern := [0, 0, 0] }, [7, 7, 7], rfl, rfl⟩
  | emptyCandidates what =>
      simp only [ChoiceError.OfQuery, List.mem_cons, List.not_mem_nil, or_false] at h
      rcases h with rfl | rfl | rfl
      · exact ⟨.standard, [7, 7, 7, 0], rfl, rfl⟩
      · exact ⟨.standard, [7, 7, 7, 4], rfl, rfl⟩
      · exact ⟨.standard, [7, 7, 7, 7], rfl, rfl⟩
  | outOfRange => exact h.elim

/-- Over all checked configurations, pools, literals and sources of words, exactly
these errors come out of a query. -/
theorem drawQuery_error_iff :
    (∃ (setup : Setup) (index : Nat) (σ : Type) (_ : WordSource σ) (s t : σ),
      setup.config.check = .ok () ∧ (setup.drawQuery index).run s = some (.error e, t)) ↔
      e.OfQuery := by
  constructor
  · rintro ⟨setup, index, σ, source, s, t, hconfig, hrun⟩
    exact ofQuery_of_fails_drawQuery hconfig (fails_of_run hrun)
  · intro h
    obtain ⟨weights, eighths, hconfig, hrun⟩ := exists_run_barren_of_ofQuery h
    exact ⟨barren weights, 1, Tape, inferInstance, _, _, hconfig, hrun⟩

end Setup

end QuerySynth
