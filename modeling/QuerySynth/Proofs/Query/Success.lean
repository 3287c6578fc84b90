import QuerySynth.Proofs.Config.Check
import QuerySynth.Proofs.Generate.Equation
import QuerySynth.Proofs.Generate.Query
import QuerySynth.Proofs.Select.Support

/-!
# When queries can always be drawn

Under positive weights, a setup never fails exactly if each of the three kinds of
statement that patterns are about has a name in the pool.

* No choice by weight is made in vain: `Calls` can be between wildcards, and a
  declared assignment can be selected and has a statement number.
* Any first side of an equation could be its own partner, so a second side can
  always be drawn.
* A kind of pattern without subjects is chosen all the same, so there is a run
  that fails for the want of them, past the result and into the first chain.
-/

namespace QuerySynth

open Draw

/-! ## Positive weights -/

namespace Weights

/-- Every weight of every group is positive. -/
def Positive (weights : Weights) : Prop :=
  ∀ group, ∀ weight ∈ weights.get group, 0 < weight

variable {weights : Weights}

theorem possible_of_positive {α : Type} {options : List α} {a : α}
    (hcheck : weights.check = .ok ()) (hpositive : weights.Positive) (group : WeightGroup)
    (hoptions : options.length ≤ group.arity) (ha : a ∈ options) :
    (Options.ofWeights options (weights.get group)).Possible a := by
  have harity := (check_eq_ok_iff.mp hcheck group).1
  exact Options.possible_ofWeights (by omega) (hpositive group) ha

theorem side_possible_of_positive (hcheck : weights.check = .ok ()) (hpositive : weights.Positive)
    (group : WeightGroup) (hgroup : group.arity = 2) (side : Side) :
    Side.Possible (weights.get group) side :=
  Side.possible_of_positive ((check_eq_ok_iff.mp hcheck group).1.trans hgroup) (hpositive group)
    side

end Weights

/-! ## Declarations that can be sampled -/

theorem PerKind.exists_reaches_generate {ε α : Type} {entry : Kind → ExceptT ε (Draw Tape) α}
    (h : ∀ kind, ∃ a, Reaches (entry kind).run (.ok a)) :
    ∃ table, Reaches (generate entry).run (.ok table) := by
  -- one run for each kind, one after the other in declaration order
  choose value hvalue using h
  refine ⟨ofFn value, ?_⟩
  repeat refine reaches_bind_of_ok (hvalue _) ?_
  exact reaches_pure _

/-- Some declarations can be sampled from any pool. -/
theorem Declarations.exists_reaches_sample (pool : Pool) :
    ∃ declared : Declarations, declared.PartOf pool ∧
      Reaches (sample pool : Choose Tape Declarations).run (.ok declared) := by
  obtain ⟨names, hnames⟩ := PerKind.exists_reaches_generate fun kind =>
    Choose.exists_reaches_subset (pool.names.get kind)
  have hsample : Reaches (sample pool : Choose Tape Declarations).run (.ok ⟨names⟩) :=
    reaches_bind_of_ok hnames (reaches_pure _)
  obtain ⟨words, hwords⟩ := hsample
  exact ⟨⟨names⟩, partOf_of_sample (succeeds_of_run (hwords [])), words, hwords⟩

namespace Setup

/-- Every run that ends, over any source of words, ends with a query. -/
def AlwaysSucceeds (setup : Setup) : Prop :=
  ∀ (index : Nat) (σ : Type) [WordSource σ] (s t : σ) (outcome : Except ChoiceError Query),
    (setup.drawQuery index).run s = some (outcome, t) → ∃ query, outcome = .ok query

variable {setup : Setup} {declared : Declarations}

/-! ## No draw fails -/

section Success

variable {σ : Type} [WordSource σ]

theorem not_fails_drawSelect {assignment : Synonym} {e : ChoiceError}
    (hcheck : setup.config.weights.check = .ok ()) (hpositive : setup.config.weights.Positive)
    (hassign : assignment ∈ declared.ofKind .assign) :
    ¬ Fails (setup.selectWeights.draw setup.config.selectLimit.toNat declared.synonyms
      (.ofDeclarations declared) : Choose σ SelectResult) e := by
  intro h
  have hpos := fun group hgroup side =>
    Side.pos_of_possible (Weights.side_possible_of_positive hcheck hpositive group hgroup side)
  cases SelectWeights.refuses_of_fails (SelectWeights.full_of_check hcheck) h with
  | result htuple => exact UInt32.pos_iff_ne_zero.mp (hpos .result rfl .first) htuple
  | tuple _ hsingle => exact UInt32.pos_iff_ne_zero.mp (hpos .tuple rfl .first) hsingle
  | elem _ _ hnone =>
      have hcontains := Declarations.contains_of_mem_ofKind hassign
      exact hnone (.synonym assignment)
        ⟨hpos .elem rfl .first, Declarations.mem_synonyms.mpr hcontains⟩

theorem not_fails_drawSuchThat {e : ChoiceError} (hcheck : setup.config.weights.check = .ok ())
    (hpositive : setup.config.weights.Positive) :
    ¬ Fails ((setup.scope declared).drawSuchThat setup.config.weights.relation
      setup.config.weights.transitive : Choose σ Clause) e := by
  intro h
  rcases Scope.fails_drawSuchThat h with ⟨-, hnone⟩ | ⟨-, hnone⟩
  · exact hnone .calls (Weights.possible_of_positive hcheck hpositive .relation (by decide)
      (Relation.mem_all .calls)) Scope.supports_calls
  · exact hnone false (Weights.possible_of_positive hcheck hpositive .transitive (by decide)
      List.mem_cons_self)

theorem not_fails_drawEquation {assignment : Synonym} {e : ChoiceError}
    (hcheck : setup.config.weights.check = .ok ()) (hpositive : setup.config.weights.Positive)
    (hassign : assignment ∈ declared.ofKind .assign) :
    ¬ Fails ((EquationScope.ofDeclarations declared setup.literals).draw
      setup.config.weights.withRef setup.config.weights.attrName : Choose σ Clause) e := by
  intro h
  have hlength := (Weights.check_eq_ok_iff.mp hcheck .withRef).1
  rcases (EquationScope.fails_draw h).2 with hnone | ⟨left, hleft, hnone⟩
  · -- the statement number of an assignment is there to be the first side
    refine hnone (.attr ⟨assignment, .stmtNo⟩)
      ⟨EquationScope.possible_firstWeights_attr _ hlength (hpositive .withRef), ?_⟩
    refine ⟨Weights.possible_of_positive hcheck hpositive .attrName (by decide)
      (AttrName.mem_all .stmtNo), nofun, ?_⟩
    show assignment ∈ (AttrSubjects.ofDeclarations declared).get .stmtNo
    rw [AttrSubjects.get_ofDeclarations]
    refine Declarations.mem_ofKinds.mpr ⟨?_, Declarations.contains_of_mem_ofKind hassign⟩
    rw [(Declarations.mem_ofKind.mp hassign).1]
    decide
  · -- whatever came first could come again
    exact hnone left ⟨EquationScope.possible_weightsOf hlength (hpositive .withRef) _,
      hleft.candidate.partner⟩

theorem not_fails_drawPattern {e : ChoiceError} (hcheck : setup.config.weights.check = .ok ())
    (hpositive : setup.config.weights.Positive)
    (hsubjects : ∀ kind : PatternKind, declared.ofKind kind.entity ≠ []) :
    ¬ Fails ((setup.scope declared).drawPattern setup.config.weights.pattern : Choose σ Clause)
      e := by
  intro h
  rcases Scope.fails_drawPattern h with ⟨-, hnone⟩ | ⟨kind, -, hempty, -⟩
  · exact hnone .assign (Weights.possible_of_positive hcheck hpositive .pattern (by decide)
      List.mem_cons_self)
  · exact hsubjects kind hempty

theorem not_fails_drawQuery {index : Nat} {e : ChoiceError}
    (hcheck : setup.config.weights.check = .ok ()) (hpositive : setup.config.weights.Positive)
    (hpool : ∀ kind : PatternKind, setup.pool.names.get kind.entity ≠ []) :
    ¬ Fails (setup.drawQuery index : Choose σ Query) e := by
  intro h
  obtain ⟨declared, hpart, h⟩ := fails_drawQuery h
  have hdeclared := fun kind : PatternKind => hpart.exists_mem_ofKind (hpool kind)
  obtain ⟨assignment, hassign⟩ := hdeclared .assign
  rcases h with h | h
  · exact not_fails_drawSelect hcheck hpositive hassign h
  rcases fails_drawChain h with ⟨-, hnone⟩ | ⟨family, -, h⟩
  · exact hnone .suchThat (Weights.possible_of_positive hcheck hpositive .clauseFamily (by decide)
      List.mem_cons_self)
  cases family with
  | suchThat => exact not_fails_drawSuchThat hcheck hpositive h
  | equation => exact not_fails_drawEquation hcheck hpositive hassign h
  | pattern =>
      refine not_fails_drawPattern hcheck hpositive (fun kind => ?_) h
      obtain ⟨s, hs⟩ := hdeclared kind
      exact List.ne_nil_of_mem hs

end Success

/-! ## A run that fails -/

/-- A truth value can be asked for, whatever is declared. -/
theorem reaches_drawSelect_boolean (hcheck : setup.config.weights.check = .ok ())
    (hpositive : setup.config.weights.Positive) :
    Reaches (setup.selectWeights.draw setup.config.selectLimit.toNat declared.synonyms
      (.ofDeclarations declared) : Choose Tape SelectResult).run (.ok .boolean) := by
  have hfull := SelectWeights.full_of_check hcheck
  exact Side.reaches_pick hfull.result
    (Weights.side_possible_of_positive hcheck hpositive .result rfl .second) (reaches_pure _)

/-- A kind of pattern without subjects can be chosen, and then the chain fails. -/
theorem reaches_drawChain_error {kind : PatternKind}
    (hcheck : setup.config.weights.check = .ok ()) (hpositive : setup.config.weights.Positive)
    (hkind : declared.ofKind kind.entity = []) :
    Reaches (setup.drawChain declared : Choose Tape ClauseChain).run
      (.error (.emptyCandidates kind.missing)) := by
  have hfamilies : (Options.ofWeights ClauseFamily.all
      setup.config.weights.clauseFamily).length ≤ 3 := Options.length_ofWeights_le _ _
  have hkinds : (Options.ofWeights PatternKind.all setup.config.weights.pattern).length ≤ 3 :=
    Options.length_ofWeights_le _ _
  have hfamily : setup.FamilyPossible .pattern :=
    Weights.possible_of_positive hcheck hpositive .clauseFamily (by decide)
      (List.mem_cons_of_mem _ (List.mem_cons_of_mem _ List.mem_cons_self))
  have hpattern : (Options.ofWeights PatternKind.all setup.config.weights.pattern).Possible kind :=
    Weights.possible_of_positive hcheck hpositive .pattern (by decide) (by cases kind <;> decide)
  have hguard : (declared.ofKind kind.entity).isEmpty = true := List.isEmpty_iff.mpr hkind
  refine reaches_bind_of_ok (Choose.reaches_weighted (by omega) hfamily) ?_
  -- the first clause fails, and with it the chain
  refine reaches_bind_of_error (reaches_bind_of_error ?_)
  refine reaches_bind_of_ok (Choose.reaches_weighted (by omega) hpattern) ?_
  simp only [Scope.patternSubjects, scope, hguard, if_true]
  exact reaches_bind_of_error (reaches_pure _)

/-- A query with one chain, of patterns of a kind without names. -/
theorem reaches_drawQuery_error {index : Nat} {kind : PatternKind}
    (hcheck : setup.config.weights.check = .ok ()) (hpositive : setup.config.weights.Positive)
    (hqueries : 1 ≤ setup.config.lenQueries) (hkind : setup.pool.names.get kind.entity = []) :
    Reaches (setup.drawQuery index : Choose Tape Query).run
      (.error (.emptyCandidates kind.missing)) := by
  obtain ⟨declared, hpart, hdeclared⟩ := Declarations.exists_reaches_sample setup.pool
  have hnames : declared.ofKind kind.entity = [] := by
    rw [Declarations.ofKind, hpart.names_eq_nil hkind, List.map_nil]
  have hcount : Reaches (Choose.below (setup.config.lenQueries.toNat + 1) : Choose Tape Nat).run
      (.ok 1) := by
    have hpos : (1 : UInt64).toNat ≤ setup.config.lenQueries.toNat :=
      UInt64.le_iff_toNat_le.mp hqueries
    have hlt := setup.config.lenQueries.toNat_lt
    exact Choose.reaches_below (Nat.succ_pos _) (reaches_below64 (Nat.lt_succ_of_le hpos) hlt)
  refine reaches_bind_of_ok hdeclared ?_
  refine reaches_bind_of_ok (reaches_drawSelect_boolean hcheck hpositive) ?_
  refine reaches_bind_of_ok hcount ?_
  exact reaches_bind_of_error
    (reaches_bind_of_error (reaches_drawChain_error hcheck hpositive hnames))

/-! ## The criterion -/

/-- Under a checked configuration with positive weights, and with at least one
chain allowed, queries can always be drawn exactly if the kinds that patterns are
about have names; for each of them without names some words lead to the error
that says so. -/
theorem drawQuery_alwaysSucceeds_iff {config : Config} {pool : Pool}
    (hconfig : config.check = .ok ()) (hpositive : config.weights.Positive)
    (hqueries : 1 ≤ config.lenQueries) :
    ((∀ literals, (⟨config, pool, literals⟩ : Setup).AlwaysSucceeds) ↔
      ∀ kind : PatternKind, pool.names.get kind.entity ≠ []) ∧
    ∀ kind : PatternKind, pool.names.get kind.entity = [] → ∀ literals index, ∃ words, ∀ rest,
      ((⟨config, pool, literals⟩ : Setup).drawQuery index).run (⟨words ++ rest⟩ : Tape) =
        some (.error (.emptyCandidates kind.missing), ⟨rest⟩) := by
  have hcheck := (Config.check_eq_ok_iff.mp hconfig).1
  have hfailing : ∀ kind : PatternKind, pool.names.get kind.entity = [] →
      ∀ literals index, ∃ words, ∀ rest,
        ((⟨config, pool, literals⟩ : Setup).drawQuery index).run (⟨words ++ rest⟩ : Tape) =
          some (.error (.emptyCandidates kind.missing), ⟨rest⟩) := by
    intro kind hkind literals index
    exact reaches_drawQuery_error hcheck hpositive hqueries hkind
  refine ⟨⟨?_, ?_⟩, hfailing⟩
  · intro halways kind hkind
    obtain ⟨words, hwords⟩ := hfailing kind hkind {} 0
    obtain ⟨query, hquery⟩ := halways {} 0 Tape _ _ _ (hwords [])
    cases hquery
  · intro hpool literals index σ _ s t outcome hrun
    cases outcome with
    | ok query => exact ⟨query, rfl⟩
    | error e =>
        exact absurd (fails_of_run hrun) (not_fails_drawQuery hcheck hpositive hpool)

/-- The standard weights, over a pool that lacks conditionals and over one that
has all three kinds. -/
theorem drawQuery_alwaysSucceeds_standard :
    ({} : Config).check = .ok () ∧ Weights.standard.Positive ∧ (1 : UInt64) ≤ 10 ∧
      (∀ literals index, ∃ words, ∀ rest,
        ((⟨{}, sampleSetup.pool, literals⟩ : Setup).drawQuery index).run (⟨words ++ rest⟩ : Tape) =
          some (.error (.emptyCandidates "pattern-if synonym"), ⟨rest⟩)) ∧
      ∀ literals, (⟨{}, ⟨sampleSetup.pool.names.set .ifStmt ["i"]⟩, literals⟩ :
        Setup).AlwaysSucceeds := by
  have hpositive : Weights.standard.Positive := by
    intro group
    cases group <;> simp [Weights.standard, PerGroup.get]
  refine ⟨rfl, hpositive, by decide, ?_, ?_⟩
  · exact (drawQuery_alwaysSucceeds_iff rfl hpositive (by decide)).2 .ifStmt rfl
  · refine (drawQuery_alwaysSucceeds_iff rfl hpositive (by decide)).1.mpr ?_
    intro kind
    cases kind <;> exact List.cons_ne_nil _ _

end Setup

end QuerySynth
