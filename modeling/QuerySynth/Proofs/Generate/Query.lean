import QuerySynth.Generate.Query
import QuerySynth.Proofs.Generate.Clause
import QuerySynth.Proofs.Generate.Select

/-!
# Outcomes of query draws

A finished query taken apart into the draws it was made of.  Chains have one
element more than their coins allowed, at most one more than the limit.  The
statements about whole queries start from the last two theorems.
-/

namespace QuerySynth

open Draw

variable {σ : Type} [WordSource σ]

namespace ChainPolicy

variable {α : Type} {next : Choose σ α} {coin : Float → Choose σ Bool}

omit [WordSource σ] in
theorem succeeds_extend {decay chance : Float} {n : Nat} {elements : List α}
    (h : Succeeds (extend decay coin next chance n) elements) :
    elements.length ≤ n ∧ ∀ a ∈ elements, Succeeds next a := by
  induction n generalizing chance elements with
  | zero =>
      cases succeeds_pure h
      exact ⟨Nat.le_refl 0, by simp⟩
  | succ n ih =>
      obtain ⟨more, -, h⟩ := succeeds_bind h
      cases more with
      | false =>
          cases succeeds_pure h
          exact ⟨Nat.zero_le _, by simp⟩
      | true =>
          obtain ⟨a, ha, h⟩ := succeeds_bind h
          obtain ⟨rest, hrest, rfl⟩ := succeeds_bind_pure h
          obtain ⟨hlength, hall⟩ := ih hrest
          exact ⟨Nat.succ_le_succ hlength, List.forall_mem_cons.mpr ⟨ha, hall⟩⟩

omit [WordSource σ] in
theorem fails_extend {decay chance : Float} {n : Nat} {e : ChoiceError}
    (hcoin : ∀ chance, ¬ Fails (coin chance) e)
    (h : Fails (extend decay coin next chance n) e) : Fails next e := by
  induction n generalizing chance with
  | zero => exact absurd h not_fails_pure
  | succ n ih =>
      rcases fails_bind h with h | ⟨more, -, h⟩
      · exact absurd h (hcoin chance)
      cases more with
      | false => exact absurd h not_fails_pure
      | true =>
          rcases fails_bind h with h | ⟨a, -, h⟩
          · exact h
          · exact ih (fails_of_fails_bind_pure h)

theorem succeeds_chain {policy : ChainPolicy} {elements : List α}
    (h : Succeeds (policy.chain next) elements) :
    (0 < elements.length ∧ elements.length ≤ policy.limit + 1) ∧
      ∀ a ∈ elements, Succeeds next a := by
  obtain ⟨a, ha, h⟩ := succeeds_bind h
  obtain ⟨rest, hrest, rfl⟩ := succeeds_bind_pure h
  obtain ⟨hlength, hall⟩ := succeeds_extend hrest
  exact ⟨⟨Nat.succ_pos _, Nat.succ_le_succ hlength⟩, List.forall_mem_cons.mpr ⟨ha, hall⟩⟩

theorem fails_chain {policy : ChainPolicy} {e : ChoiceError}
    (h : Fails (policy.chain next) e) : Fails next e := by
  rcases fails_bind h with h | ⟨a, -, h⟩
  · exact h
  · exact fails_extend (fun _ => not_fails_lift) (fails_of_fails_bind_pure h)

end ChainPolicy

namespace Setup

variable {setup : Setup} {declared : Declarations}

/-- The family has a positive weight. -/
def FamilyPossible (setup : Setup) (family : ClauseFamily) : Prop :=
  (Options.ofWeights ClauseFamily.all setup.config.weights.clauseFamily).Possible family

/-- The setup and the declarations admit the clause. -/
def AdmitsClause (setup : Setup) (declared : Declarations) : Clause → Prop
  | .suchThat relation transitive left right =>
      (setup.scope declared).Relates setup.config.weights.relation
        setup.config.weights.transitive relation transitive left right
  | .equation left right =>
      let scope := EquationScope.ofDeclarations declared setup.literals
      scope.Admits (scope.firstWeights setup.config.weights.withRef)
          setup.config.weights.attrName none left ∧
        scope.Admits (EquationScope.weightsOf setup.config.weights.withRef)
          setup.config.weights.attrName (some left.valueType) right
  | .pattern kind entity lhs =>
      (setup.scope declared).Matches setup.config.weights.pattern kind entity lhs

/-- The setup and the declarations admit the chain: its family, its length and
every clause of it. -/
structure AdmitsChain (setup : Setup) (declared : Declarations) (chain : ClauseChain) : Prop where
  possible : setup.FamilyPossible chain.family
  length_pos : 0 < chain.clauses.length
  length_le : chain.clauses.length ≤ setup.config.andLimit.toNat + 1
  family_eq : ∀ clause ∈ chain.clauses, clause.family = chain.family
  clauses : ∀ clause ∈ chain.clauses, setup.AdmitsClause declared clause

/-- The setup admits the query. -/
structure Admits (setup : Setup) (query : Query) : Prop where
  comment_eq : query.comment = setup.config.comment
  timeout_eq : query.timeout = setup.config.timeout
  declarations : query.declarations.PartOf setup.pool
  select : setup.selectWeights.AdmitsResult setup.config.selectLimit.toNat
    query.declarations.synonyms (.ofDeclarations query.declarations) query.select
  chains_length : query.chains.length ≤ setup.config.lenQueries.toNat
  chains : ∀ chain ∈ query.chains, setup.AdmitsChain query.declarations chain

theorem succeeds_drawClause {family : ClauseFamily} {clause : Clause}
    (h : Succeeds (setup.drawClause declared family : Choose σ Clause) clause) :
    clause.family = family ∧ setup.AdmitsClause declared clause := by
  cases family with
  | suchThat =>
      obtain ⟨relation, transitive, left, right, rfl, hadmits⟩ := Scope.succeeds_drawSuchThat h
      exact ⟨rfl, hadmits⟩
  | equation =>
      obtain ⟨left, right, rfl, hleft, hright⟩ := EquationScope.succeeds_draw h
      exact ⟨rfl, hleft, hright⟩
  | pattern =>
      obtain ⟨kind, entity, lhs, rfl, hadmits⟩ := Scope.succeeds_drawPattern h
      exact ⟨rfl, hadmits⟩

theorem succeeds_drawChain {chain : ClauseChain}
    (h : Succeeds (setup.drawChain declared : Choose σ ClauseChain) chain) :
    setup.AdmitsChain declared chain := by
  obtain ⟨family, hfamily, h⟩ := succeeds_bind h
  obtain ⟨clauses, hclauses, rfl⟩ := succeeds_bind_pure h
  obtain ⟨⟨hpos, hle⟩, hall⟩ := ChainPolicy.succeeds_chain hclauses
  exact ⟨Choose.succeeds_weighted hfamily, hpos, hle,
    fun clause hclause => (succeeds_drawClause (hall clause hclause)).1,
    fun clause hclause => (succeeds_drawClause (hall clause hclause)).2⟩

theorem fails_drawChain {e : ChoiceError}
    (h : Fails (setup.drawChain declared : Choose σ ClauseChain) e) :
    (e = .zeroWeights "clause_family" ∧ ∀ family, ¬ setup.FamilyPossible family) ∨
    ∃ family, setup.FamilyPossible family ∧
      Fails (setup.drawClause declared family : Choose σ Clause) e := by
  rcases fails_bind h with h | ⟨family, hfamily, h⟩
  · exact .inl (Choose.fails_weighted h)
  · exact .inr ⟨family, Choose.succeeds_weighted hfamily,
      ChainPolicy.fails_chain (fails_of_fails_bind_pure h)⟩

/-- A drawn query is admitted by its setup. -/
theorem succeeds_drawQuery {index : Nat} {query : Query}
    (h : Succeeds (setup.drawQuery index : Choose σ Query) query) :
    query.index = index ∧ setup.Admits query := by
  obtain ⟨declared, hdeclared, h⟩ := succeeds_bind h
  obtain ⟨select, hselect, h⟩ := succeeds_bind h
  obtain ⟨count, hcount, h⟩ := succeeds_bind h
  obtain ⟨chains, hchains, rfl⟩ := succeeds_bind_pure h
  -- drawn below the limit and one, so the limit itself can come up
  have hlt : count < setup.config.lenQueries.toNat + 1 := Choose.succeeds_below hcount
  obtain ⟨hlength, hall⟩ := Choose.succeeds_times hchains
  refine ⟨rfl, rfl, rfl, Declarations.partOf_of_sample hdeclared,
    SelectWeights.succeeds_draw hselect, ?_,
    fun chain hchain => succeeds_drawChain (hall chain hchain)⟩
  show chains.length ≤ setup.config.lenQueries.toNat
  omega

/-- A query fails in its result or in one of its chains, over declarations that
were sampled from the pool. -/
theorem fails_drawQuery {index : Nat} {e : ChoiceError}
    (h : Fails (setup.drawQuery index : Choose σ Query) e) :
    ∃ declared : Declarations, declared.PartOf setup.pool ∧
      (Fails (setup.selectWeights.draw setup.config.selectLimit.toNat declared.synonyms
          (.ofDeclarations declared) : Choose σ SelectResult) e ∨
        Fails (setup.drawChain declared : Choose σ ClauseChain) e) := by
  rcases fails_bind h with h | ⟨declared, hdeclared, h⟩
  · exact absurd h Declarations.not_fails_sample
  refine ⟨declared, Declarations.partOf_of_sample hdeclared, ?_⟩
  rcases fails_bind h with h | ⟨select, -, h⟩
  · exact .inl h
  rcases fails_bind h with h | ⟨count, -, h⟩
  · exact absurd h (Choose.not_fails_below (Nat.succ_pos _))
  · exact .inr (Choose.fails_times (fails_of_fails_bind_pure h))

/-! ## A run through every family

A setup, a tape and the query that comes of them.  The general statements are
applied to this run where they have to be seen to apply. -/

/-- Few names of six kinds, and literals of two sorts. -/
def sampleSetup : Setup where
  config := { andLimit := 1, selectLimit := 2, lenQueries := 3 }
  pool := ⟨⟨[], ["n"], ["s", "t"], [], [], [], ["w"], [], ["a"], ["x"], []⟩⟩
  literals := ⟨["main"], [], ["7"]⟩

/-- A tape of words that lie at the given eighths of the range, in both widths. -/
def tapeOfEighths (eighths : List Nat) : Tape :=
  ⟨eighths.map fun k => UInt64.ofNat (k * (2 ^ 61 + 2 ^ 29))⟩

/-- The words of the run. -/
def sampleTape : Tape :=
  tapeOfEighths [7, 0, 0, 4, 0, 0, 0, 4, 0, 0, 0, 0, 0, 0, 6, 7, 2, 4, 6, 0, 0, 0, 0, 7, 5, 6, 5,
    0, 0, 0, 7, 0, 7, 6, 0, 6, 0, 0, 5, 0, 0, 0, 0, 0, 0, 0, 0]

/-- The query of the run. -/
def sampleQuery : Query where
  index := 1
  comment := "NIL"
  declarations := ⟨⟨[], ["n"], ["t", "s"], [], [], [], ["w"], [], ["a"], ["x"], []⟩⟩
  select := .tuple [.attr ⟨⟨.var, "x"⟩, .varName⟩, .synonym ⟨.progLine, "n"⟩]
  chains :=
    [⟨.equation, [.equation (.literal (.name "main")) (.literal (.name "main"))]⟩,
      ⟨.pattern, [.pattern .assign ⟨.assign, "a"⟩ (.synonym ⟨.var, "x"⟩)]⟩,
      ⟨.suchThat,
        [.suchThat .modifies false (.synonym ⟨.stmt, "t"⟩) (.synonym ⟨.var, "x"⟩),
          .suchThat .modifies false (.synonym ⟨.stmt, "t"⟩) (.synonym ⟨.var, "x"⟩)]⟩]
  timeout := "5000"

theorem drawQuery_sample :
    (sampleSetup.drawQuery 1).run sampleTape = some (.ok sampleQuery, ⟨[]⟩) := rfl

end Setup

end QuerySynth
