import QuerySynth.Proofs.Generate.Renaming

/-!
# Renamed queries

A query drawn from a renamed pool and renamed literals is the renamed query.  The
draw takes the same words, and where it fails it fails with the same error, so no
choice depends on the text of a name.
-/

namespace QuerySynth

/-! ## Renamed pools -/

theorem PerKind.generate_map {m : Type → Type} [Monad m] [LawfulMonad m] {α β : Type}
    (f : Kind → α → β) (entry : Kind → m α) :
    generate (fun kind => f kind <$> entry kind) =
      (fun table => ofFn fun kind => f kind (table.get kind)) <$> generate entry := by
  simp only [generate, map_bind, bind_map_left, map_pure]
  rfl

variable (r : Renaming)

/-- The names of every kind renamed, in order. -/
def Pool.rename (pool : Pool) : Pool :=
  ⟨.ofFn fun kind => (pool.names.get kind).map (r.bare kind)⟩

/-- The setup with its pool and literals renamed. -/
def Setup.rename (setup : Setup) : Setup :=
  { setup with pool := setup.pool.rename r, literals := setup.literals.rename r }

/-- The query with every declared name and every synonym and literal renamed. -/
def Query.rename (query : Query) : Query :=
  { query with
    declarations := query.declarations.rename r
    select := query.select.rename r
    chains := query.chains.map (ClauseChain.rename r) }

variable {r} {σ : Type} [WordSource σ]

theorem Declarations.sample_rename (pool : Pool) :
    (sample (pool.rename r) : Choose σ Declarations) = Declarations.rename r <$> sample pool := by
  have hsubset : (fun kind => Choose.subset ((pool.rename r).names.get kind)) =
      fun kind => List.map (r.bare kind) <$>
        (Choose.subset (pool.names.get kind) : Choose σ (List String)) := by
    funext kind
    rw [Pool.rename, PerKind.get_ofFn, Choose.subset_map]
  simp only [sample, hsubset, PerKind.generate_map, map_bind, bind_map_left, map_pure]
  rfl

/-! ## Renamed draws -/

namespace Setup

theorem drawClause_rename (setup : Setup) (declared : Declarations) (family : ClauseFamily) :
    ((setup.rename r).drawClause (declared.rename r) family : Choose σ Clause) =
      Clause.rename r <$> setup.drawClause declared family := by
  cases family with
  | suchThat => exact (setup.scope declared).drawSuchThat_rename _ _
  | equation =>
      simp only [drawClause, rename, EquationScope.ofDeclarations_rename,
        EquationScope.draw_rename]
  | pattern => exact (setup.scope declared).drawPattern_rename _

theorem drawChain_rename (setup : Setup) (declared : Declarations) :
    ((setup.rename r).drawChain (declared.rename r) : Choose σ ClauseChain) =
      ClauseChain.rename r <$> setup.drawChain declared := by
  simp only [drawChain, drawClause_rename, ChainPolicy.chain_map, map_bind, bind_map_left,
    map_pure]
  rfl

theorem drawQuery_map_rename (setup : Setup) (index : Nat) :
    ((setup.rename r).drawQuery index : Choose σ Query) =
      Query.rename r <$> setup.drawQuery index := by
  simp only [drawQuery, map_bind]
  have hpool : (setup.rename r).pool = setup.pool.rename r := rfl
  simp only [hpool, Declarations.sample_rename, bind_map_left]
  refine bind_congr fun declared => ?_
  simp only [Declarations.synonyms_rename, AttrSubjects.ofDeclarations_rename,
    SelectWeights.draw_rename, drawChain_rename, Choose.times_map, bind_map_left, map_pure]
  rfl

/-- For every renaming and every source of words, the query drawn after renaming is
the query drawn before it, renamed; an error is the same, and so is the source
behind the draw. -/
theorem drawQuery_rename (setup : Setup) (r : Renaming) (index : Nat) (s : σ) :
    ((setup.rename r).drawQuery index).run s =
      ((setup.drawQuery index).run s).map
        fun (outcome, t) => (outcome.map (Query.rename r), t) := by
  rw [drawQuery_map_rename, ExceptT.run_map]
  exact StateT.run_map (Except.map (Query.rename r)) (setup.drawQuery index).run s

end Setup

end QuerySynth
