import QuerySynth.Proofs.Generate.Query
import QuerySynth.Proofs.Random.Run

/-!
# Settings that no draw depends on

Some settings only label a query, or say how many there are and what the pool is filled
with.  Two more are permissions, and a permission is void where there is nothing to permit:
line references without line numbers in the pool, and procedures in the lead of patterns
without procedure literals.

* Scopes that differ in void permissions have the same operands, in the same order and
  number, so their draws are the same.
* A query drawn under a configuration that differs in such settings is the same query with
  other labels.  The draw takes the same words, and an error is the same.  That is so of
  every configuration, whether it passes its check or not.
-/

namespace QuerySynth

open Draw

/-! ## Void permissions -/

namespace Scope

/-- Wherever a clause looks for operands, the scopes have the same ones in the same order. -/
structure Alike (a b : Scope) : Prop where
  declared : a.declared = b.declared
  literals : a.literals = b.literals
  lines : a.lines = b.lines
  namedLeaders : a.namedLeaders = b.namedLeaders

theorem operands_congr {a b : Scope} (h : a.declared = b.declared) : a.operands = b.operands := by
  funext kinds
  rw [operands, operands, h]

theorem lines_of_not_declared {scope : Scope} (h : scope.declared.names.get .progLine = []) :
    scope.lines = [] := by
  have hoperands : scope.operands [.progLine] = [] := by
    simp only [operands, Declarations.ofKinds, Declarations.ofKind, h, List.flatMap_cons,
      List.flatMap_nil, List.map_nil, List.append_nil]
  rw [lines, hoperands, ite_self]

theorem namedLeaders_of_no_procedures {scope : Scope} (h : scope.literals.procedureNames = []) :
    scope.namedLeaders = scope.operands [.var] ++ scope.literals.variableOperands := by
  rw [namedLeaders, Literals.procedureOperands, h, List.map_nil, ite_self, List.append_nil]

/-- Scopes are alike if they differ in void permissions. -/
theorem alike_of_void {a b : Scope} (hdeclared : a.declared = b.declared)
    (hliterals : a.literals = b.literals)
    (hlines : b.declared.names.get .progLine ≠ [] → a.lineRefs = b.lineRefs)
    (hprocedures : b.literals.procedureNames ≠ [] → a.allowError = b.allowError) :
    a.Alike b := by
  have hoperands := operands_congr hdeclared
  refine ⟨hdeclared, hliterals, ?_, ?_⟩
  · by_cases hnone : b.declared.names.get .progLine = []
    · rw [lines_of_not_declared hnone, lines_of_not_declared (hdeclared ▸ hnone)]
    · rw [lines, lines, hlines hnone, hoperands]
  · by_cases hnone : b.literals.procedureNames = []
    · rw [namedLeaders_of_no_procedures hnone,
        namedLeaders_of_no_procedures (hliterals ▸ hnone), hoperands, hliterals]
    · rw [namedLeaders, namedLeaders, hprocedures hnone, hoperands, hliterals]

namespace Alike

variable {a b : Scope}

theorem left_eq (h : a.Alike b) : a.left = b.left := by
  have hoperands := operands_congr h.declared
  funext relation
  cases relation <;>
    simp only [left, actors, procedures, statements, containers, hoperands, h.lines, h.literals]

theorem right_eq (h : a.Alike b) : a.right = b.right := by
  have hoperands := operands_congr h.declared
  funext relation
  cases relation <;>
    simp only [right, targets, procedures, statements, containers, hoperands, h.lines, h.literals]

theorem supports_eq (h : a.Alike b) : a.supports = b.supports := by
  funext relation
  rw [supports, supports, h.left_eq, h.right_eq]

theorem leaders_eq (h : a.Alike b) : a.leaders = b.leaders := by
  rw [leaders, leaders, h.namedLeaders]

variable {σ : Type} [WordSource σ]

theorem drawSuchThat_eq (h : a.Alike b) (relations forms : List UInt32) :
    (a.drawSuchThat relations forms : Choose σ Clause) = b.drawSuchThat relations forms := by
  simp only [drawSuchThat, h.supports_eq, h.left_eq, h.right_eq]

theorem drawPattern_eq (h : a.Alike b) (kinds : List UInt32) :
    (a.drawPattern kinds : Choose σ Clause) = b.drawPattern kinds := by
  have hsubjects : a.patternSubjects = b.patternSubjects := by
    funext kind
    rw [patternSubjects, patternSubjects, h.declared]
  rw [drawPattern, drawPattern, hsubjects, h.leaders_eq]

end Alike

end Scope

/-! ## Queries under other labels -/

/-- The query with the number, the comment and the timeout of another draw. -/
def Query.relabel (index : Nat) (config : Config) (query : Query) : Query :=
  { query with index, comment := config.comment, timeout := config.timeout }

namespace Setup

/-- The setup with another configuration. -/
def withConfig (setup : Setup) (config : Config) : Setup := { setup with config }

/-- The other configuration differs at most in labels, in how many queries there are, in what
pools are filled with, and in void permissions. -/
structure InertTo (setup : Setup) (other : Config) : Prop where
  settings : other = { setup.config with
    comment := other.comment
    timeout := other.timeout
    numQueries := other.numQueries
    pools := other.pools
    idenLen := other.idenLen
    lineRefs := other.lineRefs
    allowError := other.allowError }
  lineRefs : setup.pool.names.get .progLine ≠ [] → other.lineRefs = setup.config.lineRefs
  allowError : setup.literals.procedureNames ≠ [] → other.allowError = setup.config.allowError

namespace InertTo

variable {setup : Setup} {other : Config} {declared : Declarations}

theorem weights_eq (h : setup.InertTo other) : other.weights = setup.config.weights :=
  (congrArg Config.weights h.settings).trans rfl

theorem selectWeights_eq (h : setup.InertTo other) :
    (setup.withConfig other).selectWeights = setup.selectWeights := by
  simp only [selectWeights, withConfig, h.weights_eq]

theorem chainPolicy_eq (h : setup.InertTo other) :
    (setup.withConfig other).chainPolicy = setup.chainPolicy := by
  have hlimit : other.andLimit = setup.config.andLimit :=
    (congrArg Config.andLimit h.settings).trans rfl
  have hdecay : other.andDecay = setup.config.andDecay :=
    (congrArg Config.andDecay h.settings).trans rfl
  simp only [chainPolicy, withConfig, hlimit, hdecay]

/-- What is declared is part of the pool, so nothing is declared of a kind without names. -/
theorem alike (h : setup.InertTo other) (hdeclared : declared.PartOf setup.pool) :
    ((setup.withConfig other).scope declared).Alike (setup.scope declared) := by
  refine Scope.alike_of_void rfl rfl (fun hsome => h.lineRefs fun hnone => ?_) h.allowError
  exact hsome (hdeclared.names_eq_nil hnone)

variable {σ : Type} [WordSource σ]

theorem drawClause_eq (h : setup.InertTo other) (hdeclared : declared.PartOf setup.pool)
    (family : ClauseFamily) :
    ((setup.withConfig other).drawClause declared family : Choose σ Clause) =
      setup.drawClause declared family := by
  have hweights : (setup.withConfig other).config.weights = setup.config.weights := h.weights_eq
  cases family with
  | suchThat => simp only [drawClause, hweights, (h.alike hdeclared).drawSuchThat_eq]
  | equation =>
      simp only [drawClause, hweights]
      rfl
  | pattern => simp only [drawClause, hweights, (h.alike hdeclared).drawPattern_eq]

theorem drawChain_eq (h : setup.InertTo other) (hdeclared : declared.PartOf setup.pool) :
    ((setup.withConfig other).drawChain declared : Choose σ ClauseChain) =
      setup.drawChain declared := by
  have hweights : (setup.withConfig other).config.weights = setup.config.weights := h.weights_eq
  simp only [drawChain, hweights, h.chainPolicy_eq, h.drawClause_eq hdeclared]

theorem drawQuery_eq (h : setup.InertTo other) (i j : Nat) :
    ((setup.withConfig other).drawQuery j : Choose σ Query) =
      Query.relabel j other <$> setup.drawQuery i := by
  have hlimit : (setup.withConfig other).config.selectLimit = setup.config.selectLimit :=
    (congrArg Config.selectLimit h.settings).trans rfl
  have hqueries : (setup.withConfig other).config.lenQueries = setup.config.lenQueries :=
    (congrArg Config.lenQueries h.settings).trans rfl
  simp only [drawQuery, map_bind, map_pure]
  refine bind_congr_of_succeeds fun declared hdeclared => ?_
  simp only [h.selectWeights_eq, hlimit, hqueries,
    h.drawChain_eq (Declarations.partOf_of_sample hdeclared)]
  rfl

end InertTo

/-- For every source of words, a draw under a configuration that differs in settings without
a part in it ends like the draw before: in the same declarations, result and chains or in the
same error, and with the same source behind it. -/
theorem drawQuery_inert {σ : Type} [WordSource σ] {setup : Setup} {other : Config}
    (h : setup.InertTo other) (i j : Nat) (s : σ) :
    ((setup.withConfig other).drawQuery j).run s =
      ((setup.drawQuery i).run s).map
        fun (outcome, t) => (outcome.map (Query.relabel j other), t) := by
  rw [h.drawQuery_eq i j, ExceptT.run_map]
  exact StateT.run_map (Except.map (Query.relabel j other)) (setup.drawQuery i).run s

/-- A pool without line numbers, and no procedure literals. -/
def voidSetup : Setup where
  config := { andLimit := 1, selectLimit := 2, lenQueries := 3, lineRefs := true }
  pool := ⟨⟨[], [], ["s"], [], [], [], [], [], ["a"], ["x"], []⟩⟩
  literals := ⟨[], ["y"], ["7"]⟩

/-- The configuration with both permissions turned round, and with other labels and sizes. -/
def voidConfig : Config :=
  { voidSetup.config with
    comment := "again", timeout := "1", numQueries := 3, pools := { standard := 0 }, idenLen := 1,
    lineRefs := false, allowError := true }

/-- The words of the run. -/
def voidTape : Tape :=
  tapeOfEighths [0, 0, 2, 6, 1, 6, 0, 1, 7, 4, 0, 7, 6, 3, 6, 2, 5, 3, 5, 0, 6, 7, 2, 0, 5, 7]

/-- The query of the run,
`Select BOOLEAN such that Affects*(_, aa) and Follows(ss, aa) pattern aa("y", _)`. -/
def voidQuery : Query where
  index := 1
  comment := "NIL"
  declarations := ⟨⟨[], [], ["s"], [], [], [], [], [], ["a"], ["x"], []⟩⟩
  select := .boolean
  chains :=
    [⟨.suchThat,
        [.suchThat .affects true .wildcard (.synonym ⟨.assign, "a"⟩),
          .suchThat .follows false (.synonym ⟨.stmt, "s"⟩) (.synonym ⟨.assign, "a"⟩)]⟩,
      ⟨.pattern, [.pattern .assign ⟨.assign, "a"⟩ (.name "y")]⟩]
  timeout := "5000"

/-- Under the other configuration the run differs in the labels of the query alone. -/
theorem drawQuery_void_inert :
    voidSetup.config.check = .ok () ∧ voidSetup.InertTo voidConfig ∧
      (voidSetup.drawQuery 1).run voidTape = some (.ok voidQuery, ⟨[]⟩) ∧
      ((voidSetup.withConfig voidConfig).drawQuery 7).run voidTape =
        some (.ok { voidQuery with index := 7, comment := "again", timeout := "1" }, ⟨[]⟩) := by
  have hinert : voidSetup.InertTo voidConfig :=
    ⟨rfl, fun hlines => absurd rfl hlines, fun hprocedures => absurd rfl hprocedures⟩
  have hrun : (voidSetup.drawQuery 1).run voidTape = some (.ok voidQuery, ⟨[]⟩) := rfl
  refine ⟨rfl, hinert, hrun, ?_⟩
  rw [drawQuery_inert hinert 1 7, hrun]
  rfl

end Setup

end QuerySynth
