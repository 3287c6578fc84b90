import QuerySynth.Config.Basic
import QuerySynth.Generate.Chain
import QuerySynth.Generate.Clause
import QuerySynth.Generate.Select
import QuerySynth.Grammar.Query

/-!
# Drawing queries

A query is drawn from a configuration, a pool and literals: declarations, then
the result, then the number of chains, then the chains one by one.
-/

namespace QuerySynth

/-- What queries are drawn from. -/
structure Setup where
  config : Config
  pool : Pool
  literals : Literals

namespace Setup

variable {σ : Type} [WordSource σ]

/-- The weights that results are drawn by. -/
def selectWeights (setup : Setup) : SelectWeights :=
  let weights := setup.config.weights
  ⟨weights.result, weights.tuple, weights.elem, weights.attrName⟩

/-- What the clauses of a query may mention. -/
def scope (setup : Setup) (declared : Declarations) : Scope :=
  ⟨declared, setup.literals, setup.config.lineRefs, setup.config.allowError⟩

/-- The lengths of chains. -/
def chainPolicy (setup : Setup) : ChainPolicy :=
  ⟨setup.config.andLimit.toNat, setup.config.andDecay⟩

/-- Draws one clause of a family. -/
def drawClause (setup : Setup) (declared : Declarations) :
    ClauseFamily → Choose σ QuerySynth.Clause
  | .suchThat =>
      (setup.scope declared).drawSuchThat setup.config.weights.relation
        setup.config.weights.transitive
  | .equation =>
      (EquationScope.ofDeclarations declared setup.literals).draw setup.config.weights.withRef
        setup.config.weights.attrName
  | .pattern => (setup.scope declared).drawPattern setup.config.weights.pattern

/-- Draws one chain: its family, then its clauses. -/
def drawChain (setup : Setup) (declared : Declarations) : Choose σ ClauseChain := do
  let family ← Choose.weighted "clause_family"
    (.ofWeights ClauseFamily.all setup.config.weights.clauseFamily)
  return ⟨family, ← setup.chainPolicy.chain (setup.drawClause declared family)⟩

/-- Draws the query with the given number. -/
def drawQuery (setup : Setup) (index : Nat) : Choose σ Query := do
  let declared ← Declarations.sample setup.pool
  let select ← setup.selectWeights.draw setup.config.selectLimit.toNat declared.synonyms
    (.ofDeclarations declared)
  let count ← Choose.below (setup.config.lenQueries.toNat + 1)
  let chains ← Choose.times (setup.drawChain declared) count
  return { index, comment := setup.config.comment, declarations := declared, select, chains,
           timeout := setup.config.timeout }

end Setup

end QuerySynth
