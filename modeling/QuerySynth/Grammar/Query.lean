import QuerySynth.Declaration
import QuerySynth.Grammar.Clause
import QuerySynth.Grammar.Select

/-!
# Queries

A query is written on five lines: header, declarations, the select line, an
empty line for the expected result, and the timeout.
-/

namespace QuerySynth

/-- A numbered query. -/
structure Query where
  index : Nat
  comment : String
  declarations : Declarations
  select : SelectResult
  chains : List ClauseChain
  timeout : String
  deriving DecidableEq

namespace Query

/-- The result and the chains of clauses behind it. -/
def selectLine (query : Query) : String :=
  "Select " ++ query.select.render ++
    String.join (query.chains.map fun chain => " " ++ chain.render)

/-- The text of a query, every line of it ended. -/
def render (query : Query) : String :=
  query.index.repr ++ " - " ++ query.comment ++ "\n" ++
    query.declarations.render ++ "\n" ++
    query.selectLine ++ "\n" ++
    "\n" ++
    query.timeout ++ "\n"

end Query

end QuerySynth
