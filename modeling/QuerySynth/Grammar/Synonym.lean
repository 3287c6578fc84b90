import QuerySynth.Grammar.Kind

/-!
# Synonyms, literals and operands

A synonym is a bare name bound to a kind; its text is the kind's stem followed
by the name.  Literals are names and numbers supplied from outside; they are
usable in clauses and never declared.
-/

namespace QuerySynth

/-- A bare name bound to a kind. -/
structure Synonym where
  kind : Kind
  name : String
  deriving DecidableEq, Repr

/-- The stem of the kind, then the name. -/
def Synonym.render (s : Synonym) : String := s.kind.stem ++ s.name

/-- An argument of a clause. -/
inductive Operand where
  | synonym (s : Synonym)
  /-- The name of a procedure or variable. -/
  | name (text : String)
  /-- A constant. -/
  | integer (text : String)
  | wildcard
  deriving DecidableEq, Repr

namespace Operand

/-- Names stand in double quotes and constants stand bare. -/
def render : Operand → String
  | synonym s => s.render
  | name text => "\"" ++ text ++ "\""
  | integer text => text
  | wildcard => "_"

/-- The synonym in an operand. -/
def synonym? : Operand → Option Synonym
  | synonym s => some s
  | _ => none

end Operand

/-- Names and numbers supplied from outside. -/
structure Literals where
  procedureNames : List String := []
  variableNames : List String := []
  constants : List String := []
  deriving DecidableEq, Repr

namespace Literals

/-- Nothing was supplied. -/
def isEmpty (literals : Literals) : Bool :=
  literals.procedureNames.isEmpty && literals.variableNames.isEmpty && literals.constants.isEmpty

/-- The procedure names as operands. -/
def procedureOperands (literals : Literals) : List Operand := literals.procedureNames.map .name

/-- The variable names as operands. -/
def variableOperands (literals : Literals) : List Operand := literals.variableNames.map .name

/-- The constants as operands. -/
def constantOperands (literals : Literals) : List Operand := literals.constants.map .integer

/-- Every name as an operand, procedures first. -/
def nameOperands (literals : Literals) : List Operand :=
  literals.procedureOperands ++ literals.variableOperands

/-- Every literal as an operand, constants last. -/
def operands (literals : Literals) : List Operand :=
  literals.nameOperands ++ literals.constantOperands

end Literals

end QuerySynth
