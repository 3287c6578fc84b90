import QuerySynth.Declaration
import QuerySynth.Grammar.Clause

/-!
# What a clause may mention

A scope holds the declared synonyms, the literals, and two permissions.  From
it follow the operands of either side of every relation, the operands in the
leading place of a pattern, and the literals of an equation.
-/

namespace QuerySynth

/-- Declared synonyms and literals, with the permissions of a configuration. -/
structure Scope where
  declared : Declarations
  literals : Literals
  /-- Line numbers may stand for statements. -/
  lineRefs : Bool
  /-- Procedure literals may lead a pattern. -/
  allowError : Bool

namespace Scope

/-- The declared synonyms of some kinds, as operands. -/
def operands (scope : Scope) (kinds : List Kind) : List Operand :=
  (scope.declared.ofKinds kinds).map .synonym

/-- The line numbers that may stand for statements. -/
def lines (scope : Scope) : List Operand :=
  if scope.lineRefs then scope.operands [.progLine] else []

/-- What can modify and use variables, apart from input and output statements. -/
def actors (scope : Scope) : List Operand :=
  scope.operands [.procedure, .stmt, .call, .whileStmt, .ifStmt, .assign] ++ scope.lines ++
    scope.literals.procedureOperands

/-- What can be modified and used. -/
def targets (scope : Scope) : List Operand :=
  scope.operands [.var] ++ scope.literals.variableOperands ++ [.wildcard]

/-- What can call and be called. -/
def procedures (scope : Scope) : List Operand :=
  scope.operands [.procedure] ++ scope.literals.procedureOperands ++ [.wildcard]

/-- Statements that contain others. -/
def containers (scope : Scope) : List Operand :=
  scope.operands [.stmt, .whileStmt, .ifStmt] ++ scope.lines ++ [.wildcard]

/-- Statements of every kind. -/
def statements (scope : Scope) : List Operand :=
  scope.containers ++ scope.operands [.read, .print, .call, .assign]

/-- The operands for the left side of a relation. -/
def left (scope : Scope) : Relation → List Operand
  | .modifies => scope.actors ++ scope.operands [.read]
  | .uses => scope.actors ++ scope.operands [.print]
  | .calls => scope.procedures
  | .parent => scope.containers
  | .follows | .next | .affects => scope.statements

/-- The operands for the right side of a relation. -/
def right (scope : Scope) : Relation → List Operand
  | .modifies | .uses => scope.targets
  | .calls => scope.procedures
  | .parent | .follows | .next | .affects => scope.statements

/-- Whether a relation has operands for both sides. -/
def supports (scope : Scope) (relation : Relation) : Bool :=
  !(scope.left relation).isEmpty && !(scope.right relation).isEmpty

/-- The synonyms that can open a pattern. -/
def patternSubjects (scope : Scope) (kind : PatternKind) : List Synonym :=
  scope.declared.ofKind kind.entity

/-- The synonyms and literals that can lead a pattern. -/
def namedLeaders (scope : Scope) : List Operand :=
  scope.operands [.var] ++ scope.literals.variableOperands ++
    (if scope.allowError then scope.literals.procedureOperands else [])

/-- The operands that can lead a pattern; the wildcard if there is no other. -/
def leaders (scope : Scope) : List Operand :=
  if scope.namedLeaders.isEmpty then [.wildcard] else scope.namedLeaders

end Scope

end QuerySynth
