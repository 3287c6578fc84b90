import QuerySynth.Grammar.Attribute

/-!
# Clauses

The three families of clauses, and chains of clauses of one family joined by
`and`.
-/

namespace QuerySynth

/-- The relations between program parts. -/
inductive Relation where
  | modifies
  | uses
  | calls
  | parent
  | follows
  | next
  | affects
  deriving DecidableEq, Repr

namespace Relation

/-- Every relation, in the order of its weights. -/
def all : List Relation := [.modifies, .uses, .calls, .parent, .follows, .next, .affects]

/-- The text of a relation. -/
def text : Relation → String
  | .modifies => "Modifies"
  | .uses => "Uses"
  | .calls => "Calls"
  | .parent => "Parent"
  | .follows => "Follows"
  | .next => "Next"
  | .affects => "Affects"

/-- Whether the relation has a transitive form. -/
def hasTransitive : Relation → Bool
  | .modifies | .uses => false
  | _ => true

theorem mem_all (relation : Relation) : relation ∈ all := by cases relation <;> decide

theorem getElem?_all (relation : Relation) : all[relation.ctorIdx]? = some relation := by
  cases relation <;> rfl

end Relation

/-- The statements a pattern can be about. -/
inductive PatternKind where
  | assign
  | ifStmt
  | whileStmt
  deriving DecidableEq, Repr

namespace PatternKind

/-- Every kind of pattern, in the order of its weights. -/
def all : List PatternKind := [.assign, .ifStmt, .whileStmt]

/-- The kind of the synonym that opens the pattern. -/
def entity : PatternKind → Kind
  | .assign => .assign
  | .ifStmt => .ifStmt
  | .whileStmt => .whileStmt

/-- How a missing synonym for this kind of pattern is called. -/
def missing (kind : PatternKind) : String := "pattern-" ++ kind.entity.keyword ++ " synonym"

theorem getElem?_all (kind : PatternKind) : all[kind.ctorIdx]? = some kind := by
  cases kind <;> rfl

end PatternKind

/-- One side of an equation. -/
inductive WithRef where
  /-- A literal. -/
  | literal (operand : Operand)
  | attr (ref : AttrRef)
  /-- A line number. -/
  | synonym (s : Synonym)
  deriving DecidableEq, Repr

namespace WithRef

/-- What the side stands for. -/
def valueType : WithRef → ValueType
  | literal (.name _) => .name
  | literal _ => .number
  | attr ref => ref.valueType
  | synonym _ => .number

/-- The text of the side. -/
def render : WithRef → String
  | literal operand => operand.render
  | attr ref => ref.render
  | synonym s => s.render

/-- The synonym that the side refers to. -/
def synonym? : WithRef → Option Synonym
  | literal _ => none
  | attr ref => some ref.subject
  | synonym s => some s

/-- The attribute reference on the side. -/
def attr? : WithRef → Option AttrRef
  | attr ref => some ref
  | _ => none

end WithRef

/-- The families of clauses. -/
inductive ClauseFamily where
  | suchThat
  | equation
  | pattern
  deriving DecidableEq, Repr

namespace ClauseFamily

/-- Every family, in the order of its weights. -/
def all : List ClauseFamily := [.suchThat, .equation, .pattern]

/-- The words that open a chain of the family. -/
def keyword : ClauseFamily → String
  | .suchThat => "such that"
  | .equation => "with"
  | .pattern => "pattern"

theorem getElem?_all (family : ClauseFamily) : all[family.ctorIdx]? = some family := by
  cases family <;> rfl

end ClauseFamily

/-- A single condition. -/
inductive Clause where
  /-- A relation holds between two parts. -/
  | suchThat (relation : Relation) (transitive : Bool) (left right : Operand)
  /-- Two values are equal. -/
  | equation (left right : WithRef)
  /-- A statement has a variable in the leading place. -/
  | pattern (kind : PatternKind) (entity : Synonym) (lhs : Operand)
  deriving DecidableEq, Repr

namespace Clause

/-- The family a clause belongs to. -/
def family : Clause → ClauseFamily
  | suchThat .. => .suchThat
  | equation .. => .equation
  | pattern .. => .pattern

/-- The synonyms of a clause from left to right, subjects of attributes
included. -/
def synonyms : Clause → List Synonym
  | suchThat _ _ left right => left.synonym?.toList ++ right.synonym?.toList
  | equation left right => left.synonym?.toList ++ right.synonym?.toList
  | pattern _ entity lhs => entity :: lhs.synonym?.toList

/-- The attribute references of a clause from left to right. -/
def attrRefs : Clause → List AttrRef
  | equation left right => left.attr?.toList ++ right.attr?.toList
  | _ => []

/-- The text of a clause.  A transitive relation carries a star, and a pattern
on `if` has one more place than the others. -/
def render : Clause → String
  | suchThat relation transitive left right =>
      relation.text ++ (if transitive then "*" else "") ++
        "(" ++ left.render ++ ", " ++ right.render ++ ")"
  | equation left right => left.render ++ " = " ++ right.render
  | pattern .ifStmt entity lhs => entity.render ++ "(" ++ lhs.render ++ ", _, _)"
  | pattern _ entity lhs => entity.render ++ "(" ++ lhs.render ++ ", _)"

end Clause

/-- Clauses under one family keyword. -/
structure ClauseChain where
  family : ClauseFamily
  clauses : List Clause
  deriving DecidableEq, Repr

/-- The keyword once, then the clauses with `and` between them. -/
def ClauseChain.render (chain : ClauseChain) : String :=
  match chain.clauses with
  | [] => chain.family.keyword
  | clauses => chain.family.keyword ++ " " ++ " and ".intercalate (clauses.map Clause.render)

end QuerySynth
