import QuerySynth.Grammar.Synonym

/-!
# Attributes

An attribute reference reads one property off a synonym.  Every attribute has a
type of value and a list of kinds that own it.
-/

namespace QuerySynth

/-- What an attribute or a side of an equation stands for. -/
inductive ValueType where
  | name
  | number
  deriving DecidableEq, Repr

/-- The four attributes. -/
inductive AttrName where
  | procName
  | varName
  | value
  | stmtNo
  deriving DecidableEq, Repr

namespace AttrName

/-- Every attribute, in the order of its weights. -/
def all : List AttrName := [.procName, .varName, .value, .stmtNo]

/-- The text of an attribute. -/
def text : AttrName → String
  | .procName => "procName"
  | .varName => "varName"
  | .value => "value"
  | .stmtNo => "stmt#"

/-- The attribute with the given text. -/
def ofText? (word : String) : Option AttrName := all.find? (·.text == word)

/-- Attributes of procedures and variables are names, the others numbers. -/
def valueType : AttrName → ValueType
  | .procName | .varName => .name
  | .value | .stmtNo => .number

/-- The kinds whose synonyms have this attribute. -/
def owners : AttrName → List Kind
  | .procName => [.procedure, .call]
  | .varName => [.var, .read, .print]
  | .value => [.const]
  | .stmtNo => [.stmt, .read, .print, .call, .whileStmt, .ifStmt, .assign]

theorem mem_all (attr : AttrName) : attr ∈ all := by cases attr <;> decide

theorem getElem?_all (attr : AttrName) : all[attr.ctorIdx]? = some attr := by
  cases attr <;> rfl

theorem ofText?_text (attr : AttrName) : ofText? attr.text = some attr := by
  cases attr <;> decide

end AttrName

/-- A property read off a synonym. -/
structure AttrRef where
  subject : Synonym
  attr : AttrName
  deriving DecidableEq, Repr

namespace AttrRef

/-- The synonym, a period, the attribute. -/
def render (ref : AttrRef) : String := ref.subject.render ++ "." ++ ref.attr.text

/-- The type of the value read. -/
def valueType (ref : AttrRef) : ValueType := ref.attr.valueType

end AttrRef

end QuerySynth
