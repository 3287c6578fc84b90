import QuerySynth.Grammar.Attribute

/-!
# The result of a query

A query asks for a truth value, for one element, or for a tuple of elements in
angle brackets.
-/

namespace QuerySynth

/-- One element of a result. -/
inductive Elem where
  | synonym (s : Synonym)
  | attr (ref : AttrRef)
  deriving DecidableEq, Repr

namespace Elem

/-- The synonym that the element refers to. -/
def subject : Elem → Synonym
  | synonym s => s
  | attr ref => ref.subject

/-- The text of the element. -/
def render : Elem → String
  | synonym s => s.render
  | attr ref => ref.render

end Elem

/-- What a query asks for. -/
inductive SelectResult where
  | boolean
  | single (elem : Elem)
  | tuple (elems : List Elem)
  deriving DecidableEq, Repr

namespace SelectResult

/-- The elements from left to right. -/
def elems : SelectResult → List Elem
  | boolean => []
  | single elem => [elem]
  | tuple elems => elems

/-- The text of the result. -/
def render : SelectResult → String
  | boolean => "BOOLEAN"
  | single elem => elem.render
  | tuple elems => "<" ++ ", ".intercalate (elems.map Elem.render) ++ ">"

end SelectResult

end QuerySynth
