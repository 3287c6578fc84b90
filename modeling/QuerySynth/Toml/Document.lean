import QuerySynth.Toml.Scalar

/-!
# Reading documents

A document is a list of statements: headers, headers in double brackets, and
values under keys.  The statements are read first and then put together, each
under the header in force.
-/

namespace QuerySynth.Toml

/-- How many arrays and tables may stand inside one another, and how many keys
a path may have. -/
def maxDepth : Nat := 79

/-- A letter, digit, hyphen or underscore. -/
def isBare (c : Char) : Bool := c.isAlphanum || c == '-' || c == '_'

/-- One key: bare, or quoted on one line. -/
def simpleKey? : Reads String := fun text =>
  match text with
  | '"' :: rest => (quoted rest).map fun (chars, rest) => (String.ofList chars, rest)
  | '\'' :: rest => (literal rest).map fun (chars, rest) => (String.ofList chars, rest)
  | _ =>
      match text.takeWhile isBare with
      | [] => none
      | chars => some (String.ofList chars, text.dropWhile isBare)

/-- A path of at most `n` keys with periods and spaces between them. -/
def keyPath? : Nat → Reads (List String)
  | 0, _ => none
  | n + 1, text => do
      let (key, rest) ← simpleKey? (skipSpaces text)
      match skipSpaces rest with
      | '.' :: rest =>
          let (path, rest) ← keyPath? n rest
          return (key :: path, rest)
      | rest => return ([key], rest)

/-- A path, an equals sign and a value. -/
def pair? (value : Reads Node) : Reads (List String × Node) := fun text => do
  let (path, rest) ← keyPath? maxDepth text
  let (node, rest) ← value (skipSpaces (← expect? '=' rest))
  return ((path, node), rest)

/-- The items of an array up to its closing bracket, at most `n` of them. -/
def items? (value : Reads Node) : Nat → Reads (List Node)
  | 0, _ => none
  | n + 1, text =>
      match skipFiller false text with
      | ']' :: rest => some ([], rest)
      | text => do
          let (item, rest) ← value text
          match skipFiller false rest with
          | ',' :: rest =>
              let (items, rest) ← items? value n rest
              return (item :: items, rest)
          | ']' :: rest => return ([item], rest)
          | _ => none

/-- The pairs of a table in braces up to its closing brace, at most `n` of them,
added to those before. -/
def braces? (value : Reads Node) (entries : Entries) : Nat → Reads Entries
  | 0, _ => none
  | n + 1, text => do
      let ((path, node), rest) ← pair? value text
      let entries ← entries.insert node true path
      match skipSpaces rest with
      | ',' :: rest => braces? value entries n rest
      | '\x7d' :: rest => return (entries, rest)
      | _ => none

/-- A value, with at most `depth` arrays and tables inside one another. -/
def value? : Nat → Reads Node
  | 0, text => scalarNode? text
  | depth + 1, text =>
      match text with
      | '[' :: rest => do
          let (items, rest) ← items? (value? depth) (rest.length + 1) rest
          return (.array items, rest)
      | '\x7b' :: rest =>
          match skipSpaces rest with
          | '\x7d' :: rest => some (.table .braces [], rest)
          | _ => do
              let (entries, rest) ← braces? (value? depth) [] (rest.length + 1) rest
              return (.table .braces entries, rest)
      | _ => scalarNode? text

/-- A line of a document. -/
inductive Statement where
  | header (path : List String)
  | element (path : List String)
  | pair (path : List String) (value : Node)

/-- The statement at the front of a text that has one. -/
def statement? : Reads Statement := fun text =>
  match text with
  | '[' :: '[' :: rest => do
      let (path, rest) ← keyPath? maxDepth rest
      let rest ← lineEnd? (← expect? ']' (← expect? ']' rest))
      return (.element path, rest)
  | '[' :: rest => do
      let (path, rest) ← keyPath? maxDepth rest
      let rest ← lineEnd? (← expect? ']' rest)
      return (.header path, rest)
  | _ => do
      let ((path, node), rest) ← pair? (value? maxDepth) text
      return (.pair path node, ← lineEnd? rest)

/-- The statements of a text, at most `n` lines. -/
def statements? : Nat → List Char → Option (List Statement)
  | 0, text => if text.isEmpty then some [] else none
  | n + 1, text =>
      match skipSpaces text with
      | [] => some []
      | text =>
          match lineEnd? text with
          | some rest => statements? n rest
          | none => do
              let (statement, rest) ← statement? text
              return statement :: (← statements? n rest)

/-- Splits a path into its way and its last key. -/
def splitLast? : List String → Option (List String × String)
  | [] => none
  | [key] => some ([], key)
  | key :: path => (splitLast? path).map fun (way, last) => (key :: way, last)

/-- Puts statements together, each pair under the header in force. -/
def assemble (entries : Entries) (current : List String) : List Statement → Option Entries
  | [] => some entries
  | .header path :: rest => do
      let (way, key) ← splitLast? path
      assemble (← entries.atHeader (Entries.openTable key) way) path rest
  | .element path :: rest => do
      let (way, key) ← splitLast? path
      assemble (← entries.atHeader (Entries.openElement key) way) path rest
  | .pair path value :: rest => do
      assemble (← entries.atHeader (Entries.insert value true path) current) current rest

/-- The table that a document stands for.  A byte-order mark in front is passed
over. -/
def document? (text : String) : Option Entries := do
  let chars := match text.toList with
    | '\ufeff' :: rest => rest
    | chars => chars
  assemble [] [] (← statements? chars.length chars)

end QuerySynth.Toml
