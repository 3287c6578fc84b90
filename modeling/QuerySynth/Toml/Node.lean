/-!
# Documents

The value of a TOML document: scalars, arrays and tables.  A table remembers
how it came about, since that decides what may still be added to it.
-/

namespace QuerySynth.Toml

/-- How a table came about. -/
inductive Origin where
  /-- Written in braces; closed. -/
  | braces
  /-- Opened by a header of its own. -/
  | header
  /-- On the way to a table with a header. -/
  | passing
  /-- On the way to a dotted key. -/
  | dotted
  deriving DecidableEq, Repr

/-- A value of a document. -/
inductive Node where
  | string (text : String)
  | integer (value : Int)
  | float (value : Float)
  | boolean (value : Bool)
  /-- A date, a time, or both. -/
  | date
  | array (items : List Node)
  | table (origin : Origin) (entries : List (String × Node))
  /-- Tables opened by headers in double brackets. -/
  | tables (elements : List (List (String × Node)))

/-- The entries of a table, by key. -/
abbrev Entries := List (String × Node)

namespace Entries

/-- Replaces the value of a key, or appends the key; the change may be refused. -/
def update (key : String) (change : Option Node → Option Node) : Entries → Option Entries
  | [] => (change none).map fun node => [(key, node)]
  | (k, node) :: rest =>
      if k = key then (change (some node)).map fun node => (k, node) :: rest
      else (update key change rest).map ((k, node) :: ·)

/-- Changes the last of a list of tables. -/
def changeLast (change : Entries → Option Entries) : List Entries → Option (List Entries)
  | [] => none
  | [last] => (change last).map ([·])
  | first :: rest => (changeLast change rest).map (first :: ·)

/-- Changes the table at the end of a header path.  Tables missing on the way
are made, the last of a list of tables stands for the list, and values block
the way. -/
def atHeader (change : Entries → Option Entries) : List String → Entries → Option Entries
  | [], entries => change entries
  | key :: path, entries =>
      entries.update key fun
        | none => (atHeader change path []).map (Node.table .passing)
        | some (.table .braces _) => none
        | some (.table origin inner) => (atHeader change path inner).map (Node.table origin)
        | some (.tables elements) =>
            (changeLast (atHeader change path) elements).map Node.tables
        | some _ => none

/-- Opens the table with the given last key: a new one, or one that was only
passed so far. -/
def openTable (key : String) (entries : Entries) : Option Entries :=
  entries.update key fun
    | none => some (.table .header [])
    | some (.table .passing inner) => some (.table .header inner)
    | some _ => none

/-- Opens one more table of a list. -/
def openElement (key : String) (entries : Entries) : Option Entries :=
  entries.update key fun
    | none => some (.tables [[]])
    | some (.tables elements) => some (.tables (elements ++ [[]]))
    | some _ => none

/-- Adds a value under a dotted key.  Only tables made for dotted keys take
one, apart from the table that the key starts from; `accepts` tells which of
the two the present table is like. -/
def insert (value : Node) (accepts : Bool) : List String → Entries → Option Entries
  | [], _ => none
  | [key], entries =>
      if accepts then
        entries.update key fun
          | none => some value
          | some _ => none
      else none
  | key :: path, entries =>
      entries.update key fun
        | none => (insert value true path []).map (Node.table .dotted)
        | some (.table .dotted inner) =>
            (insert value true path inner).map (Node.table .dotted)
        | some (.table .passing inner) =>
            (insert value false path inner).map (Node.table .passing)
        | some (.tables elements) =>
            (changeLast (insert value false path) elements).map Node.tables
        | some _ => none

end Entries

end QuerySynth.Toml
