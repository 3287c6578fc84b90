/-!
# Design-entity kinds

The eleven kinds a query can declare synonyms for, in declaration order, and
tables with one entry per kind.
-/

namespace QuerySynth

/-- The kinds of program parts that a synonym can stand for. -/
inductive Kind where
  | procedure
  | progLine
  | stmt
  | read
  | print
  | call
  | whileStmt
  | ifStmt
  | assign
  | var
  | const
  deriving DecidableEq, Repr

namespace Kind

/-- Every kind, in declaration order. -/
def all : List Kind :=
  [.procedure, .progLine, .stmt, .read, .print, .call, .whileStmt, .ifStmt, .assign, .var,
    .const]

/-- The word that opens a group of declarations of this kind. -/
def keyword : Kind → String
  | .procedure => "procedure"
  | .progLine => "prog_line"
  | .stmt => "stmt"
  | .read => "read"
  | .print => "print"
  | .call => "call"
  | .whileStmt => "while"
  | .ifStmt => "if"
  | .assign => "assign"
  | .var => "variable"
  | .const => "constant"

/-- The letters in front of every synonym of this kind. -/
def stem : Kind → String
  | .procedure => "proc"
  | .progLine => "prog"
  | .stmt => "s"
  | .read => "r"
  | .print => "prnt"
  | .call => "call"
  | .whileStmt => "w"
  | .ifStmt => "i"
  | .assign => "a"
  | .var => "v"
  | .const => "cons"

/-- The kind with the given keyword. -/
def ofKeyword? (word : String) : Option Kind := all.find? (·.keyword == word)

/-- The place of a kind in declaration order. -/
def position (kind : Kind) : Nat := kind.ctorIdx

theorem mem_all (kind : Kind) : kind ∈ all := by cases kind <;> decide

theorem all_nodup : all.Nodup := by decide

theorem getElem?_all_position (kind : Kind) : all[kind.position]? = some kind := by
  cases kind <;> rfl

theorem position_inj {a b : Kind} (h : a.position = b.position) : a = b := by
  have hplace := a.getElem?_all_position
  rw [h, b.getElem?_all_position] at hplace
  exact (Option.some.inj hplace).symm

theorem ofKeyword?_keyword (kind : Kind) : ofKeyword? kind.keyword = some kind := by
  cases kind <;> decide

end Kind

/-- One entry for every kind. -/
structure PerKind (α : Type) where
  procedure : α
  progLine : α
  stmt : α
  read : α
  print : α
  call : α
  whileStmt : α
  ifStmt : α
  assign : α
  var : α
  const : α
  deriving DecidableEq, Repr

namespace PerKind

variable {α : Type}

/-- The entry of a kind. -/
def get (table : PerKind α) : Kind → α
  | .procedure => table.procedure
  | .progLine => table.progLine
  | .stmt => table.stmt
  | .read => table.read
  | .print => table.print
  | .call => table.call
  | .whileStmt => table.whileStmt
  | .ifStmt => table.ifStmt
  | .assign => table.assign
  | .var => table.var
  | .const => table.const

/-- The table of a computation run once for every kind, in declaration order. -/
def generate {m : Type → Type} [Monad m] (entry : Kind → m α) : m (PerKind α) := do
  let procedure ← entry .procedure
  let progLine ← entry .progLine
  let stmt ← entry .stmt
  let read ← entry .read
  let print ← entry .print
  let call ← entry .call
  let whileStmt ← entry .whileStmt
  let ifStmt ← entry .ifStmt
  let assign ← entry .assign
  let var ← entry .var
  let const ← entry .const
  return ⟨procedure, progLine, stmt, read, print, call, whileStmt, ifStmt, assign,
    var, const⟩

/-- The table of a function. -/
def ofFn (entry : Kind → α) : PerKind α :=
  ⟨entry .procedure, entry .progLine, entry .stmt, entry .read, entry .print, entry .call,
    entry .whileStmt, entry .ifStmt, entry .assign, entry .var, entry .const⟩

/-- The same entry for every kind. -/
def fill (entry : α) : PerKind α := ofFn fun _ => entry

/-- Replaces the entry of one kind. -/
def set (table : PerKind α) (kind : Kind) (entry : α) : PerKind α :=
  ofFn fun k => if k = kind then entry else table.get k

@[simp]
theorem get_ofFn (entry : Kind → α) (kind : Kind) : (ofFn entry).get kind = entry kind := by
  cases kind <;> rfl

@[simp]
theorem get_fill (entry : α) (kind : Kind) : (fill entry).get kind = entry := by
  simp [fill]

theorem get_set (table : PerKind α) (kind other : Kind) (entry : α) :
    (table.set kind entry).get other = if other = kind then entry else table.get other := by
  simp [set]

@[ext]
theorem ext_get {a b : PerKind α} (h : ∀ kind, a.get kind = b.get kind) : a = b := by
  cases a
  cases b
  simp only [mk.injEq]
  exact ⟨h .procedure, h .progLine, h .stmt, h .read, h .print, h .call, h .whileStmt, h .ifStmt,
    h .assign, h .var, h .const⟩

end PerKind

end QuerySynth
