import QuerySynth.Config.Basic
import QuerySynth.Toml.Document

/-!
# Configuration files

A file is a TOML document that names only the settings that differ from the
standard ones.  Unknown keys are passed over.  A group of settings may also be
an array, which gives them in order, or a date, which gives none.
-/

namespace QuerySynth

/-- Why a configuration file cannot be used. -/
inductive ConfigFileError where
  /-- The text is no document. -/
  | malformed
  /-- The value of a setting is of the wrong type or out of range. -/
  | mistyped (setting : String)
  deriving DecidableEq, Repr

/-- The text shown for a file that cannot be used. -/
def ConfigFileError.message : ConfigFileError → String
  | .malformed => "failed to parse generator config: not a TOML document"
  | .mistyped setting =>
      "failed to parse generator config: wrong type of value for `" ++ setting ++ "`"

namespace Toml

/-- A reader of one value. -/
abbrev Reader (α : Type) := Node → Option α

/-- An integer from zero to a bound. -/
def Node.natBelow? (bound : Nat) : Reader Nat
  | .integer i => if 0 ≤ i ∧ i < bound then some i.toNat else none
  | _ => none

/-- An unsigned 64-bit number. -/
def Node.word64? : Reader UInt64 := fun node => (node.natBelow? UInt64.size).map Nat.toUInt64

/-- An unsigned 32-bit number. -/
def Node.word32? : Reader UInt32 := fun node => (node.natBelow? UInt32.size).map Nat.toUInt32

/-- A signed 64-bit number. -/
def Node.integer64? : Reader Int64
  | .integer i => some (Int64.ofInt i)
  | _ => none

/-- A floating-point number, or an integer as one. -/
def Node.float? : Reader Float
  | .float x => some x
  | .integer i => some (Decimal.Scaled.toFloat ⟨i < 0, i.natAbs, 0⟩)
  | _ => none

/-- A truth value. -/
def Node.boolean? : Reader Bool
  | .boolean b => some b
  | _ => none

/-- A string. -/
def Node.string? : Reader String
  | .string s => some s
  | _ => none

/-- A list of weights. -/
def Node.weights? : Reader (List UInt32)
  | .array items => items.mapM Node.word32?
  | _ => none

/-- The settings of a group, by name.  An array gives them in the order of their
names, and a date gives none. -/
def Node.group? (names : List String) : Reader Entries
  | .table _ entries => some entries
  | .array items => some (names.zip items)
  | .tables elements => some (names.zip (elements.map (Node.table .header)))
  | .date => some []
  | _ => none

/-- The value of a setting, or the standard one if it is not given. -/
def Entries.setting {α : Type} (entries : Entries) (name : String) (reader : Reader α)
    (standard : α) : Except ConfigFileError α :=
  match entries.lookup name with
  | none => .ok standard
  | some node =>
      match reader node with
      | some a => .ok a
      | none => .error (.mistyped name)

end Toml

open Toml

/-- Reads the weights. -/
def Weights.ofEntries (entries : Entries) : Except ConfigFileError Weights :=
  PerGroup.generate fun group =>
    entries.setting group.name Node.weights? (Weights.standard.get group)

/-- Reads the pool sizes. -/
def PoolSizes.ofEntries (entries : Entries) : Except ConfigFileError PoolSizes := do
  let standard ← entries.setting "default" Node.word64? ({} : PoolSizes).standard
  let overrides ← PerKind.generate fun kind =>
    entries.setting kind.keyword (fun node => node.integer64?.map some) none
  return { standard, overrides }

/-- Reads the settings of a group, each with its standard value if the group is
not given. -/
def groupSetting {α : Type} (entries : Entries) (name : String) (names : List String)
    (reader : Entries → Except ConfigFileError α) : Except ConfigFileError α := do
  reader (← entries.setting name (Node.group? names) [])

/-- Reads a configuration from the table of a document. -/
def Config.ofEntries (entries : Entries) : Except ConfigFileError Config := do
  let standard : Config := {}
  return {
    weights := ← groupSetting entries "weights" (WeightGroup.all.map WeightGroup.name)
      Weights.ofEntries
    pools := ← groupSetting entries "pools" ("default" :: Kind.all.map Kind.keyword)
      PoolSizes.ofEntries
    idenLen := ← entries.setting "iden_len" Node.word64? standard.idenLen
    andLimit := ← entries.setting "and_limit" Node.word64? standard.andLimit
    andDecay := ← entries.setting "and_decay" Node.float? standard.andDecay
    selectLimit := ← entries.setting "select_limit" Node.word64? standard.selectLimit
    numQueries := ← entries.setting "num_queries" Node.word64? standard.numQueries
    lenQueries := ← entries.setting "len_queries" Node.word64? standard.lenQueries
    comment := ← entries.setting "comment" Node.string? standard.comment
    timeout := ← entries.setting "timeout" Node.string? standard.timeout
    allowError := ← entries.setting "allow_error" Node.boolean? standard.allowError
    lineRefs := ← entries.setting "line_refs" Node.boolean? standard.lineRefs }

/-- Reads the text of a configuration file. -/
def Config.ofFile (text : String) : Except ConfigFileError Config :=
  match document? text with
  | none => .error .malformed
  | some entries => Config.ofEntries entries

end QuerySynth
