import QuerySynth.Config.Weights
import QuerySynth.Decimal.Layout
import QuerySynth.Pool

/-!
# Configurations

Everything a run reads besides the literals: weights, pool sizes and limits.  A
configuration may hold anything until it is checked; the check names the first
fault in a fixed order.
-/

namespace QuerySynth

/-- How many names each kind's pool gets. -/
structure PoolSizes where
  /-- The size for a kind without a size of its own. -/
  standard : UInt64 := 10
  /-- Sizes for single kinds; a negative one counts as absent. -/
  overrides : PerKind (Option Int64) := .fill none
  deriving DecidableEq

/-- The number of names for a kind. -/
def PoolSizes.count (sizes : PoolSizes) (kind : Kind) : UInt64 :=
  match sizes.overrides.get kind with
  | some count => if 0 ≤ count then count.toUInt64 else sizes.standard
  | none => sizes.standard

/-- The settings of a run. -/
structure Config where
  weights : Weights := .standard
  pools : PoolSizes := {}
  /-- The greatest length of a generated name. -/
  idenLen : UInt64 := 10
  /-- The greatest number of clauses after the first of a chain. -/
  andLimit : UInt64 := 5
  /-- What the chance of another clause is multiplied with after each. -/
  andDecay : Float := 1.0
  /-- The greatest number of elements in a tuple. -/
  selectLimit : UInt64 := 5
  /-- The number of queries in a file. -/
  numQueries : UInt64 := 50
  /-- The greatest number of chains in a query. -/
  lenQueries : UInt64 := 10
  comment : String := "NIL"
  timeout : String := "5000"
  /-- Admits procedure literals in the leading place of patterns. -/
  allowError : Bool := false
  /-- Admits line numbers wherever a statement is expected. -/
  lineRefs : Bool := false
  deriving DecidableEq

/-- What is wrong with a configuration. -/
inductive SettingError where
  /-- A weight group has the wrong number of weights. -/
  | weightArity (group : WeightGroup) (actual : Nat)
  /-- The weights of a group do not add up to a 32-bit number. -/
  | weightSum (group : WeightGroup)
  /-- The named limit is zero. -/
  | belowOne (name : String)
  /-- The decay is no number from zero to one. -/
  | decayOutOfRange (value : Float)
  /-- A pool asks for more names than there are. -/
  | tooManyNames (count : Nat) (kind : Kind) (length : Nat)
  /-- No select preset has this index. -/
  | selectPreset (index : UInt8)
  /-- No family preset has this index. -/
  | familyPreset (index : UInt8)
  deriving DecidableEq

/-- The text about one setting. -/
def invalidSetting (name text : String) : String :=
  "invalid setting `" ++ name ++ "`: " ++ text

/-- The text shown for a faulty configuration. -/
def SettingError.message : SettingError → String
  | .weightArity group actual =>
      "weight group `" ++ group.name ++ "` expects " ++ group.arity.repr ++ " values, got " ++
        actual.repr
  | .weightSum group => invalidSetting group.name "weights must sum to at most 4294967295"
  | .belowOne name => invalidSetting name "must be >= 1"
  | .decayOutOfRange value =>
      invalidSetting "and_decay"
        ("must be within [0, 1], got " ++ Decimal.Layout.plain.render value)
  | .tooManyNames count kind length =>
      invalidSetting "iden_len"
        (count.repr ++ " distinct " ++ kind.keyword ++
          " names do not fit in identifiers of length <= " ++ length.repr)
  | .selectPreset index =>
      "invalid select preset " ++ index.toNat.repr ++ " (expected 0..=3)"
  | .familyPreset index =>
      "invalid clause-family preset " ++ index.toNat.repr ++ " (expected 0..=16)"

namespace Weights

/-- A group has its number of weights, and they can be added up to a 32-bit word. -/
def checkGroup (weights : Weights) (group : WeightGroup) : Except SettingError Unit :=
  let listed := weights.get group
  if listed.length ≠ group.arity then .error (.weightArity group listed.length)
  else if (addUp? listed).isNone then .error (.weightSum group)
  else .ok ()

/-- Every group is as it should be. -/
def check (weights : Weights) : Except SettingError Unit :=
  WeightGroup.all.forM weights.checkGroup

end Weights

namespace Config

/-- The first fault of a configuration, if there is any. -/
def check (config : Config) : Except SettingError Unit := do
  config.weights.check
  if config.idenLen = 0 then
    throw (.belowOne "iden_len")
  if config.selectLimit = 0 then
    throw (.belowOne "select_limit")
  if !(0.0 ≤ config.andDecay ∧ config.andDecay ≤ 1.0) then
    throw (.decayOutOfRange config.andDecay)

end Config

namespace Pool

variable {σ : Type} [WordSource σ]

/-- A pool computation that may be asked for the impossible. -/
abbrev Filling (σ : Type) : Type → Type := ExceptT SettingError (Draw σ)

/-- The names of one kind, if there are enough of them. -/
def fillKind (sizes : PoolSizes) (length : Nat) (kind : Kind) : Filling σ (List String) := do
  let count := (sizes.count kind).toNat
  if capacity length < count then
    throw (.tooManyNames count kind length)
  ExceptT.lift (drawDistinct length ∅ count)

/-- A pool of the given sizes, with names up to the given length.  The names of
the kinds before an impossible one are drawn all the same. -/
def generate (sizes : PoolSizes) (length : Nat) : Filling σ Pool := do
  if length = 0 then
    throw (.belowOne "iden_len")
  return ⟨← PerKind.generate (fillKind sizes length)⟩

end Pool

end QuerySynth
