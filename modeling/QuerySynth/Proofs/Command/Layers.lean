import QuerySynth.Command.Flags
import QuerySynth.Proofs.Command.FileTree
import QuerySynth.Proofs.Command.Options

/-!
# The layers of a configuration

A resolved configuration has three layers: the base, the flags and the preset.
`Layered` says setting by setting which of them counts, and determines the
configuration.

* The base, the preset asked for and the outcome are told by relations over a tree
  of files.  Each of them holds of exactly one outcome.
* A fault of the base comes before a fault of the preset, and that before a fault
  of the settings.
-/

namespace QuerySynth

namespace Preset

/-- What a preset puts in the place of a setting, if it is active. -/
def put? {α : Type} (preset : Preset) (value : α) : Option α :=
  preset.select.change?.map fun _ => value

/-- The list that a preset puts in the place of a weight group, if it is active and
has one for the group. -/
def weights? (preset : Preset) (group : WeightGroup) : Option (List UInt32) :=
  preset.select.change?.bind fun select =>
    match group with
    | .result => some select.result
    | .tuple => select.tuple
    | .clauseFamily => preset.family.change.clauseFamily
    | .relation => preset.family.change.relation
    | .transitive => preset.family.change.transitive
    | .pattern => preset.family.change.pattern
    | .elem | .withRef | .attrName => none

end Preset

/-! ## Layers -/

/-- Every setting is that of the preset, or else that of its own flag, or else that
of the base.  The two permissions are granted by base and flags together. -/
structure Layered (preset : Preset) (flags : Flags) (base config : Config) : Prop where
  weights : ∀ group, config.weights.get group =
    ((preset.weights? group).or (flags.weights.get group)).getD (base.weights.get group)
  standard : config.pools.standard =
    ((preset.put? 5).or flags.poolSize).getD base.pools.standard
  overrides : ∀ kind, config.pools.overrides.get kind =
    (flags.poolSizes.get kind).or (base.pools.overrides.get kind)
  counts : ∀ kind, config.pools.count kind =
    ((flags.poolSizes.get kind).or (base.pools.overrides.get kind)).elim config.pools.standard
      fun count => if 0 ≤ count then count.toUInt64 else config.pools.standard
  idenLen : config.idenLen = ((preset.put? 2).or flags.idenLen).getD base.idenLen
  andLimit : config.andLimit = ((preset.put? 2).or flags.andLimit).getD base.andLimit
  andDecay : config.andDecay = flags.andDecay.getD base.andDecay
  selectLimit : config.selectLimit = flags.selectLimit.getD base.selectLimit
  numQueries : config.numQueries = ((preset.put? 20).or flags.numQueries).getD base.numQueries
  lenQueries : config.lenQueries = ((preset.put? 2).or flags.lenQueries).getD base.lenQueries
  comment : config.comment =
    (preset.comment?.or (flags.comment.map " ".intercalate)).getD base.comment
  timeout : config.timeout = flags.timeout.getD base.timeout
  allowError : config.allowError = (base.allowError || flags.allowError)
  lineRefs : config.lineRefs = (base.lineRefs || flags.lineRefs)

namespace Layered

variable {preset : Preset} {flags : Flags} {base config other : Config}

theorem unique (h : Layered preset flags base config) (h' : Layered preset flags base other) :
    config = other := by
  have hweights : config.weights = other.weights :=
    PerGroup.ext_get fun group => (h.weights group).trans (h'.weights group).symm
  have hoverrides : config.pools.overrides = other.pools.overrides :=
    PerKind.ext_get fun kind => (h.overrides kind).trans (h'.overrides kind).symm
  obtain ⟨weights, ⟨standard, overrides⟩, _⟩ := config
  obtain ⟨weights', ⟨standard', overrides'⟩, _⟩ := other
  simp only at hweights hoverrides
  rw [Config.mk.injEq, PoolSizes.mk.injEq]
  exact ⟨hweights, ⟨h.standard.trans h'.standard.symm, hoverrides⟩,
    h.idenLen.trans h'.idenLen.symm, h.andLimit.trans h'.andLimit.symm,
    h.andDecay.trans h'.andDecay.symm, h.selectLimit.trans h'.selectLimit.symm,
    h.numQueries.trans h'.numQueries.symm, h.lenQueries.trans h'.lenQueries.symm,
    h.comment.trans h'.comment.symm, h.timeout.trans h'.timeout.symm,
    h.allowError.trans h'.allowError.symm, h.lineRefs.trans h'.lineRefs.symm⟩

/-- The preset over the flags over the base. -/
theorem apply_override (preset : Preset) (flags : Flags) (base : Config) :
    Layered preset flags base (preset.apply (flags.override base)) := by
  have hoverrides : ∀ kind, (flags.override base).pools.overrides.get kind =
      (flags.poolSizes.get kind).or (base.pools.overrides.get kind) := by
    intro kind
    simp only [Flags.override, PerKind.get_ofFn]
    cases flags.poolSizes.get kind <;> rfl
  have hcounts : ∀ sizes : PoolSizes, sizes.overrides = (flags.override base).pools.overrides →
      ∀ kind, sizes.count kind =
        ((flags.poolSizes.get kind).or (base.pools.overrides.get kind)).elim sizes.standard
          fun count => if 0 ≤ count then count.toUInt64 else sizes.standard := by
    intro sizes hsizes kind
    rw [PoolSizes.count, hsizes, hoverrides kind]
    cases (flags.poolSizes.get kind).or (base.pools.overrides.get kind) <;> rfl
  have hweights : ∀ group, (flags.override base).weights.get group =
      (flags.weights.get group).getD (base.weights.get group) :=
    PerGroup.get_override base.weights flags.weights
  cases hchange : preset.select.change? with
  | none =>
      have happly : preset.apply (flags.override base) = flags.override base := by
        simp only [Preset.apply, hchange]
      rw [happly]
      refine ⟨fun group => ?_, ?_, hoverrides, hcounts _ rfl, ?_, ?_, rfl, rfl, ?_, ?_, ?_,
        rfl, rfl, rfl⟩
      · simp only [Preset.weights?, hchange, Option.bind_none, Option.none_or]
        exact hweights group
      all_goals simp only [Preset.put?, Preset.comment?, hchange, Option.map_none, Option.none_or]
      all_goals rfl
  | some change =>
      simp only [Preset.apply, hchange]
      refine ⟨fun group => ?_, ?_, hoverrides, hcounts _ rfl, ?_, ?_, rfl, rfl, ?_, ?_, ?_,
        rfl, rfl, rfl⟩
      -- each list of the preset takes the place of what flags and base make of the group
      · simp only [Preset.weights?, hchange, Option.bind_some, Option.getD_or, ← hweights group]
        cases group <;> rfl
      all_goals simp only [Preset.put?, Preset.comment?, hchange, Option.map_some, Option.some_or]
      all_goals rfl

end Layered

namespace Flags

open FileTree

variable {flags : Flags} {tree : FileTree}

/-! ## The base -/

/-- The configuration that the flags start from, or why there is none. -/
inductive Loads (flags : Flags) (tree : FileTree) : Except ResolveError Config → Prop
  | standard (hfile : flags.file = none) : Loads flags tree (.ok {})
  | file {path text : String} {base : Config} (hfile : flags.file = some path)
      (hread : tree.read (pathNames path) = .ok text) (hconfig : Config.ofFile text = .ok base) :
      Loads flags tree (.ok base)
  | unreadable {path : String} {cause : FileError} (hfile : flags.file = some path)
      (hread : tree.read (pathNames path) = .error cause) :
      Loads flags tree (.error (.fileUnreadable path cause))
  | invalid {path text : String} {cause : ConfigFileError} (hfile : flags.file = some path)
      (hread : tree.read (pathNames path) = .ok text)
      (hconfig : Config.ofFile text = .error cause) :
      Loads flags tree (.error (.fileInvalid path cause))

theorem exists_loads (flags : Flags) (tree : FileTree) : ∃ outcome, flags.Loads tree outcome := by
  cases hfile : flags.file with
  | none => exact ⟨_, .standard hfile⟩
  | some path =>
      cases hread : tree.read (pathNames path) with
      | error cause => exact ⟨_, .unreadable hfile hread⟩
      | ok text =>
          cases hconfig : Config.ofFile text with
          | error cause => exact ⟨_, .invalid hfile hread hconfig⟩
          | ok config => exact ⟨_, .file hfile hread hconfig⟩

theorem Loads.run_base {outcome : Except ResolveError Config} (h : flags.Loads tree outcome) :
    tree.run flags.base.run = (outcome, tree) := by
  have hstep : ∀ path, tree.run (ExceptT.lift (Files.read path) :
      ExceptT ResolveError (StateM FileTree) _).run = (.ok (tree.read (pathNames path)), tree) :=
    fun _ => rfl
  cases h with
  | standard hfile =>
      simp only [base, hfile]
      rfl
  | unreadable hfile hread =>
      simp only [base, hfile, run_bind_of_ok (hstep _), hread]
      rfl
  | file hfile hread hconfig | invalid hfile hread hconfig =>
      simp only [base, hfile, run_bind_of_ok (hstep _), hread, hconfig]
      rfl

/-! ## The preset -/

/-- The preset that the flags ask for, which has no effect if they ask for none, or
what is wrong with its indices. -/
inductive Asks (flags : Flags) : Except ResolveError Preset → Prop
  | nothing (h : flags.preset = none) : Asks flags (.ok ⟨.none, .iterationMix⟩)
  | pair {select family : UInt8} {preset : Preset} (h : flags.preset = some [select, family])
      (hselect : SelectPreset.all[select.toNat]? = some preset.select)
      (hfamily : FamilyPreset.all[family.toNat]? = some preset.family) : Asks flags (.ok preset)
  | count {indices : List UInt8} (h : flags.preset = some indices) (hlength : indices.length ≠ 2) :
      Asks flags (.error (.presetCount indices.length))
  | select {select family : UInt8} (h : flags.preset = some [select, family])
      (hselect : 3 < select) : Asks flags (.error (.setting (.selectPreset select)))
  | family {select family : UInt8} (h : flags.preset = some [select, family])
      (hselect : select ≤ 3) (hfamily : 16 < family) :
      Asks flags (.error (.setting (.familyPreset family)))

theorem ofIndex_select (index : UInt8) :
    (SelectPreset.ofIndex index = .error (.selectPreset index) ∧ 3 < index) ∨
      ∃ preset, SelectPreset.ofIndex index = .ok preset ∧
        SelectPreset.all[index.toNat]? = some preset ∧ index ≤ 3 := by
  cases hfound : SelectPreset.all[index.toNat]? with
  | none =>
      have hindex : 4 ≤ index.toNat := List.getElem?_eq_none_iff.mp hfound
      refine .inl ⟨by simp only [SelectPreset.ofIndex, hfound], ?_⟩
      exact UInt8.lt_iff_toNat_lt.mpr hindex
  | some preset =>
      have hindex : index.toNat < 4 := (List.getElem?_eq_some_iff.mp hfound).1
      refine .inr ⟨preset, by simp only [SelectPreset.ofIndex, hfound], rfl, ?_⟩
      exact UInt8.le_iff_toNat_le.mpr (Nat.le_of_lt_succ hindex)

theorem ofIndex_family (index : UInt8) :
    (FamilyPreset.ofIndex index = .error (.familyPreset index) ∧ 16 < index) ∨
      ∃ preset, FamilyPreset.ofIndex index = .ok preset ∧
        FamilyPreset.all[index.toNat]? = some preset ∧ index ≤ 16 := by
  cases hfound : FamilyPreset.all[index.toNat]? with
  | none =>
      have hindex : 17 ≤ index.toNat := List.getElem?_eq_none_iff.mp hfound
      refine .inl ⟨by simp only [FamilyPreset.ofIndex, hfound], ?_⟩
      exact UInt8.lt_iff_toNat_lt.mpr hindex
  | some preset =>
      have hindex : index.toNat < 17 := (List.getElem?_eq_some_iff.mp hfound).1
      refine .inr ⟨preset, by simp only [FamilyPreset.ofIndex, hfound], rfl, ?_⟩
      exact UInt8.le_iff_toNat_le.mpr (Nat.le_of_lt_succ hindex)

theorem asks_preset? (flags : Flags) : flags.Asks flags.preset? := by
  match hpreset : flags.preset with
  | none =>
      have h : flags.preset? = .ok {} := by simp only [preset?, hpreset]
      exact h ▸ .nothing hpreset
  | some [select, family] =>
      have h : flags.preset? = (Preset.ofIndices select family).mapError .setting := by
        simp only [preset?, hpreset]
      rw [h, Preset.ofIndices]
      rcases ofIndex_select select with ⟨heq, hlt⟩ | ⟨first, heq, hfirst, hle⟩
      · rw [heq]
        exact .select hpreset hlt
      · rw [heq]
        rcases ofIndex_family family with ⟨heq, hlt⟩ | ⟨second, heq, hsecond, -⟩
        · rw [heq]
          exact .family hpreset hle hlt
        · rw [heq]
          exact .pair hpreset hfirst hsecond
  | some [] =>
      have h : flags.preset? = .error (.presetCount 0) := by simp only [preset?, hpreset]; rfl
      exact h ▸ .count hpreset (by simp)
  | some [index] =>
      have h : flags.preset? = .error (.presetCount 1) := by simp only [preset?, hpreset]; rfl
      exact h ▸ .count hpreset (by simp)
  | some (first :: second :: third :: rest) =>
      have h : flags.preset? = .error (.presetCount (first :: second :: third :: rest).length) := by
        simp only [preset?, hpreset]
      exact h ▸ .count hpreset (by simp)

theorem Asks.eq_preset? {outcome : Except ResolveError Preset} (h : flags.Asks outcome) :
    outcome = flags.preset? := by
  cases h with
  | nothing h => simp only [preset?, h]
  | pair h hselect hfamily =>
      simp only [preset?, h, Preset.ofIndices, SelectPreset.ofIndex, hselect,
        FamilyPreset.ofIndex, hfamily]
      rfl
  | @count indices h hlength =>
      simp only [preset?, h]
      split
      · contradiction
      · simp_all
      · simp_all
  | @select select family h hselect =>
      rcases ofIndex_select select with ⟨heq, -⟩ | ⟨-, -, -, hle⟩
      · simp only [preset?, h, Preset.ofIndices, heq]
        rfl
      · exact absurd hselect (UInt8.not_lt.mpr hle)
  | @family select family h hselect hfamily =>
      rcases ofIndex_select select with ⟨-, hlt⟩ | ⟨first, hfirst, -, -⟩
      · exact absurd hlt (UInt8.not_lt.mpr hselect)
      rcases ofIndex_family family with ⟨heq, -⟩ | ⟨second, -, -, hle⟩
      · simp only [preset?, h, Preset.ofIndices, hfirst, heq]
        rfl
      · exact absurd hfamily (UInt8.not_lt.mpr hle)

/-! ## The outcome -/

/-- What becomes of the flags.  The base comes first, then the preset, then the check
of the layers put together; the first fault decides. -/
inductive Resolves (flags : Flags) (tree : FileTree) : Except ResolveError Config → Prop
  | unloaded {cause : ResolveError} (hbase : flags.Loads tree (.error cause)) :
      Resolves flags tree (.error cause)
  | misnamed {base : Config} {cause : ResolveError} (hbase : flags.Loads tree (.ok base))
      (hpreset : flags.Asks (.error cause)) : Resolves flags tree (.error cause)
  | refused {base config : Config} {preset : Preset} {cause : SettingError}
      (hbase : flags.Loads tree (.ok base)) (hpreset : flags.Asks (.ok preset))
      (hconfig : Layered preset flags base config) (hcheck : config.check = .error cause) :
      Resolves flags tree (.error (.setting cause))
  | resolved {base config : Config} {preset : Preset} (hbase : flags.Loads tree (.ok base))
      (hpreset : flags.Asks (.ok preset)) (hconfig : Layered preset flags base config)
      (hcheck : config.check = .ok ()) : Resolves flags tree (.ok config)

theorem exists_resolves (flags : Flags) (tree : FileTree) :
    ∃ outcome, flags.Resolves tree outcome := by
  obtain ⟨loaded, hbase⟩ := flags.exists_loads tree
  cases loaded with
  | error cause => exact ⟨_, .unloaded hbase⟩
  | ok base =>
      have hpreset := flags.asks_preset?
      cases hasked : flags.preset? with
      | error cause => exact ⟨_, .misnamed hbase (hasked ▸ hpreset)⟩
      | ok preset =>
          rw [hasked] at hpreset
          have hconfig := Layered.apply_override preset flags base
          cases hcheck : (preset.apply (flags.override base)).check with
          | error cause => exact ⟨_, .refused hbase hpreset hconfig hcheck⟩
          | ok checked => exact ⟨_, .resolved hbase hpreset hconfig hcheck⟩

theorem Resolves.run_resolve {outcome : Except ResolveError Config}
    (h : flags.Resolves tree outcome) : tree.run flags.resolve.run = (outcome, tree) := by
  cases h with
  | unloaded hbase => exact run_bind_of_error hbase.run_base
  | @misnamed base cause hbase hpreset =>
      have hover : flags.resolveOver base = .error cause := by
        rw [resolveOver, ← hpreset.eq_preset?]
        rfl
      rw [← hover]
      exact run_bind_of_ok hbase.run_base
  | @refused base config preset cause hbase hpreset hconfig hcheck =>
      have hover : flags.resolveOver base = .error (.setting cause) := by
        simp only [resolveOver, ← hpreset.eq_preset?, bind, Except.bind,
          ← hconfig.unique (.apply_override preset flags base), hcheck]
        rfl
      rw [← hover]
      exact run_bind_of_ok hbase.run_base
  | @resolved base config preset hbase hpreset hconfig hcheck =>
      have hover : flags.resolveOver base = .ok config := by
        simp only [resolveOver, ← hpreset.eq_preset?, bind, Except.bind,
          ← hconfig.unique (.apply_override preset flags base), hcheck]
        rfl
      rw [← hover]
      exact run_bind_of_ok hbase.run_base

/-- Resolving leaves the files as they are, and answers with the checked layers or
with the first fault.  Every layer has its settings from options of their own. -/
theorem run_resolve_iff (flags : Flags) (tree after : FileTree)
    (outcome : Except ResolveError Config) (reading : Arguments.Reading) :
    (tree.run flags.resolve.run = (outcome, after) ↔
      after = tree ∧ flags.Resolves tree outcome) ∧
    (Invocation.readFlags reading = .ok flags ↔ flags.Given reading) := by
  refine ⟨⟨fun h => ?_, ?_⟩, readFlags_eq_ok_iff⟩
  · obtain ⟨found, hfound⟩ := flags.exists_resolves tree
    cases hfound.run_resolve.symm.trans h
    exact ⟨rfl, hfound⟩
  · rintro ⟨rfl, h⟩
    exact h.run_resolve

end Flags

end QuerySynth
