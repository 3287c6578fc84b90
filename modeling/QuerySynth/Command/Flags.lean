import QuerySynth.Command.Files
import QuerySynth.Config.File
import QuerySynth.Config.Preset

/-!
# Settings from flags

A configuration is resolved in layers: the standard one or a file, then the
flags, then the preset.  The result is checked.
-/

namespace QuerySynth

/-- The settings given as flags. -/
structure Flags where
  /-- The file that replaces the standard configuration. -/
  file : Option String := none
  numQueries : Option UInt64 := none
  lenQueries : Option UInt64 := none
  poolSize : Option UInt64 := none
  poolSizes : PerKind (Option Int64) := .fill none
  weights : PerGroup (Option (List UInt32)) := .none
  idenLen : Option UInt64 := none
  andLimit : Option UInt64 := none
  andDecay : Option Float := none
  selectLimit : Option UInt64 := none
  timeout : Option String := none
  allowError : Bool := false
  lineRefs : Bool := false
  /-- The words of the comment. -/
  comment : Option (List String) := none
  /-- The indices of a preset. -/
  preset : Option (List UInt8) := none

/-- Why no configuration could be resolved. -/
inductive ResolveError where
  | fileUnreadable (path : String) (cause : FileError)
  | fileInvalid (path : String) (cause : ConfigFileError)
  /-- A preset was given by some other number of indices than two. -/
  | presetCount (count : Nat)
  | setting (cause : SettingError)
  deriving DecidableEq

/-- The texts shown for a failure, outermost first. -/
def ResolveError.messages : ResolveError → List String
  | .fileUnreadable path cause => ["failed to read config file " ++ path, cause.message]
  | .fileInvalid path cause => ["invalid config file " ++ path, cause.message]
  | .presetCount count => ["--preset expects two values, got " ++ count.repr]
  | .setting cause => [cause.message]

namespace Flags

/-- A configuration with the flags that are given. -/
def override (flags : Flags) (base : Config) : Config where
  weights := base.weights.override flags.weights
  pools :=
    { standard := flags.poolSize.getD base.pools.standard
      overrides := .ofFn fun kind =>
        flags.poolSizes.get kind <|> base.pools.overrides.get kind }
  idenLen := flags.idenLen.getD base.idenLen
  andLimit := flags.andLimit.getD base.andLimit
  andDecay := flags.andDecay.getD base.andDecay
  selectLimit := flags.selectLimit.getD base.selectLimit
  numQueries := flags.numQueries.getD base.numQueries
  lenQueries := flags.lenQueries.getD base.lenQueries
  comment := (flags.comment.map " ".intercalate).getD base.comment
  timeout := flags.timeout.getD base.timeout
  allowError := base.allowError || flags.allowError
  lineRefs := base.lineRefs || flags.lineRefs

/-- The preset that the flags ask for. -/
def preset? (flags : Flags) : Except ResolveError Preset :=
  match flags.preset with
  | none => .ok {}
  | some [select, family] => (Preset.ofIndices select family).mapError .setting
  | some indices => .error (.presetCount indices.length)

/-- The configuration of the flags over a base. -/
def resolveOver (flags : Flags) (base : Config) : Except ResolveError Config := do
  let config := (← flags.preset?).apply (flags.override base)
  config.check.mapError .setting
  return config

variable {m : Type → Type} [Monad m] [Files m]

/-- The configuration that the flags start from. -/
def base (flags : Flags) : ExceptT ResolveError m Config := do
  match flags.file with
  | none => return {}
  | some path =>
      match ← ExceptT.lift (Files.read (m := m) path) with
      | .error cause => throw (.fileUnreadable path cause)
      | .ok text =>
          match Config.ofFile text with
          | .error cause => throw (.fileInvalid path cause)
          | .ok config => return config

/-- The configuration of the flags. -/
def resolve (flags : Flags) : ExceptT ResolveError m Config := do
  let base ← flags.base
  ExceptT.mk (pure (flags.resolveOver base))

end Flags

end QuerySynth
