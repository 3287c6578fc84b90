import QuerySynth.Command.Invocation
import QuerySynth.Proofs.Command.Arguments

/-!
# The options of requests

The options can be told apart.  Flags are read off them, each setting off an option of its
own, and so is a request for query files.
-/

namespace QuerySynth

namespace Invocation

open Arguments

theorem settingSpecs_subset_generateSpecs : settingSpecs ⊆ generateSpecs :=
  List.subset_append_left _ _

theorem generateSpecs_distinct : Distinct generateSpecs where
  names := by decide +kernel
  plain := by decide +kernel

theorem settingSpecs_distinct : Distinct settingSpecs where
  names := by
    have hnames := generateSpecs_distinct.names
    rw [generateSpecs, List.map_append] at hnames
    exact (List.nodup_append.mp hnames).1
  plain spec hspec := generateSpecs_distinct.plain spec (settingSpecs_subset_generateSpecs hspec)

end Invocation

namespace Flags

open Arguments Invocation

/-- Every setting of the flags is what its own option says. -/
structure Given (flags : Flags) (reading : Reading) : Prop where
  file : reading.one? "config" path? = .ok flags.file
  numQueries : reading.one? "num-queries" Decimal.word64? = .ok flags.numQueries
  lenQueries : reading.one? "len-queries" Decimal.word64? = .ok flags.lenQueries
  poolSize : reading.one? "num-syn" Decimal.word64? = .ok flags.poolSize
  poolSizes : ∀ size ∈
      [("num-proc", flags.poolSizes.procedure), ("num-progl", flags.poolSizes.progLine),
        ("num-stmt", flags.poolSizes.stmt), ("num-read", flags.poolSizes.read),
        ("num-print", flags.poolSizes.print), ("num-call", flags.poolSizes.call),
        ("num-while", flags.poolSizes.whileStmt), ("num-if", flags.poolSizes.ifStmt),
        ("num-assign", flags.poolSizes.assign), ("num-var", flags.poolSizes.var),
        ("num-const", flags.poolSizes.const)],
    reading.one? size.1 Decimal.integer64? = .ok size.2
  weights : ∀ group ∈
      [("weight-result", flags.weights.result), ("weight-tuple", flags.weights.tuple),
        ("weight-elem", flags.weights.elem), ("weight-select", flags.weights.clauseFamily),
        ("weight-suchthat", flags.weights.relation),
        ("weight-transitive", flags.weights.transitive),
        ("weight-with", flags.weights.withRef), ("weight-attr", flags.weights.attrName),
        ("weight-pattern", flags.weights.pattern)],
    reading.several? group.1 Decimal.word32? = .ok group.2
  idenLen : reading.one? "iden-len" Decimal.word64? = .ok flags.idenLen
  andLimit : reading.one? "and-limit" Decimal.word64? = .ok flags.andLimit
  andDecay : reading.one? "and-decay" Decimal.float? = .ok flags.andDecay
  selectLimit : reading.one? "select-limit" Decimal.word64? = .ok flags.selectLimit
  timeout : reading.one? "timing" some = .ok flags.timeout
  allowError : reading.has "allow-error" = flags.allowError
  lineRefs : reading.has "line-refs" = flags.lineRefs
  comment : reading.several? "comment" some = .ok flags.comment
  preset : reading.several? "preset" Decimal.byte? = .ok flags.preset

theorem Given.poolSizes_get {flags : Flags} {reading : Reading} (h : flags.Given reading)
    (kind : Kind) :
    reading.one? (poolOption kind) Decimal.integer64? = .ok (flags.poolSizes.get kind) :=
  h.poolSizes (poolOption kind, flags.poolSizes.get kind)
    (by cases kind <;> simp [poolOption, PerKind.get])

theorem Given.weights_get {flags : Flags} {reading : Reading} (h : flags.Given reading)
    (group : WeightGroup) :
    reading.several? (weightOption group) Decimal.word32? = .ok (flags.weights.get group) :=
  h.weights (weightOption group, flags.weights.get group)
    (by cases group <;> simp [weightOption, PerGroup.get])

theorem readFlags_eq_ok_iff {reading : Reading} {flags : Flags} :
    readFlags reading = .ok flags ↔ flags.Given reading := by
  simp only [readFlags, bind_eq_ok_iff, PerKind.generate_eq_ok_iff, PerGroup.generate_eq_ok_iff,
    pure, Except.pure, Except.ok.injEq]
  constructor
  · rintro ⟨_, file, _, numQueries, _, lenQueries, _, poolSize, _, poolSizes, _, weights,
      _, idenLen, _, andLimit, _, andDecay, _, selectLimit, _, timeout, _, comment, _, preset, rfl⟩
    refine ⟨file, numQueries, lenQueries, poolSize, ?_, ?_, idenLen, andLimit, andDecay,
      selectLimit, timeout, rfl, rfl, comment, preset⟩
    · simpa only [List.forall_mem_cons] using ⟨poolSizes .procedure, poolSizes .progLine,
        poolSizes .stmt, poolSizes .read, poolSizes .print, poolSizes .call, poolSizes .whileStmt,
        poolSizes .ifStmt, poolSizes .assign, poolSizes .var, poolSizes .const, nofun⟩
    · simpa only [List.forall_mem_cons] using ⟨weights .result, weights .tuple, weights .elem,
        weights .clauseFamily, weights .relation, weights .transitive, weights .withRef,
        weights .attrName, weights .pattern, nofun⟩
  · intro h
    exact ⟨_, h.file, _, h.numQueries, _, h.lenQueries, _, h.poolSize, _, h.poolSizes_get, _,
      h.weights_get, _, h.idenLen, _, h.andLimit, _, h.andDecay, _, h.selectLimit, _, h.timeout, _,
      h.comment, _, h.preset, by rw [h.allowError, h.lineRefs]⟩

end Flags

/-! ## Query files -/

namespace GenerateArgs

open Arguments Invocation

/-- Everything in the request is what its own option says, or the standard value. -/
structure Given (args : GenerateArgs) (reading : Reading) : Prop where
  flags : args.flags.Given reading
  numFiles : ∃ given, reading.one? "num-files" Decimal.word64? = .ok given ∧
    args.numFiles = given.getD 1
  start : ∃ given, reading.one? "start" Decimal.word64? = .ok given ∧ args.start = given.getD 1
  directory : ∃ given, reading.one? "out" path? = .ok given ∧
    args.directory = given.getD "queries"
  seed : ∃ given, reading.one? "seed" Decimal.word64? = .ok given ∧ args.seed = given.getD 42
  procedureFile : reading.one? "proc" path? = .ok args.procedureFile
  variableFile : reading.one? "var" path? = .ok args.variableFile
  constantFile : reading.one? "const" path? = .ok args.constantFile
  delimiter : ∃ given, reading.one? "delim" some = .ok given ∧ args.delimiter = given.getD " "

theorem readGenerate_eq_ok_iff {reading : Reading} {args : GenerateArgs} :
    readGenerate reading = .ok args ↔ args.Given reading := by
  simp only [readGenerate, bind_eq_ok_iff, Flags.readFlags_eq_ok_iff, pure, Except.pure,
    Except.ok.injEq]
  constructor
  · rintro ⟨_, flags, _, numFiles, _, start, _, directory, _, seed, _, procedureFile, _,
      variableFile, _, constantFile, _, delimiter, rfl⟩
    exact ⟨flags, ⟨_, numFiles, rfl⟩, ⟨_, start, rfl⟩, ⟨_, directory, rfl⟩, ⟨_, seed, rfl⟩,
      procedureFile, variableFile, constantFile, ⟨_, delimiter, rfl⟩⟩
  · intro h
    obtain ⟨_, hnumFiles, numFiles⟩ := h.numFiles
    obtain ⟨_, hstart, start⟩ := h.start
    obtain ⟨_, hdirectory, directory⟩ := h.directory
    obtain ⟨_, hseed, seed⟩ := h.seed
    obtain ⟨_, hdelimiter, delimiter⟩ := h.delimiter
    refine ⟨_, h.flags, _, hnumFiles, _, hstart, _, hdirectory, _, hseed, _, h.procedureFile, _,
      h.variableFile, _, h.constantFile, _, hdelimiter, ?_⟩
    rw [← numFiles, ← start, ← directory, ← seed, ← delimiter]

end GenerateArgs

/-! ## Settings in an argument list -/

namespace Flags

open Arguments Invocation

section Arguments

variable {specs : List Spec} {reading : Reading} {flags : Flags} (hspecs : Distinct specs)
  (hsettings : settingSpecs ⊆ specs)

include hspecs hsettings

/-- The size of a pool is the number behind its option, whatever is given after it. -/
theorem poolSizes_of_read {kind : Kind} {value : String} {rest : List String}
    (hvalue : value.toList.head? ≠ some '-')
    (hread : Arguments.read specs [] none (("--" ++ poolOption kind) :: value :: rest) =
      .ok reading)
    (hflags : readFlags reading = .ok flags) :
    ∃ size, Decimal.integer64? value = some size ∧ flags.poolSizes.get kind = some size := by
  have hspec : { name := poolOption kind, negative := true } ∈ settingSpecs := by
    cases kind <;> simp [settingSpecs, Kind.all]
  have hone := one?_of_read hspecs (hsettings hspec) rfl hvalue hread Decimal.integer64?
  rw [(readFlags_eq_ok_iff.mp hflags).poolSizes_get kind, readValue] at hone
  cases hsize : Decimal.integer64? value with
  | none => simp [hsize, Except.map] at hone
  | some size =>
      simp only [hsize, Except.map, Except.ok.injEq] at hone
      exact ⟨size, rfl, hone⟩

/-- The weights of a group are the numbers behind its option. -/
theorem weights_of_read {group : WeightGroup} {values : List String}
    (hvalues : ∀ value ∈ values, value.toList.head? ≠ some '-')
    (hread : Arguments.read specs [] none (("--" ++ weightOption group) :: values) =
      .ok reading)
    (hflags : readFlags reading = .ok flags) :
    ∃ weights, values.mapM (readValue (weightOption group) Decimal.word32?) = .ok weights ∧
      flags.weights.get group = some weights := by
  have hspec : { name := weightOption group, arity := .several } ∈ settingSpecs := by
    cases group <;> simp [settingSpecs, WeightGroup.all]
  have hseveral := several?_of_read hspecs (hsettings hspec) rfl hvalues hread Decimal.word32?
  rw [(readFlags_eq_ok_iff.mp hflags).weights_get group] at hseveral
  have hempty : Reading.values? [] (weightOption group) = none := rfl
  rw [hempty, Option.getD_none, List.nil_append] at hseveral
  cases hweights : values.mapM (readValue (weightOption group) Decimal.word32?) with
  | error cause => simp [hweights, Except.map] at hseveral
  | ok weights =>
      simp only [hweights, Except.map, Except.ok.injEq] at hseveral
      exact ⟨weights, rfl, hseveral⟩

end Arguments

end Flags

end QuerySynth
