import QuerySynth.Command.Invocation
import QuerySynth.Config.Report
import QuerySynth.Generate.Batch
import QuerySynth.Random.Keystream

/-!
# Runs

A run answers an argument list with an exit code and two texts, and may add
queries to files.  Everything that can fail before the first query is tried
before the first file is touched.
-/

namespace QuerySynth

/-- What a run shows. -/
structure Report where
  code : UInt32 := 0
  /-- The text on standard output. -/
  output : String := ""
  /-- The text on standard error. -/
  errors : String := ""
  deriving DecidableEq, Repr

/-- Why a run failed. -/
inductive RunError where
  | resolve (cause : ResolveError)
  /-- The file for a list of literals is missing. -/
  | literalsMissing (what path : String)
  | literalsUnreadable (what path : String) (cause : FileError)
  | setting (cause : SettingError)
  /-- The number of the last file is too large. -/
  | indexOverflow (start count : UInt64)
  | directory (path : String) (cause : FileError)
  | file (path : String) (cause : FileError)
  /-- A query for this file could not be drawn. -/
  | undrawable (path : String) (index : Nat) (cause : ChoiceError)
  /-- The random words allowed for the run are used up. -/
  | exhausted
  deriving DecidableEq

/-- The texts shown for a failure, outermost first. -/
def RunError.messages : RunError → List String
  | .resolve cause => cause.messages
  | .literalsMissing what path =>
      [what ++ " identifier file does not exist: " ++ path]
  | .literalsUnreadable what path cause =>
      ["failed to read " ++ what ++ " identifiers from " ++ path, cause.message]
  | .setting cause => [cause.message]
  | .indexOverflow start count =>
      ["--start " ++ start.toNat.repr ++ " + --num-files " ++ count.toNat.repr ++ " overflows"]
  | .directory path cause => ["failed to create output directory " ++ path, cause.message]
  | .file path cause => ["failed to open " ++ path, cause.message]
  | .undrawable path index cause =>
      ["generator configuration cannot produce queries for " ++ path,
        (BatchStop.undrawable index cause).message, cause.message]
  | .exhausted => ["random words are used up"]

/-- Text behind a first line is indented by so many spaces. -/
def indentRest (spaces : Nat) (text : String) : String :=
  ("\n" ++ String.ofList (List.replicate spaces ' ')).intercalate
    ((Text.piecesAt '\n' text.toList).map String.ofList)

/-- The text of a failure: the outermost message, and under it the causes, with
numbers if there are several. -/
def renderMessages : List String → String
  | [] => "Error: \n"
  | [outer] => "Error: " ++ outer ++ "\n"
  | [outer, cause] =>
      "Error: " ++ outer ++ "\n\nCaused by:\n    " ++ indentRest 4 cause ++ "\n"
  | outer :: causes =>
      "Error: " ++ outer ++ "\n\nCaused by:\n" ++
        String.join (causes.zipIdx.map fun (cause, i) =>
          "    " ++ i.repr ++ ": " ++ indentRest 7 cause ++ "\n")

/-- The report of a failed run, behind what was shown before. -/
def Report.failed (shown : String) (cause : RunError) : Report :=
  { code := 1, errors := shown ++ renderMessages cause.messages }

/-- The path of a numbered file. -/
def queryFile (directory : String) (index : Nat) : String :=
  joinPath directory ("queries_" ++ index.repr ++ ".txt")

/-- The line shown for a file that was written. -/
def wroteLine (path : String) (count : Nat) : String :=
  "wrote " ++ path ++ " (" ++ count.repr ++ " queries)\n"

/-- The line shown at the end of a run. -/
def doneLine (total : Nat) (args : GenerateArgs) : String :=
  "ok generated " ++ total.repr ++ " queries across " ++ args.numFiles.toNat.repr ++
    " file(s) (seed " ++ args.seed.toNat.repr ++ ")\n"

/-- The index of a preset at the right of two places. -/
def indexText (index : Nat) : String :=
  if index < 10 then " " ++ index.repr else index.repr

/-- The list of presets. -/
def presetList : String :=
  let selects := SelectPreset.all.zipIdx.filterMap fun (preset, i) =>
    preset.change?.map fun change => "  " ++ i.repr ++ " " ++ change.label ++ "\n"
  let families := FamilyPreset.all.zipIdx.map fun (preset, i) =>
    "  " ++ indexText i ++ " " ++ preset.change.label ++ "\n"
  let sample : Preset := ⟨.boolean, .relation .modifies false⟩
  "select presets\n" ++ String.join selects ++ "  0 none (presets disabled)\n" ++
    "family presets\n" ++ String.join families ++
    "example: --preset 1 8 writes `" ++ sample.comment?.getD "" ++ "`\n"

section

variable {m : Type → Type} [Monad m] [Files m]

/-- The literals of a file, if there is one. -/
def readLiterals (what : String) (delimiter : String) (path : Option String) :
    ExceptT RunError m (List String) := do
  match path with
  | none => return []
  | some path =>
      if ← ExceptT.lift (Files.present (m := m) path) then
        match ← ExceptT.lift (Files.read (m := m) path) with
        | .ok text => return Text.entries text delimiter
        | .error cause => throw (.literalsUnreadable what path cause)
      else throw (.literalsMissing what path)

/-- The literals of all files. -/
def GenerateArgs.literals (args : GenerateArgs) : ExceptT RunError m Literals := do
  let procedureNames ← readLiterals "procedure" args.delimiter args.procedureFile
  let variableNames ← readLiterals "variable" args.delimiter args.variableFile
  let constants ← readLiterals "constant" args.delimiter args.constantFile
  return { procedureNames, variableNames, constants }

/-- Everything that queries are drawn from, with the words behind the pool.
The configuration was checked when it was resolved. -/
def GenerateArgs.prepare (args : GenerateArgs) (words : Nat) :
    ExceptT RunError m (Setup × Metered Keystream) := do
  let config ←
    ExceptT.mk (do return (← args.flags.resolve.run).mapError RunError.resolve)
  let literals ← args.literals
  let source : Metered Keystream := ⟨.ofSeed args.seed, words⟩
  match (Pool.generate config.pools config.idenLen.toNat).run source with
  | none => throw .exhausted
  | some (.error cause, _) => throw (.setting cause)
  | some (.ok pool, source) =>
      if UInt64.size ≤ args.start.toNat + args.numFiles.toNat then
        throw (.indexOverflow args.start args.numFiles)
      return (⟨config, pool, literals⟩, source)

/-- Writes `n` files, numbered from `index` on.  The answer is the text shown
and the number of queries, or why there are no more. -/
def Setup.writeFiles (setup : Setup) (directory : String) (source : Metered Keystream)
    (index : Nat) : Nat → m (String × Except RunError Nat)
  | 0 => return ("", .ok 0)
  | n + 1 => do
      let path := queryFile directory index
      match (setup.write none).run source with
      | none => return ("", .error .exhausted)
      | some (batch, source) =>
          match ← Files.append path batch.text with
          | .error cause => return ("", .error (.file path cause))
          | .ok () =>
              match batch.stop with
              | some (.undrawable index cause) =>
                  return ("", .error (.undrawable path index cause))
              | _ => do
                  let count := batch.texts.length
                  let (shown, result) ← setup.writeFiles directory source (index + 1) n
                  return (wroteLine path count ++ shown, result.map (count + ·))

/-- Makes query files, from at most so many random words. -/
def GenerateArgs.run (args : GenerateArgs) (words : Nat) : m Report := do
  match ← (args.prepare words).run with
  | .error cause => return .failed "" cause
  | .ok (setup, source) =>
      match ← createDirectories args.directory with
      | .error cause => return .failed "" (.directory args.directory cause)
      | .ok () =>
          match ← setup.writeFiles args.directory source args.start.toNat args.numFiles.toNat with
          | (shown, .ok total) => return { errors := shown ++ doneLine total args }
          | (shown, .error cause) => return .failed shown cause

/-- Answers a request. -/
def Invocation.run (words : Nat) : Invocation → m Report
  | .version => return { output := "pqlgen 0.3.0\n" }
  | .presets => return { output := presetList }
  | .config flags => do
      match ← flags.resolve.run with
      | .error cause => return .failed "" (.resolve cause)
      | .ok resolved => return { output := resolved.report.render 0 ++ "\n" }
  | .generate args => args.run words

/-- The random words allowed for a run: more than can be drawn. -/
def allowedWords : Nat := Nat.pow 2 62

/-- Answers an argument list. -/
def runArguments (arguments : List String) : m Report :=
  match Invocation.ofArguments arguments with
  | .ok invocation => invocation.run allowedWords
  | .error cause => return { code := 2, errors := "error: " ++ cause.message ++ "\n" }

end

end QuerySynth
