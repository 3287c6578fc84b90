import QuerySynth.Command.Arguments
import QuerySynth.Command.Flags
import QuerySynth.Decimal.Layout

/-!
# Invocations

What an argument list asks for: the version, the list of presets, a resolved
configuration, or query files.
-/

namespace QuerySynth

/-- What query files are made from. -/
structure GenerateArgs where
  flags : Flags := {}
  numFiles : UInt64 := 1
  /-- The number of the first file. -/
  start : UInt64 := 1
  /-- The directory of the files. -/
  directory : String := "queries"
  seed : UInt64 := 42
  procedureFile : Option String := none
  variableFile : Option String := none
  constantFile : Option String := none
  /-- What separates the literals on a line. -/
  delimiter : String := " "

/-- A request. -/
inductive Invocation where
  | version
  | presets
  | config (flags : Flags)
  | generate (args : GenerateArgs)

namespace Invocation

open Arguments

/-- The switch for log output; nothing is logged. -/
def verbose : Spec := { name := "verbose", arity := .flag, letter := some 'v' }

/-- The name of the option for the pool size of a kind. -/
def poolOption : Kind → String
  | .procedure => "num-proc"
  | .progLine => "num-progl"
  | .stmt => "num-stmt"
  | .read => "num-read"
  | .print => "num-print"
  | .call => "num-call"
  | .whileStmt => "num-while"
  | .ifStmt => "num-if"
  | .assign => "num-assign"
  | .var => "num-var"
  | .const => "num-const"

/-- The name of the option for a group of weights. -/
def weightOption : WeightGroup → String
  | .result => "weight-result"
  | .tuple => "weight-tuple"
  | .elem => "weight-elem"
  | .clauseFamily => "weight-select"
  | .relation => "weight-suchthat"
  | .transitive => "weight-transitive"
  | .withRef => "weight-with"
  | .attrName => "weight-attr"
  | .pattern => "weight-pattern"

/-- The options for settings. -/
def settingSpecs : List Spec :=
  ["config", "num-queries", "len-queries", "num-syn", "iden-len", "and-limit", "and-decay",
    "select-limit", "timing"].map ({ name := · }) ++
  Kind.all.map (fun kind => { name := poolOption kind, negative := true }) ++
  WeightGroup.all.map (fun group => { name := weightOption group, arity := .several }) ++
  [{ name := "allow-error", arity := .flag }, { name := "line-refs", arity := .flag },
    { name := "comment", arity := .several }, { name := "preset", arity := .two }, verbose]

/-- The options for query files. -/
def generateSpecs : List Spec :=
  settingSpecs ++
    ["num-files", "start", "out", "seed", "proc", "var", "const", "delim"].map ({ name := · })

/-- A path, which has at least one character. -/
def path? (text : String) : Option String := if text.isEmpty then none else some text

/-- The settings among the options. -/
def readFlags (reading : Reading) : Except UsageError Flags := do
  return {
    file := ← reading.one? "config" path?
    numQueries := ← reading.one? "num-queries" Decimal.word64?
    lenQueries := ← reading.one? "len-queries" Decimal.word64?
    poolSize := ← reading.one? "num-syn" Decimal.word64?
    poolSizes := ← PerKind.generate fun kind =>
      reading.one? (poolOption kind) Decimal.integer64?
    weights := ← PerGroup.generate fun group =>
      reading.several? (weightOption group) Decimal.word32?
    idenLen := ← reading.one? "iden-len" Decimal.word64?
    andLimit := ← reading.one? "and-limit" Decimal.word64?
    andDecay := ← reading.one? "and-decay" Decimal.float?
    selectLimit := ← reading.one? "select-limit" Decimal.word64?
    timeout := ← reading.one? "timing" some
    allowError := reading.has "allow-error"
    lineRefs := reading.has "line-refs"
    comment := ← reading.several? "comment" some
    preset := ← reading.several? "preset" Decimal.byte? }

/-- The request for query files among the options. -/
def readGenerate (reading : Reading) : Except UsageError GenerateArgs := do
  let standard : GenerateArgs := {}
  return {
    flags := ← readFlags reading
    numFiles := (← reading.one? "num-files" Decimal.word64?).getD standard.numFiles
    start := (← reading.one? "start" Decimal.word64?).getD standard.start
    directory := (← reading.one? "out" path?).getD standard.directory
    seed := (← reading.one? "seed" Decimal.word64?).getD standard.seed
    procedureFile := ← reading.one? "proc" path?
    variableFile := ← reading.one? "var" path?
    constantFile := ← reading.one? "const" path?
    delimiter := (← reading.one? "delim" some).getD standard.delimiter }

/-- The request of a subcommand with its arguments. -/
def readCommand (name : String) (arguments : List String) : Except UsageError Invocation :=
  if name = "generate" then
    return .generate (← readGenerate (← Arguments.read generateSpecs [] none arguments))
  else if name = "presets" then do
    let _ ← Arguments.read [verbose] [] none arguments
    return .presets
  else if name = "config" then
    return .config (← readFlags (← Arguments.read settingSpecs [] none arguments))
  else .error (.unknown name)

/-- Reads letters in front of the subcommand; true if the version is asked for. -/
def readLetters (argument : String) (reading : Reading) :
    List Char → Except UsageError (Reading × Bool)
  | [] => .ok (reading, false)
  | 'V' :: _ => .ok (reading, true)
  | letter :: rest => do
      readLetters argument (← reading.addLetters [verbose] argument [letter]) rest

/-- Reads an argument list: switches, a subcommand and its arguments.  The
version is shown as soon as it is asked for. -/
def readAll (reading : Reading) : List String → Except UsageError Invocation
  | [] => .error .noCommand
  | argument :: rest =>
      match argument.toList with
      | '-' :: '-' :: _ =>
          if argument = "--version" then .ok .version
          else if argument = "--verbose" then do readAll (← reading.add ⟨verbose, []⟩) rest
          else .error (.unknown argument)
      | '-' :: letter :: letters => do
          match ← readLetters argument reading (letter :: letters) with
          | (_, true) => return .version
          | (reading, false) => readAll reading rest
      | _ => readCommand argument rest

/-- The request of an argument list. -/
def ofArguments (arguments : List String) : Except UsageError Invocation :=
  readAll [] arguments

end Invocation

end QuerySynth
