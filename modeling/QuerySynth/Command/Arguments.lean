/-!
# Arguments

The form of an argument list: options with two hyphens, each with a fixed
number of values, behind it or behind an equals sign.  An option that takes
several values takes all up to the next argument with a hyphen in front.
-/

namespace QuerySynth.Arguments

/-- How many values an option takes. -/
inductive Arity where
  | flag
  | one
  | two
  /-- One or more. -/
  | several
  deriving DecidableEq, Repr

namespace Arity

/-- Whether an option may have that many values. -/
def admits : Arity → Nat → Bool
  | .flag, n => n == 0
  | .one, n => n == 1
  | .two, n => n == 2
  | .several, n => 0 < n

/-- Whether an option with that many values takes another. -/
def takesMore : Arity → Nat → Bool
  | .flag, _ => false
  | .one, n => n < 1
  | .two, n => n < 2
  | .several, _ => true

/-- Whether an option may be given again. -/
def repeats : Arity → Bool
  | .flag | .one => false
  | .two | .several => true

end Arity

/-- An option. -/
structure Spec where
  name : String
  arity : Arity := .one
  /-- The letter that stands for the option behind a single hyphen. -/
  letter : Option Char := none
  /-- A negative number behind the option is a value of it. -/
  negative : Bool := false
  deriving Repr

/-- An option as it was given. -/
structure Given where
  spec : Spec
  values : List String
  deriving Repr

/-- Why an argument list is refused. -/
inductive UsageError where
  | unknown (argument : String)
  | wrongCount (name : String)
  | repeated (name : String)
  | badValue (name value : String)
  | noCommand
  deriving DecidableEq, Repr

/-- The text shown for a refused argument list. -/
def UsageError.message : UsageError → String
  | .unknown argument => "unexpected argument '" ++ argument ++ "'"
  | .wrongCount name => "wrong number of values for '--" ++ name ++ "'"
  | .repeated name => "the argument '--" ++ name ++ "' cannot be used multiple times"
  | .badValue name value => "invalid value '" ++ value ++ "' for '--" ++ name ++ "'"
  | .noCommand => "a subcommand is required"

/-- Options read so far, the last one first. -/
abbrev Reading := List Given

/-- Adds an option, unless it was given before and may not be again, or has the
wrong number of values. -/
def Reading.add (reading : Reading) (given : Given) : Except UsageError Reading :=
  if !given.spec.arity.admits given.values.length then .error (.wrongCount given.spec.name)
  else if !given.spec.arity.repeats && reading.any (·.spec.name == given.spec.name) then
    .error (.repeated given.spec.name)
  else .ok (given :: reading)

/-- Adds the option whose values are being collected. -/
def Reading.flush (reading : Reading) : Option Given → Except UsageError Reading
  | none => .ok reading
  | some given => reading.add given

/-- Adds the options behind a single hyphen, one letter each. -/
def Reading.addLetters (specs : List Spec) (argument : String) (reading : Reading) :
    List Char → Except UsageError Reading
  | [] => .ok reading
  | letter :: rest =>
      match specs.find? (·.letter == some letter) with
      | none => .error (.unknown argument)
      | some spec => do addLetters specs argument (← reading.add ⟨spec, []⟩) rest

/-- The name of an option and the value behind an equals sign, if there is one. -/
def splitName (text : List Char) : String × Option String :=
  let name := String.ofList (text.takeWhile (· != '='))
  match text.dropWhile (· != '=') with
  | [] => (name, none)
  | _ :: value => (name, some (String.ofList value))

/-- Reads arguments.  `open?` is the option whose values are being collected. -/
def read (specs : List Spec) (reading : Reading) (open? : Option Given) :
    List String → Except UsageError Reading
  | [] => reading.flush open?
  | argument :: rest =>
      let value (given : Given) : Except UsageError Reading :=
        let given : Given := ⟨given.spec, given.values ++ [argument]⟩
        if given.spec.arity.takesMore given.values.length then
          read specs reading (some given) rest
        else do read specs (← reading.add given) none rest
      match argument.toList with
      | ['-', '-'] =>
          match rest with
          | [] => reading.flush open?
          | extra :: _ => .error (.unknown extra)
      | '-' :: '-' :: text => do
          let reading ← reading.flush open?
          let (name, attached) := splitName text
          match specs.find? (·.name == name) with
          | none => .error (.unknown argument)
          | some spec =>
              match attached, spec.arity with
              | some value, _ => read specs (← reading.add ⟨spec, [value]⟩) none rest
              | none, .flag => read specs (← reading.add ⟨spec, []⟩) none rest
              | none, _ => read specs reading (some ⟨spec, []⟩) rest
      | '-' :: letter :: letters =>
          match open? with
          | some given =>
              if given.spec.negative && (letter :: letters).all Char.isDigit then value given
              else do
                let reading ← reading.flush open?
                read specs (← reading.addLetters specs argument (letter :: letters)) none rest
          | none => do
              read specs (← reading.addLetters specs argument (letter :: letters)) none rest
      | _ =>
          match open? with
          | some given => value given
          | none => .error (.unknown argument)

/-- All values of an option, in the order in which they were given; nothing if
it was not given. -/
def Reading.values? (reading : Reading) (name : String) : Option (List String) :=
  match reading.reverse.filter (·.spec.name == name) with
  | [] => none
  | found => some (found.flatMap Given.values)

/-- Whether a flag was given. -/
def Reading.has (reading : Reading) (name : String) : Bool := (reading.values? name).isSome

/-- Reads a value of an option. -/
def readValue {α : Type} (name : String) (reader : String → Option α) (value : String) :
    Except UsageError α :=
  match reader value with
  | some a => .ok a
  | none => .error (.badValue name value)

/-- The values of an option, if it was given. -/
def Reading.several? {α : Type} (reading : Reading) (name : String) (reader : String → Option α) :
    Except UsageError (Option (List α)) :=
  match reading.values? name with
  | none => .ok none
  | some values => (values.mapM (readValue name reader)).map some

/-- The value of an option, if it was given. -/
def Reading.one? {α : Type} (reading : Reading) (name : String) (reader : String → Option α) :
    Except UsageError (Option α) := do
  return (← reading.several? name reader).bind List.head?

end QuerySynth.Arguments
