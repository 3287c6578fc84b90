import QuerySynth.Grammar.Synonym
import QuerySynth.Pool
import QuerySynth.Random.Subset
import QuerySynth.Text.Pieces

/-!
# Declarations

A query declares a random part of the pool.  The declaration line lists the
synonyms kind by kind, and can be read back into pairs of a kind and a text.
-/

namespace QuerySynth

/-- The bare names declared for every kind. -/
structure Declarations where
  names : PerKind (List String)
  deriving DecidableEq, Repr

namespace Declarations

/-- Nothing is declared. -/
def empty : Declarations := ⟨.fill []⟩

/-- Declares a random part of every kind's names. -/
def sample {σ : Type} [WordSource σ] (pool : Pool) : Choose σ Declarations := do
  return ⟨← PerKind.generate fun kind => Choose.subset (pool.names.get kind)⟩

/-- The synonyms of one kind. -/
def ofKind (declared : Declarations) (kind : Kind) : List Synonym :=
  (declared.names.get kind).map (Synonym.mk kind)

/-- The synonyms of several kinds, in the order of the list. -/
def ofKinds (declared : Declarations) (kinds : List Kind) : List Synonym :=
  kinds.flatMap declared.ofKind

/-- Every declared synonym, in declaration order. -/
def synonyms (declared : Declarations) : List Synonym := declared.ofKinds Kind.all

/-- Whether a synonym is declared. -/
def contains (declared : Declarations) (s : Synonym) : Bool :=
  (declared.ofKind s.kind).contains s

/-- Whether nothing is declared. -/
def isEmpty (declared : Declarations) : Bool := declared.synonyms.isEmpty

/-- The group of one kind: keyword, synonyms, semicolon and space; nothing for
a kind without synonyms. -/
def renderKind (declared : Declarations) (kind : Kind) : String :=
  match declared.ofKind kind with
  | [] => ""
  | synonyms =>
      kind.keyword ++ " " ++ ", ".intercalate (synonyms.map Synonym.render) ++ "; "

/-- The declaration line. -/
def render (declared : Declarations) : String :=
  String.join (Kind.all.map declared.renderKind)

end Declarations

/-- Why a declaration line cannot be read. -/
inductive DeclarationError where
  /-- A group has no blank after its keyword. -/
  | missingSynonyms (group : String)
  /-- A group opens with a word that is no keyword. -/
  | unknownKeyword (word : String)
  /-- A group has nothing between two commas, or at an end. -/
  | emptySynonym (group : String)
  deriving DecidableEq, Repr

/-- The text shown for a line that cannot be read. -/
def DeclarationError.message : DeclarationError → String
  | .missingSynonyms group =>
      "malformed declaration line: missing synonyms in `" ++ group ++ "`"
  | .unknownKeyword word =>
      "malformed declaration line: unknown design entity `" ++ word ++ "`"
  | .emptySynonym group =>
      "malformed declaration line: empty synonym in `" ++ group ++ "`"

namespace Declarations

/-- Reads one synonym of a group. -/
def readSynonym (group : List Char) (kind : Kind) (piece : List Char) :
    Except DeclarationError (Kind × String) :=
  match Text.trim piece with
  | [] => .error (.emptySynonym (String.ofList group))
  | name => .ok (kind, String.ofList name)

/-- Reads one group, already trimmed: a keyword, a blank, and synonyms with
commas between them. -/
def readGroup (group : List Char) : Except DeclarationError (List (Kind × String)) :=
  let word := String.ofList (group.takeWhile (!Text.isBlank ·))
  match group.dropWhile (!Text.isBlank ·) with
  | [] => .error (.missingSynonyms (String.ofList group))
  | _ :: rest =>
      match Kind.ofKeyword? word with
      | none => .error (.unknownKeyword word)
      | some kind => (Text.piecesAt ',' rest).mapM (readSynonym group kind)

/-- Reads a declaration line into kinds and synonym texts, in order of
appearance.  Groups end in semicolons, and blank groups are passed over. -/
def readLine (line : String) : Except DeclarationError (List (Kind × String)) := do
  return (← (Text.trimmed (Text.piecesAt ';' line.toList)).mapM readGroup).flatten

end Declarations

end QuerySynth
