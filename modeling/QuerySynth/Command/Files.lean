import QuerySynth.Text.Pieces

/-!
# Files

What a run needs of a file system, and a tree of files in memory that provides
it.  In the tree the working directory is the top: absolute paths start there
too, and its parent is itself.
-/

namespace QuerySynth

/-- Why a file operation failed. -/
inductive FileError where
  | missing
  | alreadyThere
  | notDirectory
  | isDirectory
  /-- The bytes of a file are no text. -/
  | notText
  /-- Anything else, with the text of the system. -/
  | other (text : String)
  deriving DecidableEq, Repr

/-- The text shown for a failed file operation. -/
def FileError.message : FileError → String
  | .missing => "No such file or directory (os error 2)"
  | .alreadyThere => "File exists (os error 17)"
  | .notDirectory => "Not a directory (os error 20)"
  | .isDirectory => "Is a directory (os error 21)"
  | .notText => "stream did not contain valid UTF-8"
  | .other text => text

/-- The file operations of a run. -/
class Files (m : Type → Type) where
  /-- The text of a file. -/
  read : String → m (Except FileError String)
  /-- Whether there is a file or directory. -/
  present : String → m Bool
  /-- Whether there is a directory. -/
  isDirectory : String → m Bool
  /-- Makes a directory in one that is there. -/
  createDir : String → m (Except FileError Unit)
  /-- Adds a text to the end of a file, which is made if it is missing. -/
  append : String → String → m (Except FileError Unit)

/-- The path of a name in a directory. -/
def joinPath (directory name : String) : String :=
  if directory.toList.getLast? = some '/' then directory ++ name else directory ++ "/" ++ name

/-- The names on a path, the empty ones included. -/
def pathNames (path : String) : List String :=
  (Text.piecesAt '/' path.toList).map String.ofList

/-- Names that lead somewhere else: neither empty nor a single period. -/
def properNames (names : List String) : List String :=
  names.filter fun name => name != "" && name != "."

/-- The path without its last name. -/
def parentPath (path : String) : String :=
  let above := "/".intercalate (properNames (pathNames path)).dropLast
  if path.toList.head? = some '/' then "/" ++ above else above

section

variable {m : Type → Type} [Monad m] [Files m]

/-- Makes a directory; one that is there already will do. -/
def ensureDirectory (path : String) : m (Except FileError Unit) := do
  match ← Files.createDir path with
  | .ok () => return .ok ()
  | .error cause => return if ← Files.isDirectory path then .ok () else .error cause

/-- Makes a directory and up to `n` directories above it.  Those above are only
looked at when the directory itself cannot be made for lack of them, and they
stay when it cannot be made with them either. -/
def ensureDirectories (path : String) : Nat → m (Except FileError Unit)
  | 0 => if path.isEmpty then return .ok () else ensureDirectory path
  | n + 1 => do
      if path.isEmpty then
        return .ok ()
      match ← ensureDirectory path with
      | .error .missing =>
          match ← ensureDirectories (parentPath path) n with
          | .ok () => ensureDirectory path
          | .error cause => return .error cause
      | done => return done

/-- Makes a directory and all directories above it that are missing. -/
def createDirectories (path : String) : m (Except FileError Unit) :=
  ensureDirectories path (pathNames path).length

end

/-- A directory or a file. -/
inductive Entry where
  | directory
  | file (text : String)
  deriving DecidableEq, Repr

/-- The names from the top down to an entry. -/
abbrev Location := List String

/-- Files and directories below the top. -/
structure FileTree where
  entries : List (Location × Entry)
  deriving DecidableEq, Repr

namespace FileTree

/-- The tree without files. -/
def empty : FileTree := ⟨[]⟩

/-- The entry at a location. -/
def entry? (tree : FileTree) (location : Location) : Option Entry :=
  if location.isEmpty then some .directory else tree.entries.lookup location

/-- Puts an entry at a location. -/
def put (tree : FileTree) (location : Location) (entry : Entry) : FileTree :=
  ⟨tree.entries.filter (·.1 != location) ++ [(location, entry)]⟩

/-- Follows names from a location.  Every step starts from a directory. -/
def walk (tree : FileTree) (here : Location) : List String → Except FileError Location
  | [] => .ok here
  | name :: rest =>
      match tree.entry? here with
      | none => .error .missing
      | some (.file _) => .error .notDirectory
      | some .directory =>
          if name = "" ∨ name = "." then tree.walk here rest
          else if name = ".." then tree.walk here.dropLast rest
          else tree.walk (here ++ [name]) rest

/-- The location of names and what is there. -/
def find (tree : FileTree) (names : List String) : Except FileError (Location × Entry) := do
  let location ← tree.walk [] names
  match tree.entry? location with
  | some entry => return (location, entry)
  | none => throw .missing

/-- Whether names lead to a directory. -/
def isDirectory (tree : FileTree) (names : List String) : Bool :=
  match tree.find names with
  | .ok (_, .directory) => true
  | _ => false

/-- The text of a file. -/
def read (tree : FileTree) (names : List String) : Except FileError String := do
  match ← tree.find names with
  | (_, .file text) => return text
  | (_, .directory) => throw .isDirectory

/-- Names without the empty ones at their end. -/
def dropEmpty (names : List String) : List String :=
  (names.reverse.dropWhile (· == "")).reverse

/-- Makes one directory, in a directory that is there. -/
def createDir (tree : FileTree) (names : List String) : Except FileError FileTree := do
  let names := dropEmpty names
  let above ← tree.walk [] names.dropLast
  match tree.entry? above with
  | none => throw .missing
  | some (.file _) => throw .notDirectory
  | some .directory =>
      let location ← tree.walk above (names.getLast?.toList)
      match tree.entry? location with
      | some _ => throw .alreadyThere
      | none => return tree.put location .directory

/-- Adds a text to a file, which is made if it is missing. -/
def append (tree : FileTree) (names : List String) (text : String) :
    Except FileError FileTree := do
  let above ← tree.walk [] names.dropLast
  let location ← tree.walk above (names.getLast?.toList)
  match tree.entry? location with
  | some (.file before) => return tree.put location (.file (before ++ text))
  | some .directory => throw .isDirectory
  | none =>
      if tree.entry? location.dropLast = some .directory then
        return tree.put location (.file text)
      else throw .missing

instance : Files (StateM FileTree) where
  read path := fun tree => (tree.read (pathNames path), tree)
  present path := fun tree => ((tree.find (pathNames path)).toBool, tree)
  isDirectory path := fun tree => (tree.isDirectory (pathNames path), tree)
  createDir path := fun tree =>
    match tree.createDir (pathNames path) with
    | .ok tree => (.ok (), tree)
    | .error cause => (.error cause, tree)
  append path text := fun tree =>
    match tree.append (pathNames path) text with
    | .ok tree => (.ok (), tree)
    | .error cause => (.error cause, tree)

end FileTree

end QuerySynth
