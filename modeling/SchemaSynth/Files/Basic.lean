import SchemaSynth.Files.Path

/-!
# Files

`FileSystem` lists the operations that a program needs of its files, in any monad that has them: the
system itself, or a `FileTree` held in memory. Operations name files by their paths and fail with a
`FileError`.
-/

namespace SchemaSynth

inductive FileError where
  | denied
  | exists
  | isDirectory
  | nameTooLong
  | notDirectory
  | notFound
  /-- The content of the file is no text. -/
  | notText
  | other (text : String)
deriving DecidableEq, Repr

namespace FileError

/-- A fault that the system knows by a number. -/
def numbered (text : String) (code : Nat) : String :=
  text ++ " (os error " ++ toString code ++ ")"

def message : FileError → String
  | .denied => numbered "Permission denied" 13
  | .exists => numbered "File exists" 17
  | .isDirectory => numbered "Is a directory" 21
  | .nameTooLong => numbered "File name too long" 36
  | .notDirectory => numbered "Not a directory" 20
  | .notFound => numbered "No such file or directory" 2
  | .notText => "stream did not contain valid UTF-8"
  | .other text => text

end FileError

inductive FileKind where
  | file
  | directory
deriving DecidableEq, Repr

/-- What a program needs of its files. -/
structure FileSystem (m : Type → Type) where
  /-- The text in a file. -/
  read : String → m (Except FileError String)
  /-- What a path leads to, if to anything. -/
  kind? : String → m (Option FileKind)
  /-- The names in a directory, in any order. -/
  names : String → m (Except FileError (List String))
  /-- Make a directory in one that is there. -/
  makeDirectory : String → m (Except FileError Unit)
  /-- Put a text into a file, in place of what was there. -/
  write : String → String → m (Except FileError Unit)

namespace FileSystem

variable {m : Type → Type} [Monad m] (fs : FileSystem m)

def isDirectory (path : String) : m Bool := do
  return (← fs.kind? path) == some .directory

def ensureDirectory (path : String) : m (Except FileError Unit) := do
  match ← fs.makeDirectory path with
  | .ok () => return .ok ()
  | .error e => return if ← fs.isDirectory path then .ok () else .error e

/-- Make a directory and all that it is in, as far as they are not there. The empty path leads to
where paths start, which is there. The first argument bounds the number of directories to make. -/
def makeDirectoriesWithin : Nat → String → m (Except FileError Unit)
  | 0, _ => return .ok ()
  | levels + 1, path => do
    if path.isEmpty then return .ok ()
    match ← fs.ensureDirectory path with
    | .error .notFound =>
      match Path.parent? path with
      | none => return .error (.other "failed to create whole tree")
      | some parent =>
        match ← makeDirectoriesWithin levels parent with
        | .ok () => fs.ensureDirectory path
        | .error e => return .error e
    | result => return result

/-- Make a directory and all that it is in, as far as they are not there. Each parent is shorter,
and the empty path has none. -/
def makeDirectories (path : String) : m (Except FileError Unit) :=
  fs.makeDirectoriesWithin (path.length + 1) path

end FileSystem

end SchemaSynth
