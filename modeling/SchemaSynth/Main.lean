import SchemaSynth.CommandLine.Outcome

/-!
# The program

`main` runs a command line on the files of the system. Directories of the system are not listed:
patterns for paths are left to the shell.
-/

namespace SchemaSynth

namespace FileError

/-- The fault behind a number of the system. Some operations give the number with the other sign. -/
def ofCode (code : UInt32) (text : String) : FileError :=
  match (if code < 0x80000000 then code else 0 - code).toNat with
  | 20 => .notDirectory
  | 21 => .isDirectory
  | 36 => .nameTooLong
  | _ => .other text

def ofSystem (e : IO.Error) : FileError :=
  match e with
  | .noFileOrDirectory .. => .notFound
  | .permissionDenied .. => .denied
  | .alreadyExists .. => .exists
  | .inappropriateType _ code text => ofCode code text
  | .invalidArgument _ code text => ofCode code text
  | e => .other e.toString

end FileError

/-- The result of an operation, or why it fails. -/
def attempt {α : Type} (action : IO α) : IO (Except FileError α) := do
  try return .ok (← action)
  catch e => return .error (.ofSystem e)

namespace FileSystem

/-- A path leads somewhere that can be opened, or could be with the right permission. -/
def opens (path : String) : IO Bool := do
  match ← attempt (IO.FS.Handle.mk path .read) with
  | .ok _ | .error .denied => return true
  | .error _ => return false

/-- The files of the system. -/
def native : FileSystem IO where
  read path := do
    match ← attempt (IO.FS.readBinFile path) with
    | .error e => return .error e
    | .ok content =>
      match String.fromUTF8? content with
      | some text => return .ok text
      | none => return .error .notText
  kind? path := do
    if ← opens (Path.join path ".") then return some .directory
    else return if ← opens path then some .file else none
  names _ := return .error (.other "directories are not listed")
  makeDirectory path := attempt (IO.FS.createDir path)
  write path text := attempt (IO.FS.writeFile path text)

end FileSystem

def Outcome.print (outcome : Outcome) : IO UInt32 := do
  IO.print outcome.output
  for message in outcome.messages do
    IO.eprintln message
  return outcome.exitCode.toUInt32

end SchemaSynth

def main (arguments : List String) : IO UInt32 := do
  (← SchemaSynth.execute SchemaSynth.FileSystem.native arguments).print
