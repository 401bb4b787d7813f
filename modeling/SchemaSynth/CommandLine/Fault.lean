import SchemaSynth.Decode.Mismatch
import SchemaSynth.Files.Basic
import SchemaSynth.Walk

/-!
# Faults of a run

What goes wrong in a run is a `Fault`, below the `contexts` that say what was being done.
`RunError.message` tells both, outermost first.
-/

namespace SchemaSynth

inductive Fault where
  | file (error : FileError)
  | badPattern
  | noMatch (pattern : String)
  /-- A directory on the way of a search cannot be read. -/
  | unread (path : String) (error : FileError)
  | noPart (pointer path : String)
  | noRoot (label name : String)
  | filter
  | read (error : ReadError)
  | walk (error : WalkError)
deriving DecidableEq, Repr

namespace Fault

/-- The wordings of a fault, each followed by its cause. -/
def messages : Fault → List String
  | .file error => [error.message]
  | .badPattern => ["invalid pattern"]
  | .noMatch pattern => ["glob pattern matched no files: " ++ pattern]
  | .unread path error =>
    ["attempting to read " ++ Found.tick path ++ " resulted in an error: " ++ error.message]
  | .noPart pointer path => ["JSON pointer " ++ pointer ++ " matched nothing in " ++ path]
  | .noRoot label name => [label ++ " has no root named " ++ name]
  | .filter => ["the filter fails"]
  | .read .malformed => [ReadError.malformed.message]
  | .read (.mismatch path cause) => [(ReadError.mismatch path cause).message, cause.message]
  | .walk error => [error.message]

end Fault

/-- A fault and what was being done, outermost first. -/
structure RunError where
  contexts : List String := []
  fault : Fault
deriving DecidableEq, Repr

namespace RunError

def messages (e : RunError) : List String := e.contexts ++ e.fault.messages

def message (e : RunError) : String := ": ".intercalate e.messages

def ofFault (fault : Fault) : RunError := { fault }

end RunError

/-- A result, with the context of its fault. -/
def inContext {α ε : Type} (context : String) (toFault : ε → Fault) (result : Except ε α) :
    Except RunError α :=
  result.mapError fun e => { contexts := [context], fault := toFault e }

end SchemaSynth
