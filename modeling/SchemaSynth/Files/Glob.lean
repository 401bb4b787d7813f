import SchemaSynth.Files.Basic
import SchemaSynth.Files.Pattern

/-!
# Paths by patterns

A glob is a path of patterns. `Glob.find` gives the paths of all files that match it, in the order
of their names, directories before what is in them. A part without wildcards is looked up as it
stands. `Tools.builtIn` searches this way; a run takes its search from whatever `Tools` it is given.
-/

namespace SchemaSynth

/-- A path of patterns. -/
structure Glob where
  /-- It starts at the root of all files. -/
  absolute : Bool
  parts : List NamePattern
  /-- It ends in a slash, and leads to directories only. -/
  directories : Bool
deriving DecidableEq, Repr

namespace Glob

/-- The parts of a path of patterns. An empty part at the end is none. -/
def partTexts (s : String) : List String :=
  let rest := if Path.isAbsolute s then String.ofList s.toList.tail else s
  let parts := Path.parts rest
  if parts.getLast? = some "" then parts.dropLast else parts

def ofText? (s : String) : Option Glob := do
  let parts ← (partTexts s).mapM NamePattern.ofText?
  pure ⟨Path.isAbsolute s, parts, Path.endsInSlash s⟩

/-- The path of a name in a directory; names stand alone in the directory where paths start. -/
def child (path name : String) : String := if Path.isHere path then name else Path.join path name

/-- A search: its results, or a directory that cannot be read and why. -/
abbrev Search (m : Type → Type) := ExceptT (String × FileError) m (List String)

variable {m : Type → Type} [Monad m] (fs : FileSystem m) (directories : Bool)

def gather {α : Type} (search : α → Search m) : List α → Search m
  | [] => pure []
  | x :: xs => do return (← search x) ++ (← gather search xs)

def sortedNames (path : String) : Search m := do
  match ← (fs.names path : m _) with
  | .ok names => return names.mergeSort fun a b => a ≤ b
  | .error e => throw (path, e)

def lookUp (path name : String) : m (Option String) := do
  let next := child path name
  let isThere ←
    if name = "." ∨ name = ".." then fs.isDirectory path
    else do pure (← fs.kind? next).isSome
  return if isThere then some next else none

/-- The entries `.` and `..` match only a pattern that begins with a dot. -/
def dotEntries (pattern : NamePattern) (path : String) : List String :=
  if pattern.startsWithDot then (["..", "."].filter pattern.isMatch).map (Path.join path) else []

/-- The results for one entry of a directory. `search` goes on from a path with other patterns. -/
def visit (search : List NamePattern → String → Search m) (patterns : List NamePattern)
    (path name : String) : Search m := do
  match patterns with
  | [] => return []
  | .name parts :: rest =>
    if NamePattern.isMatch (.name parts) name then search rest path else return []
  | .anyDepth :: rest =>
    let rest := rest.dropWhile (· == .anyDepth)
    let isDirectory ← (fs.isDirectory path : m Bool)
    let here ← match rest with
      | [] => pure (if isDirectory then [path] else [])
      | pattern :: others => if pattern.isMatch name then search others path else pure []
    let below ← if isDirectory then search (.anyDepth :: rest) path else pure []
    return here ++ below

/-- The files below a path that match patterns. The first argument bounds the parts of the path. -/
def findFrom : Nat → List NamePattern → String → Search m
  | 0, _, _ => return []
  | _ + 1, [], path => do
    if directories then
      return if ← (fs.isDirectory path : m Bool) then [path] else []
    else return [path]
  | levels + 1, pattern :: rest, path => do
    match pattern.literal? with
    | some name =>
      match ← (lookUp fs path name : m _) with
      | some next => findFrom levels rest next
      | none => return []
    | none =>
      if ← (fs.isDirectory path : m Bool) then
        let dots ← gather (findFrom levels rest) (dotEntries pattern path)
        let names ← sortedNames fs path
        let found ← gather
          (fun name => visit fs (findFrom levels) (pattern :: rest) (child path name) name) names
        return dots ++ found
      else return []

/-- No path has as many parts. -/
def maxParts : Nat := 4096

def find (glob : Glob) : Search m :=
  if glob.parts.isEmpty then return []
  else
    findFrom fs glob.directories (maxParts + glob.parts.length) glob.parts
      (if glob.absolute then "/" else ".")

end Glob

end SchemaSynth
