/-!
# Paths

A path is a text of parts between slashes. Empty parts and `.` behind the first part say nothing;
`Path.normalParts` drops them. `Path.parent?`, `Path.fileName?` and `Path.stem?` look at the last
part that says something, `Path.join` puts a name behind a path.
-/

namespace SchemaSynth

namespace Path

/-- A text cut at its slashes. -/
def split : List Char → List (List Char)
  | [] => [[]]
  | c :: rest =>
    if c = '/' then [] :: split rest
    else
      match split rest with
      | [] => [[c]]
      | part :: parts => (c :: part) :: parts

theorem split_ne_nil (cs : List Char) : split cs ≠ [] := by
  cases cs with
  | nil => simp [split]
  | cons c rest =>
    simp only [split]
    split
    · simp
    · split <;> simp

def parts (path : String) : List String := (split path.toList).map String.ofList

def ofParts (parts : List String) : String := "/".intercalate parts

def isAbsolute (path : String) : Bool := path.toList.head? == some '/'

def endsInSlash (path : String) : Bool := path.toList.getLast? == some '/'

/-- The part says nothing where it stands behind others. -/
def isVoid (part : String) : Bool := part == "" || part == "."

/-- The parts that lead from one file to another: no empty ones, and `.` only as the first. -/
def normalParts (path : String) : List String :=
  match parts path with
  | [] => []
  | first :: rest => (if first = "" then [] else [first]) ++ rest.filter fun part => !isVoid part

/-- The path is the one to where it starts. -/
def isHere (path : String) : Bool := !isAbsolute path && normalParts path == ["."]

/-- A path without the void parts at its end. -/
def dropVoid (parts : List String) : List String :=
  match parts with
  | [] => []
  | first :: rest => first :: (rest.reverse.dropWhile isVoid).reverse

/-- The path to the directory of what a path leads to; the root has none. -/
def parent? (path : String) : Option String :=
  if isAbsolute path then
    if (normalParts path).isEmpty then none
    else
      match dropVoid (dropVoid (parts path)).dropLast with
      | [""] => some "/"
      | parts => some (ofParts parts)
  else if (normalParts path).isEmpty then none
  else some (ofParts (dropVoid (dropVoid (parts path)).dropLast))

/-- The name a path ends in, if it is a name. -/
def fileName? (path : String) : Option String :=
  match (normalParts path).getLast? with
  | none => none
  | some part => if part = "." ∨ part = ".." then none else some part

/-- A name without its extension. A dot at the start opens none. -/
def stemOfName (name : String) : String :=
  let back := name.toList.reverse
  match back.dropWhile (· ≠ '.') with
  | [] => name
  | [_] => name
  | _ :: stem => String.ofList stem.reverse

/-- The name a path ends in, without its extension. -/
def stem? (path : String) : Option String := (fileName? path).map stemOfName

/-- A name, or a relative path, seen from a path. -/
def join (path name : String) : String :=
  if path.isEmpty then name
  else if endsInSlash path then path ++ name
  else path ++ "/" ++ name

end Path

end SchemaSynth
