import SchemaSynth.Files.Basic

/-!
# Files in memory

`FileTree` holds files by their places, a place being the names from the root down. A path is
followed part by part as the system does it, so `d/../x` needs a directory `d`. `FileTree.system`
offers the operations of a `FileSystem` on the tree that is the state.
-/

namespace SchemaSynth

/-- The names from the root of all files down to one of them. -/
abbrev Place := List String

/-- What stands at a place: the bytes of a file, or a directory. -/
inductive FileItem where
  | file (content : ByteArray)
  | directory

namespace FileItem

def kind : FileItem → FileKind
  | .file _ => .file
  | .directory => .directory

end FileItem

/-- Files and directories, and the place where relative paths start. The root is always there. -/
structure FileTree where
  items : List (Place × FileItem)
  home : Place

namespace FileTree

def item? (tree : FileTree) (place : Place) : Option FileItem :=
  if place.isEmpty then some .directory
  else (tree.items.find? fun entry => entry.1 == place).map Prod.snd

def put (tree : FileTree) (place : Place) (item : FileItem) : FileTree :=
  if tree.items.any fun entry => entry.1 == place then
    { tree with
      items := tree.items.map fun entry => if entry.1 == place then (place, item) else entry }
  else { tree with items := tree.items ++ [(place, item)] }

def namesAt (tree : FileTree) (place : Place) : List String :=
  tree.items.filterMap fun entry =>
    if entry.1.dropLast == place then entry.1.getLast? else none

/-! ## Following paths -/

/-- The longest name and the longest path, in bytes. -/
def maxName : Nat := 255

def maxPath : Nat := 4095

/-- Follow one part of a path from a place. -/
def follow (tree : FileTree) (place : Place) (part : String) : Except FileError Place :=
  match tree.item? place with
  | none => .error .notFound
  | some (.file _) => .error .notDirectory
  | some .directory =>
    if part = "." then .ok place
    else if part = ".." then .ok place.dropLast
    else if part.utf8ByteSize > maxName then .error .nameTooLong
    else if (tree.item? (place ++ [part])).isSome then .ok (place ++ [part])
    else .error .notFound

/-- The parts of a path that are followed. -/
def steps (path : String) : List String := (Path.parts path).filter fun part => part != ""

def start (tree : FileTree) (path : String) : Place :=
  if Path.isAbsolute path then [] else tree.home

/-- A path that could lead somewhere. -/
def check (path : String) : Except FileError Unit :=
  if path.isEmpty then .error .notFound
  else if path.toList.contains '\x00' then
    .error (.other "file name contained an unexpected NUL byte")
  else if path.utf8ByteSize > maxPath then .error .nameTooLong
  else .ok ()

/-- The item a path leads to. A path that ends in a slash leads to a directory. -/
def resolve (tree : FileTree) (path : String) : Except FileError (Place × FileItem) := do
  check path
  let place ← (steps path).foldlM tree.follow (tree.start path)
  match tree.item? place with
  | none => throw .notFound
  | some (.file content) =>
    if Path.endsInSlash path then throw .notDirectory else pure (place, .file content)
  | some .directory => pure (place, .directory)

/-- The directory that a path ends in, and the last part of it. -/
def resolveLast (tree : FileTree) (path : String) : Except FileError (Place × String) := do
  check path
  let parts := steps path
  let place ← parts.dropLast.foldlM tree.follow (tree.start path)
  match tree.item? place with
  | none => throw .notFound
  | some (.file _) => throw .notDirectory
  | some .directory =>
    let name := parts.getLast?.getD "."
    if name.utf8ByteSize > maxName then throw .nameTooLong
    pure (place, name)

/-- The part is a name, not a step to a directory that is known. -/
def isName (part : String) : Bool := part != "." && part != ".."

/-! ## Operations -/

def read (tree : FileTree) (path : String) : Except FileError String := do
  match ← tree.resolve path with
  | (_, .directory) => throw .isDirectory
  | (_, .file content) =>
    match String.fromUTF8? content with
    | some text => pure text
    | none => throw .notText

def kind? (tree : FileTree) (path : String) : Option FileKind :=
  (tree.resolve path).toOption.map fun found => found.2.kind

def names (tree : FileTree) (path : String) : Except FileError (List String) := do
  match ← tree.resolve path with
  | (place, .directory) => pure (tree.namesAt place)
  | (_, .file _) => throw .notDirectory

def makeDirectory (tree : FileTree) (path : String) : Except FileError FileTree := do
  let (place, name) ← tree.resolveLast path
  if isName name && (tree.item? (place ++ [name])).isNone then
    pure (tree.put (place ++ [name]) .directory)
  else throw .exists

def write (tree : FileTree) (path text : String) : Except FileError FileTree := do
  let (place, name) ← tree.resolveLast path
  if !isName name || Path.endsInSlash path then throw .isDirectory
  match tree.item? (place ++ [name]) with
  | some .directory => throw .isDirectory
  | _ => pure (tree.put (place ++ [name]) (.file text.toUTF8))

/-- Change the state if the change succeeds. -/
def update (change : FileTree → Except FileError FileTree) :
    StateM FileTree (Except FileError Unit) := fun tree =>
  match change tree with
  | .ok tree => (.ok (), tree)
  | .error e => (.error e, tree)

/-- The operations on the tree that is the state. -/
def system : FileSystem (StateM FileTree) where
  read path := fun tree => (tree.read path, tree)
  kind? path := fun tree => (tree.kind? path, tree)
  names path := fun tree => (tree.names path, tree)
  makeDirectory path := update fun tree => tree.makeDirectory path
  write path text := update fun tree => tree.write path text

/-! ## Making trees -/

/-- All directories that a place is in, outermost first. -/
def ancestors (place : Place) : List Place :=
  (List.range place.length).filterMap fun n => if n = 0 then none else some (place.take n)

/-- Put a file at a place, and directories around it. -/
def plant (tree : FileTree) (place : Place) (content : ByteArray) : FileTree :=
  ((ancestors place).foldl (fun tree outer => tree.put outer .directory) tree).put place
    (.file content)

/-- A tree with one empty directory, where relative paths start. -/
def empty (home : String) : FileTree := ⟨[([home], .directory)], [home]⟩

/-- The files of a tree by their paths from where relative paths start. -/
def files (tree : FileTree) : List (String × ByteArray) :=
  tree.items.filterMap fun (place, item) =>
    match item with
    | .directory => none
    | .file content =>
      if tree.home.isPrefixOf place then
        some (Path.ofParts (place.drop tree.home.length), content)
      else none

end FileTree

end SchemaSynth
