import SchemaSynth.CommandLine.Command
import SchemaSynth.CommandLine.Fault
import SchemaSynth.Files.Basic
import SchemaSynth.Json.Basic
import SchemaSynth.Json.Text
import SchemaSynth.Unit.Codec
import SchemaSynth.Unit.Expansion

/-!
# Running commands

`Command.runWith` does what a command asks for: it reads the configuration and the documents, makes
schemas or expands units, and writes the results into files or hands them back. All documents are
worked on before anything is written. Filters and patterns for paths are languages of their own: a
run takes what understands them as its `Tools`.
-/

namespace SchemaSynth

/-- A document of a file. A filter may make several of one file. -/
structure Document where
  path : String
  index : Nat
  value : Json

namespace Document

def label (doc : Document) : String := doc.path ++ "#" ++ toString doc.index

/-- The name of the file the document is written to. -/
def outputName (doc : Document) : String :=
  let stem := (Path.stem? doc.path).getD "unit"
  if doc.index = 0 then stem ++ ".json" else stem ++ "." ++ toString doc.index ++ ".json"

def number (path : String) : Nat → List Json → List Document
  | _, [] => []
  | index, value :: values => ⟨path, index, value⟩ :: number path (index + 1) values

/-- The value in the text of a file, or the part of it that the input asks for. -/
def valueOfText (input : InputSettings) (path text : String) : Except RunError Json := do
  let value ←
    match Json.ofText? text with
    | some value => pure value
    | none => throw ⟨["failed to parse JSON source file (" ++ path ++ ")"], .read .malformed⟩
  match input.pointer with
  | none => pure value
  | some pointer =>
    match value.pointer? pointer with
    | some value => pure value
    | none => throw (.ofFault (.noPart pointer path))

def schema (command : SchemaCommand) (config : Config) (doc : Document) : Except RunError Json := do
  let table ←
    inContext (doc.label ++ " is not a type table") .read
      (TypeTable.read .value (.ofJson doc.value))
  let root ←
    match table.root? command.type with
    | some root => pure root
    | none => throw (.ofFault (.noRoot doc.label command.type))
  let fragment ←
    inContext ("while walking " ++ command.type ++ " in " ++ doc.label) .walk
      (table.schema config root command.additional)
  pure fragment.toJson

/-- The document, which is a compiled unit, with its calls expanded, and their number. -/
def expand (config : Config) (doc : Document) : Except RunError (CompiledUnit × Nat) := do
  let u ←
    inContext (doc.label ++ " is not a compiled unit") .read
      (CompiledUnit.read .value (.ofJson doc.value))
  inContext ("while rewriting " ++ doc.label) .walk (u.expand config)

end Document

/-- What a run has to tell: the text of its results, unless it is in files, and what was done. -/
structure Report where
  output : String := ""
  summary : Option String := none
deriving DecidableEq, Repr

/-- What a run leaves to others. -/
structure Tools (m : Type → Type) where
  /-- The values that a filter makes of a value, unless it fails. -/
  filter : String → Json → m (Option (List Json))
  /-- The paths that match a pattern, or a directory that cannot be read and why. Not every text is
  a pattern. -/
  search : String → Option (m (Except (String × FileError) (List String)))

section

variable {m : Type → Type} [Monad m] (tools : Tools m) (fs : FileSystem m)

/-- A step that needs no files. -/
def pureStep {α : Type} (result : Except RunError α) : ExceptT RunError m α :=
  ExceptT.mk (pure result)

/-- An operation on files in a context. -/
def fileStep {α : Type} (context : String) (operation : m (Except FileError α)) :
    ExceptT RunError m α :=
  ExceptT.mk (inContext context .file <$> operation)

/-- Write a file, and make the directories it is in. -/
def writeFile (path text : String) : ExceptT RunError m PUnit := do
  match Path.parent? path with
  | none => pure ()
  | some parent => fileStep ("failed to create " ++ parent) (fs.makeDirectories parent)
  fileStep ("failed to write " ++ path) (fs.write path text)

namespace ConfigSettings

def load (path : String) : ExceptT RunError m Config := do
  let context := "failed to load config " ++ path
  let text ← fileStep context (fs.read path)
  pureStep (inContext context .read (Config.read .text (.ofText text)))

def config (settings : ConfigSettings) : ExceptT RunError m Config := do
  match settings.path with
  | none => pure (settings.apply {})
  | some path => return settings.apply (← load fs path)

end ConfigSettings

namespace InputSettings

/-- The text has a character that opens a wildcard, or a brace. -/
def isPattern (s : String) : Bool :=
  s.toList.any fun c => c == '*' || c == '?' || c == '[' || c == '\x7b'

/-- The paths that a path or a pattern for paths stands for. -/
def resolve (pattern : String) : ExceptT RunError m (List String) := do
  if isPattern pattern then
    match tools.search pattern with
    | none => throw (.ofFault .badPattern)
    | some search =>
      match ← (search : m _) with
      | .error (path, e) => throw (.ofFault (.unread path e))
      | .ok [] => throw (.ofFault (.noMatch pattern))
      | .ok paths => pure paths
  else pure [pattern]

def filtered (filter : Option String) (path : String) (value : Json) :
    ExceptT RunError m (List Json) := do
  match filter with
  | none => pure [value]
  | some filter =>
    match ← (tools.filter filter value : m _) with
    | some values => pure values
    | none =>
      throw ⟨["failed to apply jq expression to source file (" ++ path ++ ")"], .filter⟩

def documentsOf (input : InputSettings) (path : String) : ExceptT RunError m (List Document) := do
  let text ← fileStep ("failed to read source file " ++ path) (fs.read path)
  let value ← pureStep (Document.valueOfText input path text)
  return Document.number path 0 (← filtered tools input.filter path value)

/-- The documents of the input. All patterns are resolved before the first file is read. -/
def documents (input : InputSettings) : ExceptT RunError m (List Document) := do
  let paths ← input.paths.mapM (resolve tools)
  let documents ← paths.flatten.mapM (documentsOf tools fs input)
  pure documents.flatten

end InputSettings

namespace Command

/-- The schemas of several documents are listed; the schema of one stands alone. -/
def together : List Json → Json
  | [single] => single
  | many => .array many

def runSchema (command : SchemaCommand) : ExceptT RunError m Report := do
  let config ← command.config.config fs
  let documents ← command.input.documents tools fs
  let schemas ← pureStep (documents.mapM (Document.schema command config))
  let text := (together schemas).pretty
  let summary := "✔ schema " ++ toString documents.length ++ " document(s)"
  match command.out with
  | some path => do
    writeFile fs path text
    pure { summary }
  | none => pure { output := text ++ "\n", summary }

def writeUnits (dir : String) : List (Document × Json) → ExceptT RunError m PUnit
  | [] => pure ()
  | (doc, value) :: rest => do
    writeFile fs (Path.join dir doc.outputName) value.pretty
    writeUnits dir rest

def runExpand (command : ExpandCommand) : ExceptT RunError m Report := do
  let config ← command.config.config fs
  let documents ← command.input.documents tools fs
  let results ← pureStep (documents.mapM (Document.expand config))
  let count := results.foldl (fun count result => count + result.2) 0
  let values := results.map fun result => result.1.toJson
  let summary :=
    "✔ rewrote " ++ toString count ++ " call site(s) in " ++ toString results.length ++ " unit(s)"
  match command.outDir with
  | some dir => do
    writeUnits fs dir (documents.zip values)
    pure { summary }
  | none => pure { output := String.join (values.map fun value => value.pretty ++ "\n"), summary }

def runWith : Command → ExceptT RunError m Report
  | .schema command => if command.idle then pure {} else runSchema tools fs command
  | .expand command => if command.idle then pure {} else runExpand tools fs command

end Command

end

end SchemaSynth
