import SchemaSynth.CommandLine.Options
import SchemaSynth.Config

/-!
# Commands

`Command.ofArguments` reads the command line. There are two commands: `schema` prints the schema of
one named type from each type table, `expand` replaces the designated calls of compiled units.
-/

namespace SchemaSynth

structure InputSettings where
  /-- Selects a part of each document. -/
  pointer : Option String := none
  /-- Turns each document into any number of them. -/
  filter : Option String := none
  /-- Paths, or patterns for paths. -/
  paths : List String
deriving DecidableEq, Repr

/-- Settings that override those of the configuration. -/
structure ConfigSettings where
  /-- The file of the configuration. -/
  path : Option String := none
  flat : Bool := false
  noAnnotations : Bool := false
  opaqueArrays : Bool := false
  bareLeaves : Bool := false
  functionName : Option String := none
  module : Option String := none
deriving DecidableEq, Repr

structure SchemaCommand where
  input : InputSettings
  config : ConfigSettings
  /-- The name of the type. -/
  type : String
  /-- Annotations are wanted. -/
  additional : Bool := true
  /-- The file that is written. -/
  out : Option String := none
  /-- Nothing is done. -/
  idle : Bool := false
deriving DecidableEq, Repr

structure ExpandCommand where
  input : InputSettings
  config : ConfigSettings
  /-- The directory that is written to. -/
  outDir : Option String := none
  /-- Nothing is done. -/
  idle : Bool := false
deriving DecidableEq, Repr

/-- What the program is asked to do. -/
inductive Command where
  | schema (command : SchemaCommand)
  | expand (command : ExpandCommand)
deriving DecidableEq, Repr

namespace ConfigSettings

/-- A configuration with the settings in place of its own. -/
def apply (settings : ConfigSettings) (config : Config) : Config :=
  { config with
    functionName := settings.functionName.getD config.functionName
    module := settings.module.or config.module
    mode :=
      { objects := if settings.flat then .flat else config.mode.objects
        annotations := if settings.noAnnotations then false else config.mode.annotations
        arrayItems := if settings.opaqueArrays then .opaqueItems else config.mode.arrayItems
        leaves := if settings.bareLeaves then .bare else config.mode.leaves } }

end ConfigSettings

namespace Command

/-- The options of both commands. -/
def sharedRules : List OptionRule :=
  [{ name := "json-pointer", kind := .value }, { name := "jq-expr", kind := .value },
    { name := "input", letter := some 'i', kind := .values }, { name := "config", kind := .path },
    { name := "flat", kind := .flag }, { name := "no-annotations", kind := .flag },
    { name := "opaque-arrays", kind := .flag }, { name := "bare-leaves", kind := .flag },
    { name := "function-name", kind := .value }, { name := "module", kind := .value },
    { name := "no-op", kind := .flag }, { name := "help", letter := some 'h', kind := .help }]

def schemaRules : List OptionRule :=
  sharedRules ++
    [{ name := "type", kind := .value }, { name := "no-additional", kind := .flag },
      { name := "out", letter := some 'o', kind := .path }]

def expandRules : List OptionRule := sharedRules ++ [{ name := "out-dir", kind := .path }]

def inputSettings (given : Options) : Except UsageError InputSettings := do
  let _ ← given.required "input"
  pure
    { pointer := given.value? "json-pointer"
      filter := given.value? "jq-expr"
      paths := given.values "input" }

def configSettings (given : Options) : ConfigSettings where
  path := given.value? "config"
  flat := given.has "flat"
  noAnnotations := given.has "no-annotations"
  opaqueArrays := given.has "opaque-arrays"
  bareLeaves := given.has "bare-leaves"
  functionName := given.value? "function-name"
  module := given.value? "module"

def schemaOfArguments (arguments : List String) : Except UsageError Command := do
  let given ← Options.ofArguments schemaRules arguments
  let input ← inputSettings given
  let type ← given.required "type"
  pure (.schema
    { input
      config := configSettings given
      type
      additional := !given.has "no-additional"
      out := given.value? "out"
      idle := given.has "no-op" })

def expandOfArguments (arguments : List String) : Except UsageError Command := do
  let given ← Options.ofArguments expandRules arguments
  let input ← inputSettings given
  pure (.expand
    { input
      config := configSettings given
      outDir := given.value? "out-dir"
      idle := given.has "no-op" })

/-- The words that may stand in the place of a command. -/
def names : List String := ["schema", "expand", "help"]

/-- What `help` is asked about: nothing, or one command. -/
def helpOn : List String → UsageError
  | [] => .help
  | [word] => if names.contains word then .help else .unknownCommand word
  | word :: other :: _ => .unknownCommand (if names.contains word then other else word)

/-- Help and version at the start of a command line. -/
def topFlag (flag : UsageError) (name : String) (attached : Option String) : UsageError :=
  if attached.isSome then .unexpectedValue name else flag

def ofArguments : List String → Except UsageError Command
  | [] => throw .noCommand
  | argument :: rest =>
    match Options.form argument with
    | .separator =>
      match rest with
      | [] => throw .noCommand
      | word :: _ =>
        throw (if names.contains word then .unknownArgument word else .unknownCommand word)
    | .long name attached =>
      throw (if name = "help" then topFlag .help name attached
        else if name = "version" then topFlag .version name attached
        else .unknownArgument argument)
    | .short letter _ =>
      throw (if letter = 'h' then .help else if letter = 'V' then .version
        else .unknownArgument argument)
    | .word word =>
      if word = "schema" then schemaOfArguments rest
      else if word = "expand" then expandOfArguments rest
      else throw (if word = "help" then helpOn rest else .unknownCommand word)

end Command

end SchemaSynth
