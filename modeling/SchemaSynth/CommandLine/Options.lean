import SchemaSynth.Fields

/-!
# Options

Arguments of a command are options, flags and values behind options. `Options.ofArguments` collects
the values given to each option by a list of rules; there are no other arguments. An option takes
its value from the next argument, or from its own behind `=`; one that takes several also takes all
arguments up to the next option.
-/

namespace SchemaSynth

/-- Why arguments do not make up a command. Help and version come as faults too, since they end the
reading. -/
inductive UsageError where
  | help
  | version
  /-- There is no command at all. -/
  | noCommand
  | unknownCommand (word : String)
  | unknownArgument (argument : String)
  | missingOption (name : String)
  | repeatedOption (name : String)
  /-- The option has no value, or an empty one where a path is needed. -/
  | missingValue (name : String)
  /-- A flag has a value. -/
  | unexpectedValue (name : String)
deriving DecidableEq, Repr

namespace UsageError

def message : UsageError → String
  | .help => "help"
  | .version => "version"
  | .noCommand => "a command is required"
  | .unknownCommand word => "unrecognized command '" ++ word ++ "'"
  | .unknownArgument argument => "unexpected argument '" ++ argument ++ "'"
  | .missingOption name => "the option '--" ++ name ++ "' is required"
  | .repeatedOption name => "the option '--" ++ name ++ "' cannot be used several times"
  | .missingValue name => "a value is required for '--" ++ name ++ "'"
  | .unexpectedValue name => "the option '--" ++ name ++ "' takes no value"

end UsageError

inductive OptionKind where
  | flag
  /-- A flag that asks for help and ends the reading. -/
  | help
  | value
  /-- A value that must not be empty. -/
  | path
  /-- One value or more; the option may come again. -/
  | values
deriving DecidableEq, Repr

/-- An option: its name, perhaps a letter in place of it, and what it takes. -/
structure OptionRule where
  name : String
  letter : Option Char := none
  kind : OptionKind
deriving DecidableEq, Repr

/-- The values given to options, by their names. Flags have none. -/
abbrev Options := Fields (List String)

namespace Options

/-- An argument by its form: behind two dashes, behind one, or none of these. -/
inductive Form where
  | separator
  | long (name : String) (attached : Option String)
  | short (letter : Char) (attached : Option String)
  | word (text : String)
deriving DecidableEq, Repr

/-- A text split at its first `=`. -/
def splitEqual (cs : List Char) : String × Option String :=
  (String.ofList (cs.takeWhile (· ≠ '=')),
    match cs.dropWhile (· ≠ '=') with
    | [] => none
    | _ :: value => some (String.ofList value))

/-- The value behind a letter. -/
def attachedValue : List Char → Option String
  | [] => none
  | '=' :: rest => some (String.ofList rest)
  | cs => some (String.ofList cs)

def form (argument : String) : Form :=
  match argument.toList with
  | ['-', '-'] => .separator
  | '-' :: '-' :: rest =>
    let (name, attached) := splitEqual rest
    .long name attached
  | '-' :: letter :: rest => .short letter (attachedValue rest)
  | _ => .word argument

/-- An option that still takes values, or has just taken its last one. -/
structure Pending where
  rule : OptionRule
  values : List String
  takesMore : Bool
deriving DecidableEq, Repr

def record (given : Options) (rule : OptionRule) (values : List String) :
    Except UsageError Options :=
  let before := Fields.get? given rule.name
  match rule.kind with
  | .help => throw .help
  | .flag =>
    if before.isSome then throw (.repeatedOption rule.name)
    else pure (Fields.insert given rule.name [])
  | .values =>
    if values.isEmpty then throw (.missingValue rule.name)
    else pure (Fields.insert given rule.name (before.getD [] ++ values))
  | _ =>
    if values.isEmpty then throw (.missingValue rule.name)
    else if before.isSome then throw (.repeatedOption rule.name)
    else if rule.kind = .path ∧ values = [""] then throw (.missingValue rule.name)
    else pure (Fields.insert given rule.name values)

def settle (given : Options) : Option Pending → Except UsageError Options
  | none => pure given
  | some pending => record given pending.rule pending.values

def takesValue (rule : OptionRule) : Bool := rule.kind != .flag && rule.kind != .help

/-- An option with the value attached to it comes after the pending one. -/
def next (given : Options) (pending : Option Pending) (rule : OptionRule)
    (attached : Option String) : Except UsageError (Options × Option Pending) := do
  if takesValue rule then
    let given ← settle given pending
    match attached with
    | some value => pure (← record given rule [value], none)
    | none => pure (given, some ⟨rule, [], true⟩)
  else
    let given ← settle given pending
    pure (← record given rule [], none)

/-- Collect the values of options from arguments. Of two faults the first counts, but an argument
that is not known counts before the option in front of it is looked at. -/
def collect (rules : List OptionRule) :
    List String → Options → Option Pending → Except UsageError Options
  | [], given, pending => settle given pending
  | argument :: rest, given, pending =>
    match form argument with
    | .separator =>
      match rest with
      | [] => settle given pending
      | word :: _ => throw (.unknownArgument word)
    | .long name attached =>
      match rules.find? fun rule => rule.name == name with
      | none => throw (.unknownArgument argument)
      | some rule =>
        if attached.isSome && !takesValue rule then throw (.unexpectedValue name)
        else do
          let (given, pending) ← next given pending rule attached
          collect rules rest given pending
    | .short letter attached =>
      match rules.find? fun rule => rule.letter == some letter with
      | none => throw (.unknownArgument argument)
      | some rule => do
        let (given, pending) ← next given pending rule attached
        collect rules rest given pending
    | .word text =>
      match pending with
      | some ⟨rule, values, true⟩ =>
        collect rules rest given (some ⟨rule, values ++ [text], rule.kind == .values⟩)
      | _ => throw (.unknownArgument argument)

def ofArguments (rules : List OptionRule) (arguments : List String) : Except UsageError Options :=
  collect rules arguments [] none

def has (given : Options) (name : String) : Bool := (Fields.get? given name).isSome

def values (given : Options) (name : String) : List String := (Fields.get? given name).getD []

def value? (given : Options) (name : String) : Option String := (values given name).head?

/-- The value of an option that must be given. -/
def required (given : Options) (name : String) : Except UsageError String :=
  match value? given name with
  | some value => pure value
  | none => throw (.missingOption name)

end Options

end SchemaSynth
