import SchemaSynth.CommandLine.Run
import SchemaSynth.Files.Glob
import SchemaSynth.Filter.Parse

/-!
# Outcomes

The outcome of a program is what its caller gets to see: an exit code, the text of the output, and
messages. `execute` is the whole program, from its arguments to its outcome.
-/

namespace SchemaSynth

/-- What a program leaves behind, besides files. -/
structure Outcome where
  exitCode : Nat
  output : String := ""
  /-- Each on lines of its own. -/
  messages : List String := []
deriving DecidableEq, Repr

def versionText : String := "schema-transform 0.1.0\n"

def helpText : String :=
  "Make validation schemas from resolved type tables, or expand the calls of compiled units\n" ++
    "\n" ++
    "Usage: schema-transform schema --input <FILE>... --type <NAME> [OPTIONS]\n" ++
    "       schema-transform expand --input <FILE>... [OPTIONS]\n" ++
    "\n" ++
    "Options:\n" ++
    "  -i, --input <FILE>...       documents, or patterns for them\n" ++
    "      --json-pointer <PATH>   the part of each document that counts\n" ++
    "      --jq-expr <FILTER>      a filter for each document\n" ++
    "      --config <FILE>         the configuration\n" ++
    "      --flat                  write nested objects flat\n" ++
    "      --no-annotations        leave out annotations\n" ++
    "      --opaque-arrays         leave out the items of arrays\n" ++
    "      --bare-leaves           write leaves as bare names\n" ++
    "      --function-name <NAME>  the function whose calls are expanded\n" ++
    "      --module <PATH>         the end of the path of its declaration\n" ++
    "      --type <NAME>           schema: the type\n" ++
    "      --no-additional         schema: as if the call said no to annotations\n" ++
    "  -o, --out <FILE>            schema: the file to write\n" ++
    "      --out-dir <DIR>         expand: the directory to write to\n" ++
    "      --no-op                 do nothing\n" ++
    "  -h, --help                  print this text\n" ++
    "  -V, --version               print the version\n"

namespace Outcome

def ofUsage : UsageError → Outcome
  | .help => { exitCode := 0, output := helpText }
  | .version => { exitCode := 0, output := versionText }
  | .noCommand => { exitCode := 2, messages := [helpText] }
  | e => { exitCode := 2, messages := ["error: " ++ e.message] }

def ofRun : Except RunError Report → Outcome
  | .ok report =>
    { exitCode := 0, output := report.output, messages := report.summary.toList }
  | .error e => { exitCode := 1, messages := ["error: " ++ e.message] }

end Outcome

/-- The filters and the searches that the program comes with. -/
def Tools.builtIn {m : Type → Type} [Monad m] (fs : FileSystem m) : Tools m where
  filter text value := pure ((Filter.ofText? text).bind fun filter => filter.run? value)
  search pattern := (Glob.ofText? pattern).map fun glob => (glob.find fs).run

/-- Do what a command asks for with what the program comes with. -/
def Command.run {m : Type → Type} [Monad m] (fs : FileSystem m) (command : Command) :
    ExceptT RunError m Report :=
  command.runWith (.builtIn fs) fs

def execute {m : Type → Type} [Monad m] (fs : FileSystem m) (arguments : List String) :
    m Outcome := do
  match Command.ofArguments arguments with
  | .error e => return .ofUsage e
  | .ok command => return .ofRun (← (command.run fs).run)

end SchemaSynth
