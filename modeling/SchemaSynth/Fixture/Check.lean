import SchemaSynth.CommandLine.Outcome
import SchemaSynth.Fixture.Basic
import SchemaSynth.Fixture.Selection
import SchemaSynth.Text.Basic

/-!
# Checking fixtures

`checkFixtures` checks all fixtures of a directory and tells which cases fail, and why.
-/

namespace SchemaSynth

namespace FixtureCase

/-- The wording of what was got in the place of what was expected; nothing if they agree. -/
def complaint? (c : FixtureCase) (result : Except WalkError Fragment) : Option String :=
  match result, c.expected, c.error with
  | .ok fragment, some expected, _ =>
    if fragment.toJson.sameContent expected then none
    else some ("expected " ++ expected.compact ++ "\n     got " ++ fragment.toJson.compact)
  | .ok fragment, none, _ => some ("expected an error, got " ++ fragment.toJson.compact)
  | .error e, _, some text =>
    if Text.occursIn text.toList e.message.toList then none
    else some ("unexpected error: " ++ e.message)
  | .error e, _, none => some ("unexpected error: " ++ e.message)

end FixtureCase

/-- How many cases passed and failed, and what is to be told of those that failed. -/
structure Tally where
  passed : Nat := 0
  failed : Nat := 0
  messages : List String := []
deriving DecidableEq, Repr

namespace Tally

def count (tally : Tally) : Option String → Tally
  | none => { tally with passed := tally.passed + 1 }
  | some message =>
    { tally with failed := tally.failed + 1, messages := tally.messages ++ [message] }

end Tally

namespace Fixture

/-- What is wrong with a case in a mode. -/
def complaint? (f : Fixture) (c : FixtureCase) (mode : Mode) : Option String :=
  match f.table.root? f.root with
  | none => some ("no root named " ++ f.root)
  | some root => c.complaint? (f.table.schema { mode } root f.additional)

def mark (text : String) : String := "✘ " ++ text

def countCases (name : String) (f : Fixture) : Nat → List FixtureCase → Tally → Tally
  | _, [], tally => tally
  | i, c :: rest, tally =>
    countCases name f (i + 1) rest
      (c.modes.foldl (fun tally mode => tally.count ((f.complaint? c mode).map fun complaint =>
        mark (name ++ "[" ++ toString i ++ "] " ++ mode.describe ++ "\n     " ++ complaint))) tally)

def count (name : String) (f : Fixture) (tally : Tally) : Tally := countCases name f 0 f.cases tally

def ofText (path text : String) : Except RunError Fixture :=
  inContext ("invalid fixture " ++ path) .read (read .text (.ofText text))

section

variable {m : Type → Type} [Monad m] (fs : FileSystem m)

def check (path : String) (tally : Tally) : m Tally := do
  let name := (Path.stem? path).getD ""
  let result :=
    (inContext ("cannot read " ++ path) .file (← fs.read path)).bind (ofText path)
  match result with
  | .ok f => return f.count name tally
  | .error e => return tally.count (some (mark (name ++ ": " ++ e.message)))

def checkAll : List String → Tally → m Tally
  | [], tally => return tally
  | path :: rest, tally => do checkAll rest (← check fs path tally)

def outcome (tally : Tally) : Outcome :=
  { exitCode := if tally.failed = 0 then 0 else 1
    messages := tally.messages ++
      [toString tally.passed ++ " passed, " ++ toString tally.failed ++ " failed"] }

def unreadable (dir : String) (e : FileError) : Outcome :=
  { exitCode := 1
    messages := ["Error: cannot read " ++ dir, "", "Caused by:", "    " ++ e.message] }

/-- The paths of the fixtures among the names in a directory, in order, that a selection picks. -/
def paths (dir : String) (selection : Option Selection) (names : List String) : List String :=
  let chosen := names.filter fun name =>
    isFileName name &&
      match selection with
      | none => true
      | some selection => selection.picks (Path.stemOfName name)
  (chosen.mergeSort fun a b => a ≤ b).map (Path.join dir)

end

end Fixture

/-- Check the fixtures of a directory, which is the first argument; of the names the second argument
picks, if there is one. -/
def checkFixtures {m : Type → Type} [Monad m] (fs : FileSystem m) (arguments : List String) :
    m Outcome := do
  let dir := arguments.head?.getD "fixtures"
  match ← fs.names dir with
  | .error e => return Fixture.unreadable dir e
  | .ok names =>
    let paths := Fixture.paths dir ((arguments[1]?).map Selection.ofText) names
    return Fixture.outcome (← Fixture.checkAll fs paths {})

end SchemaSynth
