import SchemaSynth.Config
import SchemaSynth.Table.Codec
import SchemaSynth.Text.WordChar

/-!
# Fixtures

A fixture names a type of a table and the schemas expected for it, perhaps in several modes. It is a
file with a plain name that ends in `.json`.
-/

namespace SchemaSynth

/-- What is expected of a type: a schema, or a fault whose wording has a text in it. -/
structure FixtureCase where
  /-- The mode it holds in, or all of them. -/
  mode : Option Mode := none
  expected : Option Json := none
  error : Option String := none

/-- A type and what is expected of it. -/
structure Fixture where
  table : TypeTable
  /-- The name of the type. -/
  root : String
  /-- Annotations are wanted. -/
  additional : Bool := true
  cases : List FixtureCase

namespace FixtureCase

def layout : Raw.Layout :=
  ⟨"struct Case", [("mode", false), ("expected", false), ("error", false)]⟩

def visit (source : Source) (field : String) (raw : Raw) (c : FixtureCase) :
    Except ReadError FixtureCase := do
  match field with
  | "mode" => return { c with mode := ← raw.readOption (Mode.read source) }
  | "expected" => return { c with expected := ← raw.readOption Raw.readJson }
  | "error" => return { c with error := ← raw.readOption Raw.readString }
  | _ => return c

def read (source : Source) (raw : Raw) : Except ReadError FixtureCase :=
  raw.readRecord source layout (visit source) {}

/-- The modes a case holds in. -/
def modes (c : FixtureCase) : List Mode :=
  match c.mode with
  | some mode => [mode]
  | none => Mode.all

end FixtureCase

namespace Fixture

def layout : Raw.Layout :=
  ⟨"struct Fixture", [("table", true), ("root", true), ("additional", false), ("cases", true)]⟩

def visit (source : Source) (field : String) (raw : Raw) (f : Fixture) :
    Except ReadError Fixture := do
  match field with
  | "table" => return { f with table := ← TypeTable.read source raw }
  | "root" => return { f with root := ← raw.readString }
  | "additional" => return { f with additional := ← raw.readBool }
  | "cases" => return { f with cases := ← raw.readList source (FixtureCase.read source) }
  | _ => return f

def read (source : Source) (raw : Raw) : Except ReadError Fixture :=
  raw.readRecord source layout (visit source) { table := {}, root := "", cases := [] }

def extension : List Char := ".json".toList

def isPlain (c : Char) : Bool := Text.wordChars.contains c || c == '.' || c == '-'

def isFileName (name : String) : Bool :=
  let cs := name.toList
  let stem := cs.take (cs.length - extension.length)
  !stem.isEmpty && stem.all isPlain && cs.drop (cs.length - extension.length) == extension

end Fixture

end SchemaSynth
