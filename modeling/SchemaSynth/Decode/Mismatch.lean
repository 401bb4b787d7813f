import SchemaSynth.Number.Basic
import SchemaSynth.Text.Quoted

/-!
# Faults of a document

`ReadError` is what stops the reading of a document: the text is malformed, or a part of it does
not have the form asked for. A mismatch comes with the path to the place where it was found.
`Mismatch.message` and `ReadError.message` give the wording.
-/

namespace SchemaSynth

/-- A step from a value to one of its parts. -/
inductive Step where
  | key (name : String)
  | index (position : Nat)
deriving DecidableEq, Repr

/-- The text of a path: keys behind dots, positions in brackets, a lone dot for the document. -/
def pathText (path : List Step) : String :=
  let rec tail : List Step → String
    | [] => ""
    | .key name :: rest => "." ++ name ++ tail rest
    | .index i :: rest => "[" ++ toString i ++ "]" ++ tail rest
  match path with
  | [] => "."
  | .key name :: rest => name ++ tail rest
  | path => tail path

/-- What stood in the place of something else. -/
inductive Found where
  | null
  | boolean (value : Bool)
  | number (value : Number)
  | string (value : String)
  | sequence
  | map
deriving DecidableEq, Repr

namespace Found

def tick (s : String) : String := "\x60" ++ s ++ "\x60"

def describe : Found → String
  | .null => "null"
  | .boolean b => "boolean " ++ tick (if b then "true" else "false")
  | .number (.int n) => "integer " ++ tick (toString n)
  | .number (.double x) => "floating point " ++ tick x.text
  | .string s => "string " ++ Text.quoted s
  | .sequence => "sequence"
  | .map => "map"

end Found

/-- Why a part of a document does not have the form asked for. -/
inductive Mismatch where
  | missingField (name : String)
  | duplicateField (name : String)
  | invalidType (found : Found) (expected : String)
  | invalidValue (found : Found) (expected : String)
  | invalidLength (length : Nat) (expected : String)
  | unknownVariant (name : String) (known : List String)
  | noVariant (type : String)
deriving DecidableEq, Repr

namespace Mismatch

/-- The names that would have been right. -/
def oneOf : List String → String
  | [] => "there are no variants"
  | [a] => "expected " ++ Found.tick a
  | [a, b] => "expected " ++ Found.tick a ++ " or " ++ Found.tick b
  | names => "expected one of " ++ ", ".intercalate (names.map Found.tick)

def message : Mismatch → String
  | .missingField name => "missing field " ++ Found.tick name
  | .duplicateField name => "duplicate field " ++ Found.tick name
  | .invalidType found expected =>
    "invalid type: " ++ found.describe ++ ", expected " ++ expected
  | .invalidValue found expected =>
    "invalid value: " ++ found.describe ++ ", expected " ++ expected
  | .invalidLength length expected =>
    "invalid length " ++ toString length ++ ", expected " ++ expected
  | .unknownVariant name known => "unknown variant " ++ Found.tick name ++ ", " ++ oneOf known
  | .noVariant type => "data did not match any variant of untagged enum " ++ type

end Mismatch

inductive ReadError where
  | malformed
  | mismatch (path : List Step) (cause : Mismatch)
deriving DecidableEq, Repr

namespace ReadError

def here (cause : Mismatch) : ReadError := .mismatch [] cause

/-- The fault as seen from one step further out. -/
def outward (step : Step) : ReadError → ReadError
  | .malformed => .malformed
  | .mismatch path cause => .mismatch (step :: path) cause

def message : ReadError → String
  | .malformed => "malformed JSON text"
  | .mismatch path cause =>
    "at JSON path " ++ pathText path ++ " → " ++ cause.message

end ReadError

end SchemaSynth
