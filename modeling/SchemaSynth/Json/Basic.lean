import SchemaSynth.Fields
import SchemaSynth.Number.Basic
import SchemaSynth.Text.Basic

/-!
# Documents

A document value. Objects keep the order of their fields, so it is part of the value;
`Json.sameContent` compares without regard to it.

A pointer (`Json.pointer?`) is empty, for the whole value, or a list of parts, each behind a slash.
A part selects a field of an object or, as a number without leading zeros, an item of an array; `~1`
in it stands for a slash and `~0` for a tilde.
-/

namespace SchemaSynth

inductive Json where
  | null
  | bool (value : Bool)
  | number (value : Number)
  | string (value : String)
  | array (items : List Json)
  | object (fields : List (String × Json))
deriving Inhabited

namespace Json

def int (n : Int) : Json := .number (.int n)

def field? : Json → String → Option Json
  | .object fields, key => Fields.get? fields key
  | _, _ => none

mutual

/-- Equality up to the order of object fields. The two zeros of binary64 are equal, an integer and
a binary64 number never are. -/
def sameContent : Json → Json → Bool
  | .null, .null => true
  | .bool a, .bool b => a == b
  | .number (.int a), .number (.int b) => a == b
  | .number (.double a), .number (.double b) => a.same b
  | .string a, .string b => a == b
  | .array xs, .array ys => sameItems xs ys
  | .object xs, .object ys => xs.length == ys.length && sameFields xs ys
  | _, _ => false

def sameItems : List Json → List Json → Bool
  | [], [] => true
  | x :: xs, y :: ys => sameContent x y && sameItems xs ys
  | _, _ => false

/-- Every field of the first list has an equal one in the second. -/
def sameFields : List (String × Json) → List (String × Json) → Bool
  | [], _ => true
  | (key, x) :: xs, ys =>
    (match Fields.get? ys key with
      | some y => sameContent x y
      | none => false) && sameFields xs ys

end

/-- A part of a pointer without its escapes. -/
def unescapePart : List Char → List Char
  | '~' :: '1' :: rest => '/' :: unescapePart rest
  | '~' :: '0' :: rest => '~' :: unescapePart rest
  | c :: rest => c :: unescapePart rest
  | [] => []

/-- The array index a part stands for. -/
def partIndex? (part : String) : Option Nat :=
  match part.toList with
  | [] => none
  | '0' :: _ :: _ => none
  | cs => (Text.digitValues? cs).map Text.ofDigits

def child? (value : Json) (part : String) : Option Json :=
  match value with
  | .object fields => Fields.get? fields part
  | .array items => (partIndex? part).bind fun i => items[i]?
  | _ => none

def pointer? (value : Json) (pointer : String) : Option Json :=
  match pointer.splitOn "/" with
  | "" :: parts =>
    parts.foldlM (fun v part => child? v (String.ofList (unescapePart part.toList))) value
  | _ => none

end Json

end SchemaSynth
