import SchemaSynth.Shape
import SchemaSynth.Annotations

/-!
# Schema fragments

A fragment is the schema of one type: a leaf, an array with a schema for its items, an object with
named properties, a list of alternatives. Fragments with a `type` carry marks: whether the slot is
optional, and extras from annotations. `Fragment.toJson` renders a fragment; in the object it makes,
`type` comes first, then the body (`values`, `items`, `props`), `optional`, and the extras.
-/

namespace SchemaSynth

/-- A schema without parts. -/
inductive Leaf where
  /-- A primitive type or the name of a predefined one. -/
  | primitive (name : String)
  | forbidden
  | enum (values : List LiteralValue)
  /-- An array of anything. -/
  | array
  /-- An object of any form. -/
  | object
deriving DecidableEq, Repr

def Leaf.typeName : Leaf → String
  | .primitive name => name
  | .forbidden => "forbidden"
  | .enum _ => "enum"
  | .array => "array"
  | .object => "object"

/-- What stands beside the `type` of a fragment. -/
structure Marks where
  optional : Bool := false
  extras : Extras := []

/-- The schema of a type. -/
inductive Fragment where
  /-- Nothing is known: no type was given, or an object without members. -/
  | empty
  | leaf (kind : Leaf) (marks : Marks)
  | arrayOf (items : Fragment) (marks : Marks)
  | object (props : List (String × Fragment)) (marks : Marks)
  /-- The properties of an object without a `type` around them. -/
  | flat (props : List (String × Fragment)) (extras : Extras)
  /-- The branches of a union. Marks go to the entries. -/
  | alternatives (entries : List Fragment)
  /-- The name of a type in the place of its fragment. -/
  | bare (name : String)
deriving Inhabited

/-- Named fragments. -/
abbrev Props := Fields Fragment

namespace Fragment

/-- A primitive type or a predefined one. -/
def primitive (name : String) : Fragment := .leaf (.primitive name) {}

/-- The schema no value satisfies. -/
def forbidden : Fragment := .leaf .forbidden {}

def enumeration (values : List LiteralValue) : Fragment := .leaf (.enum values) {}

/-- An array, of items of one schema or of anything. -/
def array : Option Fragment → Fragment
  | some items => .arrayOf items {}
  | none => .leaf .array {}

def opaqueObject : Fragment := .leaf .object {}

/-! ## Marks -/

mutual

/-- Mark the slot of a fragment optional: the entries of a list each, but nothing without a `type`
of its own, and never what is forbidden. -/
def markOptional : Fragment → Fragment
  | .leaf .forbidden marks => .leaf .forbidden marks
  | .leaf kind marks => .leaf kind { marks with optional := true }
  | .arrayOf items marks => .arrayOf items { marks with optional := true }
  | .object props marks => .object props { marks with optional := true }
  | .alternatives entries => .alternatives (markEntries entries)
  | .empty => .empty
  | .flat props extras => .flat props extras
  | .bare name => .bare name

/-- Mark every entry of a list optional. -/
def markEntries : List Fragment → List Fragment
  | [] => []
  | f :: rest => markOptional f :: markEntries rest

end

def optional (f : Fragment) (mark : Bool) : Fragment := if mark then f.markOptional else f

/-- Extras can stand beside the `type` of the fragment. -/
def isMapping : Fragment → Bool
  | .empty | .leaf .. | .arrayOf .. | .object .. => true
  | .flat .. | .alternatives _ | .bare _ => false

/-- The marks with more extras. -/
def Marks.withExtras (marks : Marks) (extras : Extras) : Marks :=
  { marks with extras := Fields.merge marks.extras extras }

/-- Put extras beside the `type` of a fragment, or among the properties of a flat object. Later
values win. Lists and bare names have no place for them. -/
def withExtras (f : Fragment) (extras : Extras) : Fragment :=
  if extras.isEmpty then f
  else
    match f with
    | .empty => .flat [] extras
    | .leaf kind marks => .leaf kind (Marks.withExtras marks extras)
    | .arrayOf items marks => .arrayOf items (Marks.withExtras marks extras)
    | .object props marks => .object props (Marks.withExtras marks extras)
    | .flat props own => .flat props (Fields.merge own extras)
    | .alternatives entries => .alternatives entries
    | .bare name => .bare name

/-! ## Bare leaves -/

mutual

/-- Put the name of the type in the place of every fragment but objects with properties and
lists. -/
def toBare : Fragment → Fragment
  | .leaf kind _ => .bare kind.typeName
  | .arrayOf _ _ => .bare "array"
  | .object props marks => .object (bareProps props) marks
  | .flat props extras => .flat (bareProps props) extras
  | .alternatives entries => .alternatives (bareEntries entries)
  | .empty => .empty
  | .bare name => .bare name

def bareProps : List (String × Fragment) → List (String × Fragment)
  | [] => []
  | (name, f) :: rest => (name, toBare f) :: bareProps rest

def bareEntries : List Fragment → List Fragment
  | [] => []
  | f :: rest => toBare f :: bareEntries rest

end

/-! ## Objects -/

/-- The properties of an object, wrapped or flat. -/
def props? : Fragment → Option Props
  | .object props _ => some props
  | .flat props _ => some props
  | _ => none

/-- The extras of an object, wrapped or flat. -/
def objectExtras? : Fragment → Option Extras
  | .object _ marks => some marks.extras
  | .flat _ extras => some extras
  | _ => none

/-! ## Rendering -/

/-- The object of a fragment with a `type`: the type, its body, the optional marker, the extras. An
extra with the name of an earlier field takes its place. -/
def typed (typeName : String) (body : Fields Json) (marks : Marks) : Json :=
  let marker := if marks.optional then [("optional", .bool true)] else []
  .object (Fields.merge (("type", .string typeName) :: body ++ marker) marks.extras)

def leafBody : Leaf → Fields Json
  | .enum values => [("values", .array (values.map LiteralValue.toJson))]
  | _ => []

mutual

def toJson : Fragment → Json
  | .empty => .object []
  | .leaf kind marks => typed kind.typeName (leafBody kind) marks
  | .arrayOf items marks => typed "array" [("items", toJson items)] marks
  | .object props marks => typed "object" [("props", .object (propsToJson props))] marks
  | .flat props extras => .object (Fields.merge (propsToJson props) extras)
  | .alternatives entries => .array (entriesToJson entries)
  | .bare name => .string name

def propsToJson : List (String × Fragment) → List (String × Json)
  | [] => []
  | (name, f) :: rest => (name, toJson f) :: propsToJson rest

/-- The values of the entries of a list. A bare name gets a `type` around it. -/
def entriesToJson : List Fragment → List Json
  | [] => []
  | f :: rest =>
    (match f with
      | .bare name => .object [("type", .string name)]
      | f => toJson f) :: entriesToJson rest

end

end Fragment

end SchemaSynth
