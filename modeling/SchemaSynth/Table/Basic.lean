import SchemaSynth.Json.Basic
import SchemaSynth.Text.Quoted

/-!
# Type tables

A type checker hands over the types it resolved as a table of descriptors that name each other by
position, so that a type may refer to itself. A descriptor is what the checker says about a type;
what to make of it is decided by `TypeShape.ofDescriptor`.
-/

namespace SchemaSynth

/-- The position of a type in its table. -/
abbrev TypeId := Nat

def TypeId.text (id : TypeId) : String := "#" ++ toString id

/-- A category that a checker puts a type in. A type may be in several. Categories that are not
known here keep their name. -/
inductive Flag where
  | string
  | number
  | boolean
  | any
  | null
  | undefined
  | never
  | enumLike
  | union
  | intersection
  | object
  | array
  | literal
  | other (name : String)
deriving DecidableEq, Repr

namespace Flag

def known : Fields Flag :=
  [("string", .string), ("number", .number), ("boolean", .boolean), ("any", .any),
    ("null", .null), ("undefined", .undefined), ("never", .never), ("enum_like", .enumLike),
    ("union", .union), ("intersection", .intersection), ("object", .object), ("array", .array),
    ("literal", .literal)]

def ofName (name : String) : Flag := (Fields.get? known name).getD (.other name)

def name : Flag → String
  | .string => "string"
  | .number => "number"
  | .boolean => "boolean"
  | .any => "any"
  | .null => "null"
  | .undefined => "undefined"
  | .never => "never"
  | .enumLike => "enum_like"
  | .union => "union"
  | .intersection => "intersection"
  | .object => "object"
  | .array => "array"
  | .literal => "literal"
  | .other name => name

def describe : Flag → String
  | .string => "String"
  | .number => "Number"
  | .boolean => "Boolean"
  | .any => "Any"
  | .null => "Null"
  | .undefined => "Undefined"
  | .never => "Never"
  | .enumLike => "EnumLike"
  | .union => "Union"
  | .intersection => "Intersection"
  | .object => "Object"
  | .array => "Array"
  | .literal => "Literal"
  | .other name => "Other(" ++ Text.quoted name ++ ")"

def describeAll (flags : List Flag) : String := "[" ++ ", ".intercalate (flags.map describe) ++ "]"

end Flag

/-- The keys of an open dictionary. -/
inductive IndexKind where
  | string
  | number
deriving DecidableEq, Repr

/-- Where a member comes from: a declaration in the source, the checker itself (a member of a mapped
type), or neither. -/
inductive Origin where
  | declared
  | synthetic
  | undeclared
deriving DecidableEq, Repr

/-- A documentation tag: a raw line such as `@min 3`, or its name and text. -/
inductive DocTag where
  | line (text : String)
  | split (name : String) (text : Option String)
deriving DecidableEq, Repr

structure Member where
  name : String
  type : TypeId
  optional : Bool := false
  origin : Origin := .declared
  tags : List DocTag := []
deriving DecidableEq, Repr

/-- What a checker says about a type. -/
structure Descriptor where
  flags : List Flag := []
  symbol : Option String := none
  aliasSymbol : Option String := none
  /-- The value of a literal type. -/
  value : Option Json := none
  /-- The name of a boolean literal type, which carries no value. -/
  intrinsicName : Option String := none
  /-- Constituents of a union, an intersection or an enum, in declaration order. -/
  types : List TypeId := []
  typeArguments : List TypeId := []
  members : List Member := []
  index : Option IndexKind := none
  tags : List DocTag := []

namespace Descriptor

def has (d : Descriptor) (flag : Flag) : Bool := d.flags.contains flag

def hasAny (d : Descriptor) (flags : List Flag) : Bool := flags.any d.has

end Descriptor

/-- Types that refer to each other by position, and names for some of them. -/
structure TypeTable where
  types : Array Descriptor := #[]
  roots : Fields TypeId := []

namespace TypeTable

def size (table : TypeTable) : Nat := table.types.size

def get? (table : TypeTable) (id : TypeId) : Option Descriptor := table.types[id]?

def root? (table : TypeTable) (name : String) : Option TypeId := Fields.get? table.roots name

end TypeTable

end SchemaSynth
