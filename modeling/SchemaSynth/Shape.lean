import SchemaSynth.Table.Basic

/-!
# The shape of a type

A descriptor may put a type in several categories at once: `boolean` is also the union of its two
literals, a member of an enum is also a string or a number. `TypeShape.ofDescriptor` settles once
which of them counts: primitives and their literals first, then the types without values, objects,
unions, intersections and enums.
-/

namespace SchemaSynth

/-- Types whose values are taken as they come. -/
inductive Primitive where
  | string
  | number
  | boolean
  | any
deriving DecidableEq, Repr

def Primitive.name : Primitive → String
  | .string => "string"
  | .number => "number"
  | .boolean => "boolean"
  | .any => "any"

/-- The value of a literal type. Number literals have one zero. -/
inductive LiteralValue where
  | string (value : String)
  | number (value : Binary64)
  | boolean (value : Bool)
deriving DecidableEq, Repr

namespace LiteralValue

def ofNumber (n : Number) : LiteralValue := .number n.toBinary64.unsignedZero

/-- A literal as a value: whole numbers become integers. -/
def toJson : LiteralValue → Json
  | .string s => .string s
  | .number x => .number (Number.preferInt x)
  | .boolean b => .bool b

end LiteralValue

/-- Types that no value may have in a schema. -/
inductive Forbidden where
  | null
  | undefined
  | never
deriving DecidableEq, Repr

def Forbidden.name : Forbidden → String
  | .null => "null"
  | .undefined => "undefined"
  | .never => "never"

/-- An object type: an interface, a type literal, a class, an array or a dictionary. -/
structure ObjectType where
  symbol : Option String
  aliasSymbol : Option String
  /-- The type arguments of an array, none for an array without a type of items. -/
  array : Option (List TypeId)
  index : Option IndexKind
  members : List Member
  tags : List DocTag
deriving DecidableEq, Repr

/-- What a type is, of all the categories it is in. -/
inductive TypeShape where
  | primitive (type : Primitive)
  | literal (value : LiteralValue)
  | forbidden (type : Forbidden)
  | object (type : ObjectType)
  | union (types : List TypeId)
  | intersection (types : List TypeId) (tags : List DocTag)
  | enum (types : List TypeId)
  | unsupported (flags : List Flag)
deriving DecidableEq, Repr

namespace Descriptor

/-- The primitive type among the categories of a descriptor. -/
def primitive? (d : Descriptor) : Option Primitive :=
  if d.has .string then some .string
  else if d.has .number then some .number
  else if d.has .boolean then some .boolean
  else if d.has .any then some .any
  else none

/-- The type without values among the categories of a descriptor. -/
def forbidden? (d : Descriptor) : Option Forbidden :=
  if d.has .null then some .null
  else if d.has .undefined then some .undefined
  else if d.has .never then some .never
  else none

/-- The value of a literal type. Boolean literals may go by their name alone. -/
def literal? (d : Descriptor) : Option LiteralValue :=
  match d.value with
  | some (.string s) => some (.string s)
  | some (.number n) => some (.ofNumber n)
  | some (.bool b) => some (.boolean b)
  | some _ => none
  | none =>
    if d.intrinsicName = some "true" then some (.boolean true)
    else if d.intrinsicName = some "false" then some (.boolean false)
    else none

def objectType (d : Descriptor) : ObjectType where
  symbol := d.symbol
  aliasSymbol := d.aliasSymbol
  array := if d.has .array then some d.typeArguments else none
  index := d.index
  members := d.members
  tags := d.tags

end Descriptor

namespace TypeShape

def ofDescriptor (d : Descriptor) : TypeShape :=
  match d.primitive? with
  | some p =>
    if d.has .literal then
      match d.literal? with
      | some value => .literal value
      | none => .unsupported d.flags
    else .primitive p
  | none =>
    match d.forbidden? with
    | some f => .forbidden f
    | none =>
      if d.has .object then .object d.objectType
      else if d.has .union then .union d.types
      else if d.has .intersection then .intersection d.types d.tags
      else if d.has .enumLike then .enum d.types
      else .unsupported d.flags

def literal? : TypeShape → Option LiteralValue
  | .literal value => some value
  | _ => none

/-- The type has one value. -/
def isLiteral (shape : TypeShape) : Bool := shape.literal?.isSome

def kind : TypeShape → String
  | .primitive _ => "primitive"
  | .literal _ => "literal"
  | .forbidden _ => "forbidden"
  | .object _ => "object"
  | .union _ => "union"
  | .intersection .. => "intersection"
  | .enum _ => "enum"
  | .unsupported _ => "unsupported"

end TypeShape

def TypeTable.shape? (table : TypeTable) (id : TypeId) : Option TypeShape :=
  (table.get? id).map TypeShape.ofDescriptor

end SchemaSynth
