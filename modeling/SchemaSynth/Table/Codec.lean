import SchemaSynth.Table.Basic
import SchemaSynth.Decode.Reader

/-!
# Type tables as documents

How type tables are read from documents and written back. Every `read` has its `toJson`; what has
been read is written in one form, whatever form it came in.
-/

namespace SchemaSynth

/-- The field of an object that is written only if there is a value. -/
def optionalField (name : String) (value : Option Json) : List (String × Json) :=
  match value with
  | some v => [(name, v)]
  | none => []

/-- The field of an object that is written only if its list has items. -/
def listField (name : String) (items : List Json) : List (String × Json) :=
  if items.isEmpty then [] else [(name, .array items)]

namespace TypeId

def read (raw : Raw) : Except ReadError TypeId := raw.readNat 32 "u32"

def readList (source : Source) (raw : Raw) : Except ReadError (List TypeId) :=
  raw.readList source read

def toJson (id : TypeId) : Json := .int id

end TypeId

namespace Flag

/-- Read a category: its name, or an object with the name of a known one over `null`. -/
def read (raw : Raw) : Except ReadError Flag :=
  if !raw.readable then throw .malformed
  else
    match raw with
    | .string name => pure (ofName name)
    | .object [(some name, .null)] =>
      match Fields.get? known name with
      | some flag => pure flag
      | none => throw (.here (.noVariant "TypeFlag"))
    | _ => throw (.here (.noVariant "TypeFlag"))

def toJson (flag : Flag) : Json := .string flag.name

end Flag

namespace IndexKind

def known : Fields IndexKind := [("string", .string), ("number", .number)]

def read (source : Source) (raw : Raw) : Except ReadError IndexKind := raw.readChoice source known

def name : IndexKind → String
  | .string => "string"
  | .number => "number"

def toJson (kind : IndexKind) : Json := .string kind.name

end IndexKind

namespace Origin

def known : Fields Origin :=
  [("declared", .declared), ("synthetic", .synthetic), ("undeclared", .undeclared)]

def read (source : Source) (raw : Raw) : Except ReadError Origin := raw.readChoice source known

def name : Origin → String
  | .declared => "declared"
  | .synthetic => "synthetic"
  | .undeclared => "undeclared"

def toJson (origin : Origin) : Json := .string origin.name

end Origin

namespace DocTag

/-- The text beside a name: absent, `null` or a string. -/
def text? : Option Raw → Option (Option String)
  | none => some none
  | some .null => some none
  | some (.string s) => some (some s)
  | some _ => none

/-- The values under a key that may be repeated. -/
def valuesOf (key : String) (fields : List (Option String × Raw)) : List Raw :=
  (fields.filter fun field => field.1 == some key).map Prod.snd

/-- The tag that the fields of an object make up: a name, and perhaps a text, once each. -/
def ofFields? (fields : List (Option String × Raw)) : Option DocTag :=
  match valuesOf "name" fields, valuesOf "text" fields with
  | [.string name], [] => some (.split name none)
  | [.string name], [text] => (text? (some text)).map (.split name)
  | _, _ => none

/-- Read a tag: a line, or an object with name and text. -/
def read (raw : Raw) : Except ReadError DocTag :=
  if !raw.readable then throw .malformed
  else
    match raw with
    | .string text => pure (.line text)
    | .object fields =>
      match ofFields? fields with
      | some tag => pure tag
      | none => throw (.here (.noVariant "DocTag"))
    | _ => throw (.here (.noVariant "DocTag"))

def toJson : DocTag → Json
  | .line text => .string text
  | .split name text =>
    .object [("name", .string name), ("text", (text.map Json.string).getD .null)]

end DocTag

namespace Member

def layout : Raw.Layout :=
  ⟨"struct Member",
    [("name", true), ("type", true), ("optional", false), ("origin", false), ("tags", false)]⟩

def visit (source : Source) (field : String) (raw : Raw) (m : Member) :
    Except ReadError Member := do
  match field with
  | "name" => return { m with name := ← raw.readString }
  | "type" => return { m with type := ← TypeId.read raw }
  | "optional" => return { m with optional := ← raw.readBool }
  | "origin" => return { m with origin := ← Origin.read source raw }
  | "tags" => return { m with tags := ← raw.readList source DocTag.read }
  | _ => return m

def read (source : Source) (raw : Raw) : Except ReadError Member :=
  raw.readRecord source layout (visit source) { name := "", type := 0 }

/-- A member as a value, with all its fields. -/
def toJson (m : Member) : Json :=
  .object [("name", .string m.name), ("type", TypeId.toJson m.type), ("optional", .bool m.optional),
    ("origin", m.origin.toJson), ("tags", .array (m.tags.map DocTag.toJson))]

end Member

namespace Descriptor

def layout : Raw.Layout :=
  ⟨"struct Descriptor",
    [("flags", false), ("symbol", false), ("alias_symbol", false), ("value", false),
      ("intrinsic_name", false), ("types", false), ("type_arguments", false), ("members", false),
      ("index", false), ("tags", false)]⟩

def visit (source : Source) (field : String) (raw : Raw) (d : Descriptor) :
    Except ReadError Descriptor := do
  match field with
  | "flags" => return { d with flags := ← raw.readList source Flag.read }
  | "symbol" => return { d with symbol := ← raw.readOption Raw.readString }
  | "alias_symbol" => return { d with aliasSymbol := ← raw.readOption Raw.readString }
  | "value" => return { d with value := ← raw.readOption Raw.readJson }
  | "intrinsic_name" => return { d with intrinsicName := ← raw.readOption Raw.readString }
  | "types" => return { d with types := ← TypeId.readList source raw }
  | "type_arguments" => return { d with typeArguments := ← TypeId.readList source raw }
  | "members" => return { d with members := ← raw.readList source (Member.read source) }
  | "index" => return { d with index := ← raw.readOption (IndexKind.read source) }
  | "tags" => return { d with tags := ← raw.readList source DocTag.read }
  | _ => return d

def read (source : Source) (raw : Raw) : Except ReadError Descriptor :=
  raw.readRecord source layout (visit source) {}

/-- A descriptor as a value: categories always, other fields only if there is something in them. -/
def toJson (d : Descriptor) : Json :=
  .object ([("flags", .array (d.flags.map Flag.toJson))] ++
    optionalField "symbol" (d.symbol.map .string) ++
    optionalField "alias_symbol" (d.aliasSymbol.map .string) ++
    optionalField "value" d.value ++
    optionalField "intrinsic_name" (d.intrinsicName.map .string) ++
    listField "types" (d.types.map TypeId.toJson) ++
    listField "type_arguments" (d.typeArguments.map TypeId.toJson) ++
    listField "members" (d.members.map Member.toJson) ++
    optionalField "index" (d.index.map IndexKind.toJson) ++
    listField "tags" (d.tags.map DocTag.toJson))

end Descriptor

namespace TypeTable

def layout : Raw.Layout := ⟨"struct DescriptorTable", [("types", true), ("roots", false)]⟩

def visit (source : Source) (field : String) (raw : Raw) (t : TypeTable) :
    Except ReadError TypeTable := do
  match field with
  | "types" => return { t with types := (← raw.readList source (Descriptor.read source)).toArray }
  | "roots" => return { t with roots := ← raw.readMap source TypeId.read }
  | _ => return t

def read (source : Source) (raw : Raw) : Except ReadError TypeTable :=
  raw.readRecord source layout (visit source) {}

/-- A table as a value; the roots only if there are any. -/
def toJson (t : TypeTable) : Json :=
  .object ([("types", .array (t.types.toList.map Descriptor.toJson))] ++
    (if t.roots.isEmpty then [] else
      [("roots", .object (t.roots.map fun (name, id) => (name, TypeId.toJson id)))]))

end TypeTable

end SchemaSynth
