import SchemaSynth.Decode.Reader
import SchemaSynth.Table.Codec

/-!
# Settings

`Mode` says what schemas look like, `Config` adds the settings of the walk and of the call sites.
Every setting has a default, so the empty object is a configuration.
-/

namespace SchemaSynth

/-- How nested objects are written: with a `type` around their properties, or flat. -/
inductive ObjectStyle where
  | wrapped
  | flat
deriving DecidableEq, Repr

/-- Whether arrays say what their items are. -/
inductive ArrayStyle where
  | tracked
  | opaqueItems
deriving DecidableEq, Repr

/-- Whether leaves are objects with a `type` or the bare name of it. -/
inductive LeafStyle where
  | typed
  | bare
deriving DecidableEq, Repr

/-- What schemas look like. -/
structure Mode where
  objects : ObjectStyle := .wrapped
  annotations : Bool := true
  arrayItems : ArrayStyle := .tracked
  leaves : LeafStyle := .typed
deriving DecidableEq, Repr

structure Config where
  /-- The function whose calls are replaced by schemas. -/
  functionName : String := "schema"
  /-- If given, the file that declares the function must end in this path. -/
  module : Option String := none
  /-- Symbols that stand for a schema type of their own. -/
  predefined : Fields String :=
    [("IEmail", "email"), ("IDate", "date"), ("IForbidden", "forbidden"), ("IUrl", "url"),
      ("IUUID", "uuid")]
  /-- Symbols that do not identify a type. -/
  anonymousSymbols : List String := ["__type", "__object", "Array"]
  /-- The deepest nesting that is followed. -/
  maxDepth : Nat := 256
  mode : Mode := {}
deriving DecidableEq, Repr

/-- The symbol does not identify a type. -/
def Config.isAnonymous (config : Config) (symbol : String) : Bool :=
  config.anonymousSymbols.contains symbol

/-! ## Settings as documents -/

namespace ObjectStyle

def known : Fields ObjectStyle := [("wrapped", .wrapped), ("flat", .flat)]

def name : ObjectStyle → String
  | .wrapped => "wrapped"
  | .flat => "flat"

def describe : ObjectStyle → String
  | .wrapped => "Wrapped"
  | .flat => "Flat"

end ObjectStyle

namespace ArrayStyle

def known : Fields ArrayStyle := [("tracked", .tracked), ("opaque", .opaqueItems)]

def name : ArrayStyle → String
  | .tracked => "tracked"
  | .opaqueItems => "opaque"

def describe : ArrayStyle → String
  | .tracked => "Tracked"
  | .opaqueItems => "Opaque"

end ArrayStyle

namespace LeafStyle

def known : Fields LeafStyle := [("typed", .typed), ("bare", .bare)]

def name : LeafStyle → String
  | .typed => "typed"
  | .bare => "bare"

def describe : LeafStyle → String
  | .typed => "Typed"
  | .bare => "Bare"

end LeafStyle

namespace Mode

/-- The eight modes with typed leaves, object styles outermost. -/
def all : List Mode :=
  [ObjectStyle.wrapped, .flat].flatMap fun objects =>
    [true, false].flatMap fun annotations =>
      [ArrayStyle.tracked, .opaqueItems].map fun arrayItems =>
        { objects, annotations, arrayItems, leaves := .typed }

/-- The mode as messages show it. -/
def describe (mode : Mode) : String :=
  "Mode \x7b objects: " ++ mode.objects.describe ++
    ", annotations: " ++ (if mode.annotations then "true" else "false") ++
    ", array_items: " ++ mode.arrayItems.describe ++
    ", leaves: " ++ mode.leaves.describe ++ " \x7d"

def layout : Raw.Layout :=
  ⟨"struct Mode",
    [("objects", false), ("annotations", false), ("array_items", false), ("leaves", false)]⟩

def visit (source : Source) (field : String) (raw : Raw) (m : Mode) : Except ReadError Mode := do
  match field with
  | "objects" => return { m with objects := ← raw.readChoice source ObjectStyle.known }
  | "annotations" => return { m with annotations := ← raw.readBool }
  | "array_items" => return { m with arrayItems := ← raw.readChoice source ArrayStyle.known }
  | "leaves" => return { m with leaves := ← raw.readChoice source LeafStyle.known }
  | _ => return m

def read (source : Source) (raw : Raw) : Except ReadError Mode :=
  raw.readRecord source layout (visit source) {}

def toJson (m : Mode) : Json :=
  .object [("objects", .string m.objects.name), ("annotations", .bool m.annotations),
    ("array_items", .string m.arrayItems.name), ("leaves", .string m.leaves.name)]

end Mode

namespace Config

def layout : Raw.Layout :=
  ⟨"struct Config",
    [("function_name", false), ("module", false), ("predefined", false),
      ("anonymous_symbols", false), ("max_depth", false), ("mode", false)]⟩

/-- Put a field into a configuration. A map or a list that is given replaces the default one. -/
def visit (source : Source) (field : String) (raw : Raw) (c : Config) :
    Except ReadError Config := do
  match field with
  | "function_name" => return { c with functionName := ← raw.readString }
  | "module" => return { c with module := ← raw.readOption Raw.readString }
  | "predefined" => return { c with predefined := ← raw.readMap source Raw.readString }
  | "anonymous_symbols" =>
    return { c with anonymousSymbols := ← raw.readList source Raw.readString }
  | "max_depth" => return { c with maxDepth := ← raw.readNat 64 "usize" }
  | "mode" => return { c with mode := ← Mode.read source raw }
  | _ => return c

def read (source : Source) (raw : Raw) : Except ReadError Config :=
  raw.readRecord source layout (visit source) {}

def toJson (c : Config) : Json :=
  .object [("function_name", .string c.functionName),
    ("module", (c.module.map Json.string).getD .null),
    ("predefined", .object (c.predefined.map fun (symbol, type) => (symbol, .string type))),
    ("anonymous_symbols", .array (c.anonymousSymbols.map .string)),
    ("max_depth", .int c.maxDepth), ("mode", c.mode.toJson)]

end Config

end SchemaSynth
