import SchemaSynth.Table.Codec
import SchemaSynth.Unit.Basic

/-!
# Compiled units as documents

A node says by its field `kind` what it is, or by its first item if it comes as an array. The other
parts are read whole before they are looked at, so a fault anywhere inside a node is reported at the
outermost node around it; only its own `kind` is reported by itself.
-/

namespace SchemaSynth

namespace Signature

def layout : Raw.Layout := ⟨"struct Signature", [("name", true), ("file", false)]⟩

def visit (field : String) (raw : Raw) (s : Signature) : Except ReadError Signature := do
  match field with
  | "name" => return { s with name := ← raw.readString }
  | "file" => return { s with file := ← raw.readOption Raw.readString }
  | _ => return s

def read (source : Source) (raw : Raw) : Except ReadError Signature :=
  raw.readRecord source layout visit { name := "" }

def toJson (s : Signature) : Json :=
  .object ([("name", .string s.name)] ++ optionalField "file" (s.file.map .string))

end Signature

namespace Argument

def layout : Raw.Layout := ⟨"struct Argument", [("constant", false), ("expression", true)]⟩

def visit (node : Raw → Except ReadError Node) (field : String) (raw : Raw) (a : Argument Node) :
    Except ReadError (Argument Node) := do
  match field with
  | "constant" => return { a with constant := ← raw.readOption Raw.readJson }
  | "expression" => return { a with expression := ← node raw }
  | _ => return a

/-- Read an argument, given a reader of nodes. -/
def read (source : Source) (node : Raw → Except ReadError Node) (raw : Raw) :
    Except ReadError (Argument Node) :=
  raw.readRecord source layout (visit node) { expression := default }

end Argument

namespace Call

def layout : Raw.Layout :=
  ⟨"struct CallExpr",
    [("callee", true), ("signature", false), ("type_arguments", false), ("arguments", false)]⟩

def visit (source : Source) (node : Raw → Except ReadError Node) (field : String) (raw : Raw)
    (c : Call) : Except ReadError Call := do
  match field with
  | "callee" => return { c with callee := ← raw.readString }
  | "signature" => return { c with signature := ← raw.readOption (Signature.read source) }
  | "type_arguments" => return { c with typeArguments := ← TypeId.readList source raw }
  | "arguments" => return { c with arguments := ← raw.readList source (Argument.read source node) }
  | _ => return c

/-- Read a call, given a reader of nodes. -/
def readWith (source : Source) (node : Raw → Except ReadError Node) (raw : Raw) :
    Except ReadError Call :=
  raw.readRecord source layout (visit source node) { callee := "" }

end Call

namespace Node

/-- What a node says it is. -/
inductive Kind where
  | call
  | literal
  | other
deriving DecidableEq, Repr

def kinds : Fields Kind := [("call", .call), ("literal", .literal), ("other", .other)]

/-- Read a kind. In a part that was read whole its number will do as well. -/
def readKind (source : Source) (raw : Raw) : Except ReadError Kind :=
  match raw, source with
  | .string name, _ => Raw.choose kinds name
  | .number (.int n), .whole =>
    if n < 0 then throw (raw.unexpected "variant identifier")
    else
      match kinds[n.toNat]? with
      | some kind => pure kind.2
      | none => throw (.here (.invalidValue (.number (.int n)) "variant index 0 <= i < 3"))
  | raw, _ => throw (raw.unexpected "variant identifier")

/-- Find the kind among the fields of a node, all of which must be readable. -/
def kindOf (source : Source) : List (Option String × Raw) → Option Kind → Except ReadError Kind
  | [], some kind => pure kind
  | [], none => throw (.here (.missingField "kind"))
  | (none, _) :: _, _ => throw .malformed
  | (some key, raw) :: rest, found =>
    if key = "kind" then
      match found with
      | some _ => throw (.here (.duplicateField "kind"))
      | none => do
        let kind ← source.within (.key "kind") (readKind source raw)
        kindOf source rest (some kind)
    else if raw.readable then kindOf source rest found
    else throw .malformed

def literalLayout : Raw.Layout := ⟨"struct variant Node::Literal", [("value", true)]⟩

def visitLiteral (field : String) (raw : Raw) (value : Json) : Except ReadError Json := do
  match field with
  | "value" => raw.readJson
  | _ => return value

def otherLayout : Raw.Layout :=
  ⟨"struct variant Node::Other", [("label", false), ("children", false)]⟩

def visitOther (node : Raw → Except ReadError Node) (field : String) (raw : Raw)
    (state : Option String × List Node) : Except ReadError (Option String × List Node) := do
  match field with
  | "label" => return (← raw.readOption Raw.readString, state.2)
  | "children" => return (state.1, ← raw.readList .whole node)
  | _ => return state

/-- Read the parts of a node of a kind. -/
def readBody (node : Raw → Except ReadError Node) (kind : Kind) (body : Raw) :
    Except ReadError Node :=
  match kind with
  | .call => Call.toNode <$> Call.readWith .whole node body
  | .literal => Node.literal <$> body.readRecord .whole literalLayout visitLiteral .null
  | .other => do
    let (label, children) ← body.readRecord .whole otherLayout (visitOther node) (none, [])
    pure (.other label children)

/-- Read a node, given a reader of the nodes inside. -/
def readStep (source : Source) (node : Raw → Except ReadError Node) (raw : Raw) :
    Except ReadError Node :=
  match raw with
  | .object fields => do
    let kind ← kindOf source fields none
    readBody node kind (.object (fields.filter fun field => field.1 != some "kind"))
  | .array [] => throw (.here (.missingField "kind"))
  | .array (first :: rest) => do
    let kind ← source.within (.index 0) (readKind source first)
    if Raw.readableItems rest then readBody node kind (.array rest) else throw .malformed
  | raw => throw (raw.unexpected "internally tagged enum Node")

/-- Read a node that nests in at most so many levels. -/
def readWithin : Nat → Source → Raw → Except ReadError Node
  | 0, _, _ => throw .malformed
  | levels + 1, source, raw => readStep source (readWithin levels .whole) raw

def read (source : Source) (raw : Raw) : Except ReadError Node :=
  readWithin raw.height source raw

def callFields (callee : String) (signature : Option Signature) (typeArguments : List TypeId)
    (arguments : List Json) : List (String × Json) :=
  [("callee", .string callee)] ++ optionalField "signature" (signature.map Signature.toJson) ++
    listField "type_arguments" (typeArguments.map TypeId.toJson) ++
    listField "arguments" arguments

mutual

/-- A node as a value: its kind, then its parts. -/
def toJson : Node → Json
  | .call callee signature typeArguments arguments =>
    .object (("kind", .string "call") ::
      callFields callee signature typeArguments (argumentsToJson arguments))
  | .literal value => .object [("kind", .string "literal"), ("value", value)]
  | .other label children =>
    .object ([("kind", .string "other")] ++ optionalField "label" (label.map .string) ++
      listField "children" (childrenToJson children))

def argumentsToJson : List (Argument Node) → List Json
  | [] => []
  | ⟨constant, expression⟩ :: rest =>
    .object (optionalField "constant" constant ++ [("expression", toJson expression)]) ::
      argumentsToJson rest

def childrenToJson : List Node → List Json
  | [] => []
  | child :: rest => toJson child :: childrenToJson rest

end

end Node

namespace Call

def read (source : Source) (raw : Raw) : Except ReadError Call :=
  readWith source (Node.read source) raw

def toJson (c : Call) : Json :=
  .object (Node.callFields c.callee c.signature c.typeArguments (Node.argumentsToJson c.arguments))

end Call

namespace CompiledUnit

def layout : Raw.Layout := ⟨"struct Unit", [("file", false), ("types", true), ("body", false)]⟩

def visit (source : Source) (field : String) (raw : Raw) (u : CompiledUnit) :
    Except ReadError CompiledUnit := do
  match field with
  | "file" => return { u with file := ← raw.readOption Raw.readString }
  | "types" => return { u with types := ← TypeTable.read source raw }
  | "body" => return { u with body := ← raw.readList source (Node.read source) }
  | _ => return u

def read (source : Source) (raw : Raw) : Except ReadError CompiledUnit :=
  raw.readRecord source layout (visit source) { types := {} }

/-- A unit as a value; its body always, the file if there is one. -/
def toJson (u : CompiledUnit) : Json :=
  .object (optionalField "file" (u.file.map .string) ++
    [("types", u.types.toJson), ("body", .array (Node.childrenToJson u.body))])

end CompiledUnit

end SchemaSynth
