import SchemaSynth.Config
import SchemaSynth.Fragment

/-!
# From types to schemas

The walk follows a type through its table and builds its schema. What it carries down is a `Frame`:
the names of the object types it is inside, the depth, and whether the call asks for annotations. An
object type inside itself becomes `any`; nesting that no name closes ends at the depth limit.

`Walk.step` says what becomes of one type, given the walk for the types it refers to; `Walk.walk`
ties the knot with a budget of steps. Depth grows at every reference but one: a union with a single
branch is that branch, at the same depth. So a walk that ends takes at most as many steps at one
depth as there are types, and `Walk.budget` is enough; a union that comes down to itself never
ends, and has no schema.
-/

namespace SchemaSynth

/-- Why a type has no schema. -/
inductive WalkError where
  /-- A reference leads outside the table. -/
  | unknownType (id : TypeId)
  /-- The type is none that a schema could describe. -/
  | unrecognized (id : TypeId) (flags : List Flag)
  | depthLimit (id : TypeId) (limit : Nat)
  /-- The type is a union that comes down to itself. -/
  | endless (id : TypeId)
deriving DecidableEq, Repr

def WalkError.message : WalkError → String
  | .unknownType id => "type id " ++ TypeId.text id ++ " is not present in the type table"
  | .unrecognized id flags =>
    "unrecognized type " ++ TypeId.text id ++ " with flags " ++ Flag.describeAll flags
  | .depthLimit id limit =>
    "type " ++ TypeId.text id ++ " nested deeper than " ++ toString limit ++ " levels"
  | .endless id => "type " ++ TypeId.text id ++ " comes down to itself"

/-- Where in a walk a type stands. -/
structure Frame where
  /-- The names of the object types around it, innermost first. -/
  ancestors : List String := []
  depth : Nat := 0
  /-- The call asks for annotations. -/
  additional : Bool
deriving DecidableEq, Repr

namespace Frame

def deeper (frame : Frame) : Frame := { frame with depth := frame.depth + 1 }

/-- Inside an object type of a name. -/
def enter (frame : Frame) (name : String) : Frame :=
  { frame with ancestors := name :: frame.ancestors }

end Frame

namespace ObjectType

/-- The symbols of an object type, its own before that of its alias. -/
def symbols (obj : ObjectType) : List String := obj.symbol.toList ++ obj.aliasSymbol.toList

/-- The schema type that one of the symbols stands for. -/
def predefined? (obj : ObjectType) (config : Config) : Option String :=
  obj.symbols.findSome? (Fields.get? config.predefined)

/-- The symbol that identifies an object type, if it has one. -/
def identity? (obj : ObjectType) (config : Config) : Option String :=
  obj.symbols.find? fun symbol => !config.isAnonymous symbol

end ObjectType

namespace Walk

def shape (table : TypeTable) (id : TypeId) : Except WalkError TypeShape :=
  match table.shape? id with
  | some shape => .ok shape
  | none => .error (.unknownType id)

/-- Annotations are wanted by the mode and by the call. -/
def annotates (config : Config) (frame : Frame) : Bool :=
  config.mode.annotations && frame.additional

/-- Objects are written flat at the top, and everywhere in flat mode. -/
def writesFlat (config : Config) (frame : Frame) : Bool :=
  frame.depth == 0 || config.mode.objects == .flat

def annotations (config : Config) (frame : Frame) (tags : List DocTag) : Extras :=
  if annotates config frame then DocTag.annotations tags else []

/-- An object of properties: flat, or wrapped and then perhaps optional. Without properties it is
empty, whatever extras it has. -/
def assemble (config : Config) (frame : Frame) (optional : Bool) (props : Props) (extras : Extras) :
    Fragment :=
  if props.isEmpty then .empty
  else if writesFlat config frame then .flat props extras
  else ((Fragment.object props {}).optional optional).withExtras extras

/-- The schema of a member with the annotations of its tags, where there is a place for them. -/
def annotateMember (config : Config) (frame : Frame) (tags : List DocTag) (f : Fragment) :
    Fragment :=
  if annotates config frame && f.isMapping then f.withExtras (DocTag.annotations tags) else f

section

variable (table : TypeTable) (config : Config)
  (walk : TypeId → Frame → Bool → Except WalkError Fragment)

/-- Walk the members that have a declaration or a type, in order, on top of the properties so far.
Of members with the same name the last one counts, at the place of the first. -/
def memberProps (frame : Frame) : List Member → Props → Except WalkError Props
  | [], props => pure props
  | m :: rest, props =>
    if m.origin = .undeclared then memberProps frame rest props
    else do
      let f ← walk m.type frame.deeper m.optional
      memberProps frame rest (Fields.insert props m.name (annotateMember config frame m.tags f))

def members (obj : ObjectType) (frame : Frame) (optional : Bool) : Except WalkError Fragment := do
  let props ← memberProps config walk frame obj.members []
  pure (assemble config frame optional props (annotations config frame obj.tags))

/-- Walk the parts of an intersection in order, on top of the properties and extras so far. Of
properties with the same name the first one counts, of extras the last. -/
def parts (frame : Frame) : List TypeId → Props × Extras → Except WalkError (Props × Extras)
  | [], merged => pure merged
  | id :: rest, (props, extras) => do
    let f ← walk id frame.deeper false
    parts frame rest
      (Fields.mergeNew props (f.props?.getD []), Fields.merge extras (f.objectExtras?.getD []))

/-- The schema of an intersection: one object with the properties of all parts that are objects. -/
def intersection (types : List TypeId) (tags : List DocTag) (frame : Frame) (optional : Bool) :
    Except WalkError Fragment := do
  let (props, extras) ← parts walk frame types ([], [])
  pure (assemble config frame optional props
    (Fields.merge extras (annotations config frame tags)))

/-- The constituents of a union that are branches of it: not `undefined`, and of the boolean
literals only the first. -/
def branches : List (TypeId × TypeShape) → Bool → List (TypeId × TypeShape)
  | [], _ => []
  | (id, shape) :: rest, sawBoolean =>
    match shape with
    | .forbidden .undefined => branches rest sawBoolean
    | .literal (.boolean _) =>
      if sawBoolean then branches rest true else (id, shape) :: branches rest true
    | _ => (id, shape) :: branches rest sawBoolean

/-- The schema of a branch beside others. A boolean literal stands for both. -/
def alternative (frame : Frame) (branch : TypeId × TypeShape) : Except WalkError Fragment :=
  match branch.2 with
  | .literal (.boolean _) => pure (.primitive "boolean")
  | _ => walk branch.1 frame.deeper false

/-- The schema of the branches of a union: the one branch itself, an enum if all are literals, or a
list. -/
def merge (frame : Frame) (optional : Bool) (kept : List (TypeId × TypeShape)) :
    Except WalkError Fragment :=
  match kept with
  | [] => pure .forbidden
  | [(_, .literal (.boolean _))] => pure ((Fragment.primitive "boolean").optional optional)
  | [(id, _)] => walk id frame optional
  | _ =>
    match kept.mapM fun branch => branch.2.literal? with
    | some values => pure ((Fragment.enumeration values).optional optional)
    | none => do
      let entries ← kept.mapM (alternative walk frame)
      pure ((Fragment.alternatives entries).optional optional)

/-- The schema of a union. A constituent `undefined` makes the slot optional. -/
def union (types : List TypeId) (frame : Frame) (optional : Bool) : Except WalkError Fragment := do
  let shapes ← types.mapM fun id => do pure (id, ← shape table id)
  let optional := optional || shapes.any fun branch => branch.2 == .forbidden .undefined
  merge walk frame optional (branches shapes false)

/-- The schema of an array from its type arguments. Several of them are the branches of a union. -/
def array (args : List TypeId) (frame : Frame) (optional : Bool) : Except WalkError Fragment :=
  if config.mode.arrayItems = .opaqueItems then pure ((Fragment.array none).optional optional)
  else
    match args with
    | [] => pure ((Fragment.array none).optional optional)
    | [id] => do
      let items ← walk id frame.deeper false
      pure ((Fragment.array (some items)).optional optional)
    | _ => do
      let items ← union table walk args frame.deeper false
      pure ((Fragment.array (some items)).optional optional)

/-- The schema of an object type: that of a predefined symbol, of an array, of an open dictionary or
of an interface. An interface inside itself is `any`. -/
def object (obj : ObjectType) (frame : Frame) (optional : Bool) : Except WalkError Fragment :=
  match obj.predefined? config with
  | some type => pure ((Fragment.primitive type).optional optional)
  | none =>
    match obj.array with
    | some args => array table config walk args frame optional
    | none =>
      if obj.index.isSome then pure (Fragment.opaqueObject.optional optional)
      else
        match obj.identity? config with
        | none => members config walk obj frame optional
        | some name =>
          if frame.ancestors.contains name then pure ((Fragment.primitive "any").optional optional)
          else members config walk obj (frame.enter name) optional

def enumValue (id : TypeId) : Except WalkError LiteralValue := do
  match (← shape table id).literal? with
  | some value => pure value
  | none => throw (.unrecognized id [])

/-- The schema of an enum: the values of its members. -/
def enumeration (types : List TypeId) (optional : Bool) : Except WalkError Fragment := do
  let values ← types.mapM (enumValue table)
  pure ((Fragment.enumeration values).optional optional)

def dispatch (id : TypeId) (shape : TypeShape) (frame : Frame) (optional : Bool) :
    Except WalkError Fragment :=
  if frame.depth > config.maxDepth then throw (.depthLimit id config.maxDepth)
  else
    match shape with
    | .primitive p => pure ((Fragment.primitive p.name).optional optional)
    | .literal value => pure ((Fragment.enumeration [value]).optional optional)
    | .forbidden _ => pure .forbidden
    | .object obj => object table config walk obj frame optional
    | .union types => union table walk types frame optional
    | .intersection types tags => intersection config walk types tags frame optional
    | .enum types => enumeration table types optional
    | .unsupported flags => throw (.unrecognized id flags)

/-- The schema of a type, given the walk for the types it refers to. -/
def step (id : TypeId) (frame : Frame) (optional : Bool) : Except WalkError Fragment := do
  dispatch table config walk id (← shape table id) frame optional

end

/-- The schema of a type within a budget of steps. -/
def walk (table : TypeTable) (config : Config) :
    Nat → TypeId → Frame → Bool → Except WalkError Fragment
  | 0 => fun id _ _ => .error (.endless id)
  | budget + 1 => step table config (walk table config budget)

/-- Steps enough for any walk that ends. -/
def budget (table : TypeTable) (config : Config) : Nat :=
  (config.maxDepth + 2) * (table.size + 1)

end Walk

namespace TypeTable

/-- The schema of a type of a table. Without `additional` nothing is annotated. -/
def schema (table : TypeTable) (config : Config) (root : TypeId) (additional : Bool) :
    Except WalkError Fragment := do
  let f ← Walk.walk table config (Walk.budget table config) root { additional } false
  match config.mode.leaves with
  | .typed => pure f
  | .bare => pure f.toBare

end TypeTable

end SchemaSynth
