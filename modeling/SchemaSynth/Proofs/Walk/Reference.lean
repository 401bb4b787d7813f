import SchemaSynth.Proofs.Walk.Plan

/-!
# References between types

What a type refers to is a matter of its shape and the settings alone: `TypeTable.references` are
the types that a walk may go on to, `TypeTable.enumMembers` those that it only looks at, and
`TypeTable.identity?` is the name under which it knows an interface again. `TypeTable.SoleBranch`
singles out the references that do not lead deeper.
-/

namespace SchemaSynth

/-- The types that an object type refers to. An opaque array refers to none. -/
def ObjectType.references (obj : ObjectType) (config : Config) : List TypeId :=
  match obj.role config with
  | .predefined _ => []
  | .array args => if config.mode.arrayItems = .opaqueItems then [] else args
  | .dictionary => []
  | .interface _ => (Walk.walked obj.members).map Member.type

namespace TypeShape

/-- The types that a walk may go on to from a shape. -/
def references (config : Config) : TypeShape → List TypeId
  | .object obj => obj.references config
  | .union types => types
  | .intersection types _ => types
  | _ => []

/-- The members of an enum, whose values are taken without a walk. -/
def enumMembers : TypeShape → List TypeId
  | .enum types => types
  | _ => []

/-- The name by which the walk knows an interface again. -/
def identity? (config : Config) : TypeShape → Option String
  | .object obj =>
    match obj.role config with
    | .interface name => name
    | _ => none
  | _ => none

end TypeShape

namespace TypeTable

/-- The types that a walk may go on to from a type. -/
def references (table : TypeTable) (config : Config) (id : TypeId) : List TypeId :=
  ((table.shape? id).map (TypeShape.references config)).getD []

def enumMembers (table : TypeTable) (id : TypeId) : List TypeId :=
  ((table.shape? id).map TypeShape.enumMembers).getD []

def identity? (table : TypeTable) (config : Config) (id : TypeId) : Option String :=
  (table.shape? id).bind (TypeShape.identity? config)

/-- All there is among constituents, besides `undefined`, is `b`. A boolean literal does not count:
it stands for `boolean`. -/
def Sole (table : TypeTable) (types : List TypeId) (b : TypeId) : Prop :=
  ∃ before after shape, types = before ++ b :: after ∧ table.shape? b = some shape ∧
    shape ≠ .forbidden .undefined ∧ Walk.isBoolean shape = false ∧
    ∀ id ∈ before ++ after, table.shape? id = some (.forbidden .undefined)

/-- The union `a` comes down to `b`. -/
def SoleBranch (table : TypeTable) (a b : TypeId) : Prop :=
  ∃ types, table.shape? a = some (.union types) ∧ table.Sole types b

section

variable {table : TypeTable} (config : Config) {id : TypeId} {shape : TypeShape}

theorem references_eq (h : table.shape? id = some shape) :
    table.references config id = shape.references config := by
  simp [references, h]

theorem identity?_eq (h : table.shape? id = some shape) :
    table.identity? config id = shape.identity? config := by
  simp [identity?, h]

theorem enumMembers_eq (h : table.shape? id = some shape) :
    table.enumMembers id = shape.enumMembers := by
  simp [enumMembers, h]

variable {config}

theorem shape?_eq_none_iff : table.shape? id = none ↔ table.size ≤ id := by
  simp [shape?, get?, size]

theorem exists_shape? (h : id < table.size) : ∃ shape, table.shape? id = some shape :=
  Option.ne_none_iff_exists'.1 (mt shape?_eq_none_iff.1 (Nat.not_le.2 h))

theorem lt_size_of_mem_references {b : TypeId} (h : b ∈ table.references config id) :
    id < table.size := by
  cases hs : table.shape? id with
  | none => simp [references, hs] at h
  | some shape =>
    obtain ⟨d, hd, -⟩ := Option.map_eq_some_iff.1 hs
    exact (Array.getElem?_eq_some_iff.1 hd).1

end

end TypeTable

namespace Walk

theorem shape_eq_ok {table : TypeTable} {id : TypeId} {s : TypeShape} :
    shape table id = .ok s ↔ table.shape? id = some s := by
  unfold shape
  cases table.shape? id <;> simp

theorem shape_eq_error {table : TypeTable} {id : TypeId} {e : WalkError} :
    shape table id = .error e ↔ table.shape? id = none ∧ e = .unknownType id := by
  unfold shape
  cases table.shape? id <;> simp [eq_comm]

end Walk

end SchemaSynth
