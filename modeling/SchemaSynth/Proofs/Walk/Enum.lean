import SchemaSynth.Proofs.Walk.Union

/-!
# Enums and unions of constants

An enum may stand in a table as the enum of its members or as the union of them. The walk finds the
values of the two in different ways: it reads those of an enum one by one, while a union is scanned
for branches first, and one branch alone is walked. For members that are texts and numbers both come
to the same schema, and `undefined` beside them in the union is no more than a mark
(`walk_enum_and_union`).
-/

namespace SchemaSynth

namespace TypeTable

/-- The type has one value, a text or a number. -/
inductive ConstantOf (table : TypeTable) (id : TypeId) : LiteralValue → Prop where
  | string {s : String} (shape : table.shape? id = some (.literal (.string s))) :
    ConstantOf table id (.string s)
  | number {x : Binary64} (shape : table.shape? id = some (.literal (.number x))) :
    ConstantOf table id (.number x)

/-- The constituents of a union that are not `undefined`. -/
def defined (table : TypeTable) (constituents : List TypeId) : List TypeId :=
  constituents.filter fun id => !table.isUndefined id

section

variable {table : TypeTable} {id : TypeId} {value : LiteralValue} {values : List LiteralValue}
  {types constituents : List TypeId}

theorem ConstantOf.shape?_eq (h : table.ConstantOf id value) :
    table.shape? id = some (.literal value) := by
  cases h with
  | string hs => exact hs
  | number hs => exact hs

theorem ConstantOf.not_boolean (h : table.ConstantOf id value) :
    table.isBooleanLiteral id = false := by
  unfold isBooleanLiteral
  rw [h.shape?_eq]
  cases h <;> rfl

theorem lt_size_of_shape? {shape : TypeShape} (h : table.shape? id = some shape) :
    id < table.size := by
  by_contra hsize
  rw [shape?_eq_none_iff.2 (Nat.le_of_not_lt hsize)] at h
  cases h

theorem forall_of_constants (h : List.Forall₂ table.ConstantOf types values) :
    ∀ id ∈ types, id < table.size ∧ table.isBooleanLiteral id = false := by
  have both : List.Forall₂ (fun id value =>
      (id < table.size ∧ table.isBooleanLiteral id = false) ∧ table.ConstantOf id value)
      types values :=
    h.imp fun _ _ hvalue => ⟨⟨lt_size_of_shape? hvalue.shape?_eq, hvalue.not_boolean⟩, hvalue⟩
  exact ((List.forall₂_and_left types values).1 both).1

theorem mem_or_isUndefined (h : table.defined constituents = types) (hid : id ∈ constituents) :
    id ∈ types ∨ table.isUndefined id = true := by
  subst h
  cases hu : table.isUndefined id with
  | false => exact .inl (List.mem_filter.2 ⟨hid, by simp [hu]⟩)
  | true => exact .inr rfl

theorem any_isUndefined_eq (h : table.defined constituents = types) :
    constituents.any table.isUndefined = decide (constituents ≠ types) := by
  subst h
  rw [Bool.eq_iff_iff, decide_eq_true_iff, defined, ne_comm, Ne, List.filter_eq_self]
  simp

theorem survivors_of_constants (h : table.defined constituents = types)
    (hconstants : List.Forall₂ table.ConstantOf types values) :
    table.survivors constituents = types := by
  subst h
  refine eraseDupsBy_eq_self fun id hid earlier _ => ?_
  rw [(forall_of_constants hconstants id hid).2]
  rfl

end

end TypeTable

namespace Walk

section

variable {table : TypeTable} {config : Config} {v : Visit} {value : LiteralValue}
  {values : List LiteralValue} {types constituents : List TypeId}

theorem walk_literal (hs : table.shape? v.id = some (.literal value))
    (hd : v.frame.depth ≤ config.maxDepth) (steps : Nat) :
    v.walk table config (steps + 1) = .ok (.leaf (.enum [value]) { optional := v.optional }) := by
  rw [Visit.walk_succ, plan_eq_shapePlan hs hd]
  exact congrArg Except.ok (Fragment.enumeration_optional [value] v.optional)

theorem walk_enum_of_constants (hs : table.shape? v.id = some (.enum types))
    (hconstants : List.Forall₂ table.ConstantOf types values)
    (hd : v.frame.depth ≤ config.maxDepth) (steps : Nat) :
    v.walk table config (steps + 1) = .ok (.leaf (.enum values) { optional := v.optional }) := by
  have read : types.mapM (enumValue table) = .ok values :=
    mapM_eq_ok.2 (hconstants.imp fun _ _ hvalue => enumValue_eq_ok.2 hvalue.shape?_eq)
  have plan : plan table config v =
      .ok (.done (.leaf (.enum values) { optional := v.optional })) := by
    rw [plan_eq_shapePlan hs hd, ← Fragment.enumeration_optional]
    exact map_eq_ok.2 ⟨_, map_eq_ok.2 ⟨values, read, rfl⟩, rfl⟩
  rw [Visit.walk_succ, plan]
  rfl

/-- The branches of a union are its constants. One of them alone is walked, of several the values
are taken as they are. -/
theorem walk_union_of_constants (hs : table.shape? v.id = some (.union constituents))
    (hconstants : List.Forall₂ table.ConstantOf types values) (hne : types ≠ [])
    (hdefined : table.defined constituents = types) (hd : v.frame.depth ≤ config.maxDepth)
    (steps : Nat) :
    v.walk table config (steps + 2) =
      .ok (.leaf (.enum values) { optional := v.optional || decide (constituents ≠ types) }) := by
  have known : ∀ id ∈ constituents, id < table.size := by
    intro id hid
    rcases TypeTable.mem_or_isUndefined hdefined hid with hid | hu
    · exact (TypeTable.forall_of_constants hconstants id hid).1
    · exact TypeTable.lt_size_of_shape? (by simpa [TypeTable.isUndefined] using hu)
  let mark := v.optional || decide (constituents ≠ types)
  have unites : Unites table (walk table config (steps + 1)) v.frame mark types
      (union table (walk table config (steps + 1)) constituents v.frame v.optional) := by
    rw [union_eq_merge known, TypeTable.survivors_of_constants hdefined hconstants,
      TypeTable.any_isUndefined_eq hdefined]
    obtain ⟨shapes, rfl, hshapes⟩ := TypeTable.exists_shapes fun id hid =>
      (TypeTable.forall_of_constants hconstants id hid).1
    rw [TypeTable.withShapes_map_fst hshapes]
    exact unites_merge hshapes
  have hwalk : v.walk table config (steps + 2) =
      union table (walk table config (steps + 1)) constituents v.frame v.optional := by
    show step table config _ v.id v.frame v.optional = _
    unfold step
    rw [shape_eq_ok.2 hs]
    exact if_neg (Nat.not_lt.2 hd)
  rw [hwalk]
  cases hconstants with
  | nil => exact absurd rfl hne
  | @cons id value rest more hvalue hrest =>
    cases hrest with
    | nil =>
      let branch : Visit := ⟨id, v.frame, mark⟩
      rw [unites.sole id rfl hvalue.not_boolean]
      exact walk_literal (v := branch) hvalue.shape?_eq hd steps
    | cons hsecond hrest =>
      have shapes := (List.Forall₂.cons hvalue (.cons hsecond hrest)).imp fun _ _ h => h.shape?_eq
      rw [unites.values (by simp) _ shapes]
      exact congrArg Except.ok (Fragment.enumeration_optional _ mark)

end

/-- An enum of texts and numbers and the union of them have one schema, an enum with all their
values in order; it is optional if the slot is. Where `undefined` stands in the union as well,
wherever and however often, its schema is marked optional and otherwise the same. -/
theorem walk_enum_and_union {table : TypeTable} {config : Config} {enum union : TypeId}
    {types constituents : List TypeId} {values : List LiteralValue}
    (henum : table.shape? enum = some (.enum types))
    (hunion : table.shape? union = some (.union constituents))
    (hdefined : table.defined constituents = types) (hne : types ≠ [])
    (hconstants : List.Forall₂ table.ConstantOf types values) {frame : Frame}
    (hdepth : frame.depth ≤ config.maxDepth) (optional : Bool) {steps : Nat} (hsteps : 2 ≤ steps) :
    let inserted : Bool := decide (constituents ≠ types)
    walk table config steps enum frame optional = .ok (.leaf (.enum values) { optional }) ∧
      walk table config steps union frame optional =
        .ok (.leaf (.enum values) { optional := optional || inserted }) := by
  obtain ⟨n, rfl⟩ := Nat.exists_eq_add_of_le' hsteps
  exact ⟨walk_enum_of_constants (v := ⟨enum, frame, optional⟩) henum hconstants hdepth (n + 1),
    walk_union_of_constants (v := ⟨union, frame, optional⟩) hunion hconstants hne hdefined hdepth n⟩

/-- The levels "low" and 2, as an enum that has "low" under two names and as a union with
`undefined`. -/
def levels : TypeTable where
  types := #[{ flags := [.string, .literal], value := some (.string "low") },
    { flags := [.number, .literal], value := some (.number (.int 2)) },
    { flags := [.undefined] },
    { flags := [.enumLike], types := [0, 1, 0] },
    { flags := [.union], types := [2, 0, 1, 2, 0] }]

/-- Both ways keep the order and the second "low", and `undefined` makes the union optional. -/
theorem walk_enum_and_union_levels :
    let frame : Frame := { depth := 3, additional := true }
    let values : List LiteralValue := [.string "low", .ofNumber (.int 2), .string "low"]
    (levels.shape? 3 = some (.enum [0, 1, 0]) ∧
      levels.shape? 4 = some (.union [2, 0, 1, 2, 0]) ∧
      levels.defined [2, 0, 1, 2, 0] = [0, 1, 0] ∧
      List.Forall₂ levels.ConstantOf [0, 1, 0] values ∧
      frame.depth ≤ ({} : Config).maxDepth ∧ 2 ≤ budget levels {}) ∧
    walk levels {} (budget levels {}) 3 frame false = .ok (.leaf (.enum values) {}) ∧
    walk levels {} (budget levels {}) 4 frame false =
      .ok (.leaf (.enum values) { optional := true }) := by
  intro frame values
  have henum : levels.shape? 3 = some (.enum [0, 1, 0]) := rfl
  have hunion : levels.shape? 4 = some (.union [2, 0, 1, 2, 0]) := rfl
  have hdefined : levels.defined [2, 0, 1, 2, 0] = [0, 1, 0] := rfl
  have hconstants : List.Forall₂ levels.ConstantOf [0, 1, 0] values :=
    .cons (.string rfl) (.cons (.number rfl) (.cons (.string rfl) .nil))
  have hdepth : frame.depth ≤ ({} : Config).maxDepth := by decide
  have hbudget : 2 ≤ budget levels {} := by decide
  exact ⟨⟨henum, hunion, hdefined, hconstants, hdepth, hbudget⟩,
    walk_enum_and_union henum hunion hdefined (by decide) hconstants hdepth false hbudget⟩

end Walk

end SchemaSynth
