import SchemaSynth.Proofs.Walk.Blame
import SchemaSynth.Proofs.Walk.Ending

/-!
# What an error says of the type it names

A walk does not recognize a type for two reasons. A type that it stands at is unsupported: then the
error repeats the categories of the type. Or an enum has a member without a value (`StopsAt`): then
the error names the member and says nothing of its categories.
-/

namespace SchemaSynth

theorem TypeShape.flags_of_unsupported {d : Descriptor} {flags : List Flag}
    (h : ofDescriptor d = .unsupported flags) : flags = d.flags := by
  unfold ofDescriptor at h
  repeat' split at h
  all_goals cases h
  all_goals rfl

namespace TypeTable

/-- Of members of an enum, the first one without a value. -/
def StopsAt (table : TypeTable) (members : List TypeId) (id : TypeId) : Prop :=
  ∃ before after, members = before ++ id :: after ∧
    (∀ m ∈ before, ∃ value, table.shape? m = some (.literal value)) ∧
    ∃ shape, table.shape? id = some shape ∧ shape.literal? = none

variable {table : TypeTable} {id : TypeId} {shape : TypeShape}

theorem shape?_eq_some : table.shape? id = some shape ↔
    ∃ d, table.get? id = some d ∧ TypeShape.ofDescriptor d = shape := Option.map_eq_some_iff

theorem shape?_of_mem_enumMembers {enum : TypeId} (h : id ∈ table.enumMembers enum) :
    table.shape? enum = some (.enum (table.enumMembers enum)) := by
  cases hs : table.shape? enum with
  | none => simp [enumMembers, hs] at h
  | some shape =>
    rw [table.enumMembers_eq hs] at h ⊢
    cases shape with
    | enum types => rfl
    | _ => cases h

end TypeTable

namespace Walk

variable {table : TypeTable} {config : Config} {v : Visit} {id : TypeId} {flags : List Flag}

theorem enumValue_eq_unrecognized {m : TypeId} :
    enumValue table m = .error (.unrecognized id flags) ↔
      m = id ∧ flags = [] ∧ ∃ shape, table.shape? id = some shape ∧ shape.literal? = none := by
  constructor
  · intro h
    rcases enumValue_error h with ⟨-, h⟩ | ⟨shape, hs, hl, h⟩
    · cases h
    · cases h
      exact ⟨rfl, rfl, shape, hs, hl⟩
  · rintro ⟨rfl, rfl, shape, hs, hl⟩
    cases h : enumValue table m with
    | ok value =>
      cases hs.symm.trans (enumValue_ok h)
      cases hl
    | error e =>
      rcases enumValue_error h with ⟨hnone, -⟩ | ⟨-, -, -, rfl⟩
      · cases hs.symm.trans hnone
      · rfl

/-- The values of an enum are found out up to the first member without one. -/
theorem enumeration_eq_unrecognized {members : List TypeId} {optional : Bool} :
    enumeration table members optional = .error (.unrecognized id flags) ↔
      flags = [] ∧ table.StopsAt members id := by
  have stops : enumeration table members optional = .error (.unrecognized id flags) ↔
      members.mapM (enumValue table) = .error (.unrecognized id flags) := by
    unfold enumeration
    exact map_eq_error
  simp only [stops, mapM_eq_error, enumValue_eq_ok, enumValue_eq_unrecognized, TypeTable.StopsAt]
  constructor
  · rintro ⟨before, m, after, hm, hbefore, rfl, rfl, hshape⟩
    exact ⟨rfl, before, after, hm, hbefore, hshape⟩
  · rintro ⟨rfl, before, after, hm, hbefore, hshape⟩
    exact ⟨before, id, after, hm, hbefore, rfl, rfl, hshape⟩

/-- A visit that does not recognize a type stands at it, or at an enum that stops there. -/
theorem plan_unrecognized (h : plan table config v = .error (.unrecognized id flags)) :
    table.shape? id = some (.unsupported flags) ∨
      flags = [] ∧ table.StopsAt (table.enumMembers v.id) id := by
  cases fault_of_plan_error h with
  | unsupported hs => exact .inl hs
  | enumMember hmem _ _ =>
    have hs := TypeTable.shape?_of_mem_enumMembers hmem
    rcases bind_eq_error.1 h with h | ⟨shape, hshape, h⟩
    · cases (shape_eq_error.1 h).2
    obtain rfl := Option.some.inj ((shape_eq_ok.1 hshape).symm.trans hs)
    split at h
    · cases h
    · exact .inr (enumeration_eq_unrecognized.1 (map_eq_error.1 h))

theorem schema_of_stopsAt {enum : TypeId} (h : table.StopsAt (table.enumMembers enum) id)
    (additional : Bool) :
    table.schema config enum additional = .error (.unrecognized id []) := by
  let top : Visit := .root enum additional
  have hmem : id ∈ table.enumMembers enum := by
    obtain ⟨before, after, hm, -⟩ := h
    simp [hm]
  have hplan : plan table config top = .error (.unrecognized id []) := by
    rw [plan_eq_shapePlan (TypeTable.shape?_of_mem_enumMembers hmem) (Nat.zero_le _)]
    exact map_eq_error.2 (enumeration_eq_unrecognized.2 ⟨rfl, h⟩)
  have hwalk : top.walk table config 1 = .error (.unrecognized id []) := by
    rw [Visit.walk_succ, hplan]
    rfl
  have hends : Ends (top.walk table config 1) := by
    intro id h
    cases hwalk.symm.trans h
  rw [schema_eq_walk hends, hwalk]
  rfl

end Walk

open Walk

/-- A type that is not recognized is in the table. Its categories are in the error, all of them in
order, if it is unsupported itself; if it is the first member without a value of an enum, none are.
So errors are right about categories exactly if no enum of the table stops at a type that has any. -/
theorem TypeTable.schema_unrecognized_flags (table : TypeTable) (config : Config) :
    (∀ root additional id flags,
      table.schema config root additional = .error (.unrecognized id flags) →
      ∃ d, table.get? id = some d ∧
        (TypeShape.ofDescriptor d = .unsupported d.flags ∧ flags = d.flags ∨
          flags = [] ∧ ∃ before enum, table.WalkPath config root before enum ∧
            table.StopsAt (table.enumMembers enum) id)) ∧
    ((∀ root additional id flags,
        table.schema config root additional = .error (.unrecognized id flags) →
        ∃ d, table.get? id = some d ∧ flags = d.flags) ↔
      ∀ enum id d, table.StopsAt (table.enumMembers enum) id → table.get? id = some d →
        d.flags = []) := by
  have cause : ∀ root additional id flags,
      table.schema config root additional = .error (.unrecognized id flags) →
      ∃ d, table.get? id = some d ∧
        (TypeShape.ofDescriptor d = .unsupported d.flags ∧ flags = d.flags ∨
          flags = [] ∧ ∃ before enum, table.WalkPath config root before enum ∧
            table.StopsAt (table.enumMembers enum) id) := by
    intro root additional id flags h
    obtain ⟨before, w, hw, hplan⟩ := exists_plan_error_of_schema h fun _ => WalkError.noConfusion
    rcases plan_unrecognized hplan with hs | ⟨rfl, hstops⟩
    · obtain ⟨d, hd, hshape⟩ := shape?_eq_some.1 hs
      obtain rfl := TypeShape.flags_of_unsupported hshape
      exact ⟨d, hd, .inl ⟨hshape, rfl⟩⟩
    · have ⟨_, _, _, _, shape, hs, _⟩ := hstops
      obtain ⟨d, hd, -⟩ := shape?_eq_some.1 hs
      exact ⟨d, hd, .inr ⟨rfl, before, w.id, hw.path, hstops⟩⟩
  refine ⟨cause, fun h enum id d hstops hd => ?_, fun h root additional id flags herror => ?_⟩
  · obtain ⟨d', hd', hflags⟩ := h enum true id [] (schema_of_stopsAt hstops true)
    obtain rfl := Option.some.inj (hd.symm.trans hd')
    exact hflags.symm
  · obtain ⟨d, hd, ⟨-, rfl⟩ | ⟨rfl, -, enum, -, hstops⟩⟩ := cause root additional id flags herror
    · exact ⟨d, hd, rfl⟩
    · exact ⟨d, hd, (h enum id d hstops hd).symm⟩

/-- A type parameter, a box around it, and an enum of a string type. -/
def strays (members : List TypeId) : TypeTable where
  types := #[{ flags := [.other "type_parameter", .other "unresolved"] },
    { flags := [.object], symbol := some "Box", members := [{ name := "content", type := 0 }] },
    { flags := [.string] },
    { flags := [.enumLike], symbol := some "Word", types := members }]

/-- The string type has a category, and the error says that it has none. -/
theorem strays_lose_flags :
    let shallow : Config := { maxDepth := 2 }
    (strays [2]).schema shallow 3 true = .error (.unrecognized 2 []) ∧
    (∃ d, (strays [2]).get? 2 = some d ∧ d.flags = [.string]) ∧
    ¬ ∀ (table : TypeTable) (config : Config) root additional id flags,
      table.schema config root additional = .error (.unrecognized id flags) →
      ∃ d, table.get? id = some d ∧ flags = d.flags := by
  intro shallow
  have hschema : (strays [2]).schema shallow 3 true = .error (.unrecognized 2 []) := rfl
  have hflags : ∃ d, (strays [2]).get? 2 = some d ∧ d.flags = [.string] := ⟨_, rfl, rfl⟩
  refine ⟨hschema, hflags, fun h => ?_⟩
  obtain ⟨d, hd, hflags⟩ := hflags
  obtain ⟨d', hd', hnone⟩ := h _ _ _ _ _ _ hschema
  obtain rfl := Option.some.inj (hd.symm.trans hd')
  cases hnone.trans hflags

/-- The box names its parameter with all categories, and so would any type if the enum had no
members; with the string type for a member it has one that the error says nothing of. -/
theorem schema_unrecognized_flags_strays :
    let shallow : Config := { maxDepth := 2 }
    let parameter : List Flag := [.other "type_parameter", .other "unresolved"]
    (strays []).schema shallow 1 true = .error (.unrecognized 0 parameter) ∧
    (∃ d, (strays []).get? 0 = some d ∧ parameter = d.flags) ∧
    (strays [2]).schema shallow 3 true = .error (.unrecognized 2 []) ∧
    ∃ before enum, (strays [2]).WalkPath shallow 3 before enum ∧
      (strays [2]).StopsAt ((strays [2]).enumMembers enum) 2 := by
  intro shallow parameter
  have box : (strays []).schema shallow 1 true = .error (.unrecognized 0 parameter) := rfl
  have word : (strays [2]).schema shallow 3 true = .error (.unrecognized 2 []) := rfl
  have noStops : ∀ enum id d, (strays []).StopsAt ((strays []).enumMembers enum) id →
      (strays []).get? id = some d → d.flags = [] := by
    have memberless : ∀ enum, (strays []).enumMembers enum = []
      | 0 | 1 | 2 | 3 | _ + 4 => rfl
    rintro enum id d ⟨before, after, hm, -⟩
    rw [memberless] at hm
    exact absurd hm.symm (List.append_ne_nil_of_right_ne_nil before (List.cons_ne_nil id after))
  refine ⟨box, ?_, word, ?_⟩
  · exact (TypeTable.schema_unrecognized_flags (strays []) shallow).2.2 noStops 1 true 0 parameter box
  · obtain ⟨d, hd, ⟨-, hflags⟩ | ⟨-, hstops⟩⟩ :=
      (TypeTable.schema_unrecognized_flags (strays [2]) shallow).1 3 true 2 [] word
    · cases Option.some.inj hd
      cases hflags
    · exact hstops

end SchemaSynth
