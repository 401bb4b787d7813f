import SchemaSynth.Proofs.Walk.Descent

/-!
# What a walk blames

`WalkPath` says where references lead from a root, without a walk: through every reference, but not
past an interface inside one of the same name. A walk stands only at the ends of such paths, so what
it blames is on one; and a walk with a schema has been at the end of all of them, but for literals
and `undefined`, so nothing on them was wrong. `schema_blames` puts the two together.
-/

namespace SchemaSynth

namespace TypeTable

/-- The names of the interfaces among types. -/
def namesOf (table : TypeTable) (config : Config) (ids : List TypeId) : List String :=
  ids.filterMap (table.identity? config)

/-- Where a path may go on to from a type. It does not leave an interface that it is inside of. -/
def onward (table : TypeTable) (config : Config) (before : List TypeId) (id : TypeId) :
    List TypeId :=
  if (table.identity? config id).any (table.namesOf config before).contains then []
  else table.references config id ++ table.enumMembers id

/-- A path of references from a root: the types it has gone through, the last one first, and the one
it ends at. -/
inductive WalkPath (table : TypeTable) (config : Config) (root : TypeId) :
    List TypeId → TypeId → Prop where
  | start : WalkPath table config root [] root
  | step {before : List TypeId} {id id' : TypeId} : WalkPath table config root before id →
      id' ∈ table.onward config before id → WalkPath table config root (id :: before) id'

/-- There is nothing to blame a type for. -/
structure Blameless (table : TypeTable) (id : TypeId) : Prop where
  known : id < table.size
  supported : ∀ flags, table.shape? id ≠ some (.unsupported flags)
  literals : ∀ m ∈ table.enumMembers id, ∃ value, table.shape? m = some (.literal value)

section

variable {table : TypeTable} {config : Config} {id : TypeId}

theorem mem_onward {before : List TypeId} {id' : TypeId} :
    id' ∈ table.onward config before id ↔
      (∀ name ∈ table.identity? config id, name ∉ table.namesOf config before) ∧
        (id' ∈ table.references config id ∨ id' ∈ table.enumMembers id) := by
  unfold onward
  cases table.identity? config id with
  | none => simp
  | some name => by_cases h : name ∈ table.namesOf config before <;> simp [h]

theorem identity?_of_mem_enumMembers (config : Config) {m : TypeId} (h : m ∈ table.enumMembers id) :
    table.identity? config id = none := by
  cases hs : table.shape? id with
  | none => simp [enumMembers, hs] at h
  | some shape =>
    rw [table.enumMembers_eq hs] at h
    rw [table.identity?_eq config hs]
    cases shape with
    | enum types => rfl
    | _ => cases h

end

end TypeTable

namespace Walk

variable {table : TypeTable} {config : Config} {root : TypeId} {before : List TypeId} {v w : Visit}

/-- The visit stands at the end of a path, inside the interfaces on it. -/
structure Visit.EndOf (table : TypeTable) (config : Config) (root : TypeId) (before : List TypeId)
    (v : Visit) : Prop where
  path : table.WalkPath config root before v.id
  ancestors : v.frame.ancestors = table.namesOf config before

theorem Visit.endOf_root (additional : Bool) :
    (Visit.root root additional).EndOf table config root [] := ⟨.start, rfl⟩

theorem Visit.Below.endOf (h : v.Below table config w) (hv : v.EndOf table config root before) :
    w.EndOf table config root (v.id :: before) where
  path := .step hv.path (TypeTable.mem_onward.2 ⟨hv.ancestors ▸ h.fresh, .inl h.mem⟩)
  ancestors := by
    rw [h.ancestors, hv.ancestors]
    cases hn : table.identity? config v.id <;> simp [TypeTable.namesOf, hn]

/-! ## Nothing is blamed without cause -/

/-- A walk that fails before it runs out of steps does so at the end of a path. -/
theorem exists_plan_error {steps : Nat} {e : WalkError} (hv : v.EndOf table config root before)
    (h : v.walk table config steps = .error e) (he : ∀ id, e ≠ .endless id) :
    ∃ before w, w.EndOf table config root before ∧ plan table config w = .error e := by
  induction steps generalizing v before with
  | zero => cases h; exact absurd rfl (he v.id)
  | succ n ih =>
    rw [Visit.walk_succ] at h
    rcases bind_eq_error.1 h with h | ⟨p, hp, h⟩
    · exact ⟨before, v, hv, h⟩
    · obtain ⟨w, hw, h⟩ := Plan.visit_of_run_error h
      exact ih ((below_of_mem_visits hp hw).endOf hv) h

theorem exists_plan_error_of_schema {additional : Bool} {e : WalkError}
    (h : table.schema config root additional = .error e) (he : ∀ id, e ≠ .endless id) :
    ∃ before w, w.EndOf table config root before ∧ plan table config w = .error e := by
  rw [schema_eq] at h
  exact exists_plan_error (Visit.endOf_root additional) (map_eq_error.1 h) he

/-- An error of a walk other than running out of steps is a fault at the end of a path. -/
theorem exists_fault_of_schema {additional : Bool} {e : WalkError}
    (h : table.schema config root additional = .error e) (he : ∀ id, e ≠ .endless id) :
    ∃ before w, w.EndOf table config root before ∧ Fault table config w e := by
  obtain ⟨before, w, hw, h⟩ := exists_plan_error_of_schema h he
  exact ⟨before, w, hw, fault_of_plan_error h⟩

theorem Fault.unknownType {id : TypeId} (hw : w.EndOf table config root before)
    (h : Fault table config w (.unknownType id)) :
    ∃ before, table.WalkPath config root before id ∧ table.size ≤ id := by
  cases h with
  | unknown hs => exact ⟨before, hw.path, TypeTable.shape?_eq_none_iff.1 hs⟩
  | unknownBelow hn hmem hs =>
    refine ⟨w.id :: before, .step hw.path ?_, TypeTable.shape?_eq_none_iff.1 hs⟩
    exact TypeTable.mem_onward.2 ⟨by simp [hn], hmem⟩

theorem Fault.unrecognized {id : TypeId} {flags : List Flag}
    (hw : w.EndOf table config root before) (h : Fault table config w (.unrecognized id flags)) :
    ∃ before, table.WalkPath config root before id ∧
      (table.shape? id = some (.unsupported flags) ∨
        ∃ shape, table.shape? id = some shape ∧ shape.literal? = none ∧
          ∃ enum ∈ before.head?, id ∈ table.enumMembers enum) := by
  cases h with
  | unsupported hs => exact ⟨before, hw.path, .inl hs⟩
  | @enumMember _ shape hmem hs hl =>
    refine ⟨w.id :: before, .step hw.path ?_, .inr ⟨shape, hs, hl, w.id, rfl, hmem⟩⟩
    have hn := TypeTable.identity?_of_mem_enumMembers config hmem
    exact TypeTable.mem_onward.2 ⟨by simp [hn], .inr hmem⟩

/-! ## Nothing is passed over -/

/-- A walk has been at the type and ended with a schema, or passed over it for being plain. -/
def Passed (table : TypeTable) (config : Config) (root : TypeId) (before : List TypeId)
    (id : TypeId) : Prop :=
  (∃ (steps : Nat) (v : Visit) (f : Fragment),
      v.EndOf table config root before ∧ v.id = id ∧ v.walk table config steps = .ok f) ∨
    ∃ shape, table.shape? id = some shape ∧ Plain shape

theorem Plain.onward_eq_nil {id : TypeId} {shape : TypeShape} (hs : table.shape? id = some shape)
    (h : Plain shape) : table.onward config before id = [] := by
  unfold TypeTable.onward
  rw [table.references_eq config hs, table.enumMembers_eq hs]
  cases h <;> exact ite_self _

theorem plan_of_walk_ok {steps : Nat} {f : Fragment} (h : v.walk table config steps = .ok f) :
    ∃ n p, plan table config v = .ok p ∧ p.run (Walk.walk table config n) = .ok f := by
  cases steps with
  | zero => cases h
  | succ n =>
    rw [Visit.walk_succ] at h
    obtain ⟨p, hp, hf⟩ := bind_eq_ok.1 h
    exact ⟨n, p, hp, hf⟩

/-- A walk with a schema passes all paths. -/
theorem passed_of_walkPath {additional : Bool} {f : Fragment}
    (h : table.schema config root additional = .ok f) {id : TypeId}
    (hpath : table.WalkPath config root before id) : Passed table config root before id := by
  induction hpath with
  | start =>
    rw [schema_eq] at h
    obtain ⟨g, hg, -⟩ := map_eq_ok.1 h
    exact .inl ⟨_, _, g, Visit.endOf_root additional, rfl, hg⟩
  | @step before id id' hpath hmem ih =>
    rcases ih with ⟨steps, v, g, hv, rfl, hg⟩ | ⟨shape, hs, hplain⟩
    · obtain ⟨n, p, hp, hrun⟩ := plan_of_walk_ok hg
      obtain ⟨hfresh, hmem | hmem⟩ := TypeTable.mem_onward.1 hmem
      · rcases visited_or_plain hp (hv.ancestors ▸ hfresh) hmem with ⟨w, hw, rfl⟩ | hplain
        · obtain ⟨k, hk⟩ := Plan.visit_of_run_ok hrun hw
          exact .inl ⟨n, w, k, (below_of_mem_visits hp hw).endOf hv, rfl, hk⟩
        · exact .inr hplain
      · obtain ⟨value, hs⟩ := literal_of_mem_enumMembers hp hmem
        exact .inr ⟨_, hs, .literal value⟩
    · -- No path goes on from what a walk may pass over.
      rw [hplain.onward_eq_nil hs] at hmem
      cases hmem

theorem Passed.blameless {id : TypeId} (h : Passed table config root before id) :
    table.Blameless id := by
  have known : ∀ {shape}, table.shape? id = some shape → id < table.size := fun hs => by
    by_contra hid
    rw [TypeTable.shape?_eq_none_iff.2 (Nat.le_of_not_lt hid)] at hs
    cases hs
  rcases h with ⟨steps, v, f, hv, rfl, hf⟩ | ⟨shape, hs, hplain⟩
  · obtain ⟨n, p, hp, -⟩ := plan_of_walk_ok hf
    obtain ⟨shape, hs, -, hshape⟩ := shapePlan_of_plan_ok hp
    refine ⟨known hs, fun flags hflags => ?_, fun m hm => literal_of_mem_enumMembers hp hm⟩
    obtain rfl := Option.some.inj (hs.symm.trans hflags)
    cases hshape
  · refine ⟨known hs, fun flags hflags => ?_, fun m hm => ?_⟩
    · obtain rfl := Option.some.inj (hs.symm.trans hflags)
      cases hplain
    · rw [table.enumMembers_eq hs] at hm
      cases hplain <;> cases hm

end Walk

open Walk

/-- With a schema, no type on any path is to blame; an error that names a type has a path to that
type and a cause there. -/
theorem TypeTable.schema_blames (table : TypeTable) (config : Config) (root : TypeId)
    (additional : Bool) :
    (∀ f, table.schema config root additional = .ok f →
      ∀ before id, table.WalkPath config root before id → table.Blameless id) ∧
    (∀ id, table.schema config root additional = .error (.unknownType id) →
      ∃ before, table.WalkPath config root before id ∧ table.size ≤ id) ∧
    (∀ id flags, table.schema config root additional = .error (.unrecognized id flags) →
      ∃ before, table.WalkPath config root before id ∧
        (table.shape? id = some (.unsupported flags) ∨
          ∃ shape, table.shape? id = some shape ∧ shape.literal? = none ∧
            ∃ enum ∈ before.head?, id ∈ table.enumMembers enum)) := by
  refine ⟨fun f h before id hpath => ?_, fun id h => ?_, fun id flags h => ?_⟩
  · exact (passed_of_walkPath h hpath).blameless
  · obtain ⟨before, w, hw, hfault⟩ := exists_fault_of_schema h fun _ => WalkError.noConfusion
    exact hfault.unknownType hw
  · obtain ⟨before, w, hw, hfault⟩ := exists_fault_of_schema h fun _ => WalkError.noConfusion
    exact hfault.unrecognized hw

/-- A node that refers to itself and has one of two kinds, a node with a member outside the table,
and an enum with a node for a member. -/
def brokenNodes : TypeTable where
  types := #[
    { flags := [.object], symbol := some "Node",
      members := [{ name := "next", type := 0, optional := true }, { name := "kind", type := 1 }] },
    { flags := [.enumLike], types := [2] },
    { flags := [.string, .literal], value := some (.string "leaf") },
    { flags := [.object], symbol := some "Lost",
      members := [{ name := "next", type := 3 }, { name := "node", type := 0 },
        { name := "lost", type := 9 }] },
    { flags := [.enumLike], types := [2, 0] }]

/-- The first node is fine, the second one leads outside, and the enum names its member. -/
theorem schema_blames_brokenNodes :
    let config : Config := { maxDepth := 2 }
    (∃ f, brokenNodes.schema config 0 true = .ok f ∧
      ∀ before id, brokenNodes.WalkPath config 0 before id → brokenNodes.Blameless id) ∧
    (brokenNodes.schema config 3 true = .error (.unknownType 9) ∧
      ∃ before, brokenNodes.WalkPath config 3 before 9 ∧ brokenNodes.size ≤ 9) ∧
    (brokenNodes.schema config 4 true = .error (.unrecognized 0 []) ∧
      ∃ before, brokenNodes.WalkPath config 4 before 0 ∧
        (brokenNodes.shape? 0 = some (.unsupported []) ∨
          ∃ shape, brokenNodes.shape? 0 = some shape ∧ shape.literal? = none ∧
            ∃ enum ∈ before.head?, 0 ∈ brokenNodes.enumMembers enum)) := by
  intro config
  obtain ⟨f, node⟩ : ∃ f, brokenNodes.schema config 0 true = .ok f := ⟨_, rfl⟩
  have lost : brokenNodes.schema config 3 true = .error (.unknownType 9) := rfl
  have enum : brokenNodes.schema config 4 true = .error (.unrecognized 0 []) := rfl
  refine ⟨⟨f, node, ?_⟩, ⟨lost, ?_⟩, enum, ?_⟩
  · exact (TypeTable.schema_blames brokenNodes config 0 true).1 f node
  · exact (TypeTable.schema_blames brokenNodes config 3 true).2.1 9 lost
  · exact (TypeTable.schema_blames brokenNodes config 4 true).2.2 0 [] enum

end SchemaSynth
