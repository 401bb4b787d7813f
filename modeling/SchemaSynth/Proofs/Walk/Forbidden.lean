import SchemaSynth.Proofs.Fragment.Forbidden
import SchemaSynth.Proofs.Walk.CycleCut
import SchemaSynth.Proofs.Walk.Ending
import SchemaSynth.Proofs.Walk.Kept

/-!
# Where marks come upon what is forbidden

A walk makes `Leaf.forbidden` of types without values, and that is never marked. But the settings may
give the name `forbidden` to an interface (`TypeTable.ForbiddenAlias`), which is a primitive then, and
in an optional slot it is marked. `TypeTable.OptionalSlot` says which slots are: those of optional
members, and those of what stands beside `undefined` or is a constituent of a union in such a slot.
A schema has a mark on a `forbidden` node only where an alias is in one of these.
-/

namespace SchemaSynth

open Relation (ReflTransGen)
open Fragment Walk

namespace TypeTable

variable (table : TypeTable) (config : Config)

/-- The type is written as a primitive with the name `forbidden`. -/
def ForbiddenAlias (id : TypeId) : Prop :=
  ∃ obj, table.shape? id = some (.object obj) ∧ obj.role config = .predefined "forbidden"

/-- At the type a walk forms the union of the types: it is that union, or an array of all of them. -/
inductive UnionAt (id : TypeId) : List TypeId → Prop where
  | union {types : List TypeId} : table.shape? id = some (.union types) → UnionAt id types
  | array {obj : ObjectType} {args : List TypeId} : config.mode.arrayItems ≠ .opaqueItems →
      table.shape? id = some (.object obj) → obj.role config = .array args → 2 ≤ args.length →
      UnionAt id args

/-- The type may be met in an optional slot on the way from a root. -/
inductive OptionalSlot (root : TypeId) : TypeId → Prop where
  | member {id : TypeId} {obj : ObjectType} {name : Option String} {m : Member} :
      ReflTransGen (table.Refers config) root id → table.shape? id = some (.object obj) →
      obj.role config = .interface name → m ∈ walked obj.members → m.optional = true →
      OptionalSlot root m.type
  | beside {id : TypeId} {types : List TypeId} {undefined b : TypeId} :
      ReflTransGen (table.Refers config) root id → table.UnionAt config id types →
      undefined ∈ types → table.shape? undefined = some (.forbidden .undefined) → b ∈ types →
      OptionalSlot root b
  | branch {id : TypeId} {types : List TypeId} {b : TypeId} : OptionalSlot root id →
      table.shape? id = some (.union types) → b ∈ types → OptionalSlot root b

/-- The type is an alias, or the union of one with other types. -/
inductive LeadsToAlias : TypeId → Prop where
  | here {id : TypeId} : table.ForbiddenAlias config id → LeadsToAlias id
  | branch {id : TypeId} {types : List TypeId} {b : TypeId} :
      table.shape? id = some (.union types) → b ∈ types → LeadsToAlias b → LeadsToAlias id

/-- An alias may be met in an optional slot. -/
def AliasInOptionalSlot (root : TypeId) : Prop :=
  ∃ id, table.OptionalSlot config root id ∧ table.ForbiddenAlias config id

variable {table config} {root id : TypeId}

theorem OptionalSlot.aliasIn (h : table.OptionalSlot config root id)
    (halias : table.LeadsToAlias config id) : table.AliasInOptionalSlot config root := by
  induction halias with
  | here halias => exact ⟨_, h, halias⟩
  | branch hs hb _ ih => exact ih (h.branch hs hb)

end TypeTable

namespace Walk

/-- A visit on the way from a root, of which the optional slot is known. -/
structure Visit.Placed (table : TypeTable) (config : Config) (root : TypeId) (v : Visit) :
    Prop where
  reached : ReflTransGen (table.Refers config) root v.id
  slot : v.optional = true → table.OptionalSlot config root v.id

section

variable {table : TypeTable} {config : Config} {root : TypeId} {v w : Visit} {p : Plan}
  {frame : Frame} {optional : Bool} {f : Fragment} {fs : List Fragment}

/-! ## Slots of visits -/

theorem undefined_of_mark {types : List TypeId} {shapes : List (TypeId × TypeShape)}
    (hs : constituents table types = .ok shapes)
    (h : (optional || shapes.any fun branch => branch.2 == .forbidden .undefined) = true) :
    optional = true ∨ ∃ u ∈ types, table.shape? u = some (.forbidden .undefined) := by
  obtain ⟨rfl, hshape⟩ := constituents_ok hs
  refine (Bool.or_eq_true_iff.1 h).imp_right fun hany => ?_
  obtain ⟨x, hx, hundefined⟩ := List.any_eq_true.1 hany
  exact ⟨x.1, List.mem_map_of_mem hx, (hshape x hx).trans (congrArg some (eq_of_beq hundefined))⟩

theorem undefined_of_mem_unionPlan {types : List TypeId}
    (hp : unionPlan table types frame optional = .ok p) (hw : w ∈ p.visits)
    (h : w.optional = true) :
    optional = true ∨ ∃ u ∈ types, table.shape? u = some (.forbidden .undefined) := by
  obtain ⟨shapes, hs, hp⟩ := bind_eq_ok.1 hp
  cases hp
  rcases mem_mergePlan_visits hw with ⟨branch, -, -, rfl⟩ | ⟨branch, -, rfl⟩
  · exact undefined_of_mark hs h
  · cases h

theorem slot_of_union {types : List TypeId} (hv : v.Placed table config root)
    (hs : table.shape? v.id = some (.union types))
    (h : v.optional = true ∨ ∃ u ∈ types, table.shape? u = some (.forbidden .undefined))
    {b : TypeId} (hb : b ∈ types) : table.OptionalSlot config root b := by
  rcases h with hmark | ⟨u, hu, hundefined⟩
  · exact (hv.slot hmark).branch hs hb
  · exact .beside hv.reached (.union hs) hu hundefined hb

theorem slot_of_mem_visits (hv : v.Placed table config root)
    (hp : plan table config v = .ok p) (hw : w ∈ p.visits) (h : w.optional = true) :
    table.OptionalSlot config root w.id := by
  obtain ⟨s, hs, -, hp⟩ := shapePlan_of_plan_ok hp
  cases s with
  | object obj =>
    rcases objectPlan_cases hp with ⟨type, -, rfl⟩ | ⟨args, hr, ha⟩ | ⟨-, rfl⟩ | ⟨name, -, -, rfl⟩ |
      ⟨name, hr, -, rfl⟩
    · cases hw
    · rcases arrayPlan_cases ha with rfl | ⟨tracked, ⟨id, rfl, rfl⟩ | ⟨two, q, hq, rfl⟩⟩
      · cases hw
      · obtain rfl := List.mem_singleton.1 hw
        cases h
      · obtain ⟨u, hu, hundefined⟩ := (undefined_of_mem_unionPlan hq hw h).resolve_left nofun
        exact .beside hv.reached (.array tracked hs hr two) hu hundefined
          (mem_unionPlan_visits hq hw).1
    · cases hw
    · cases hw
    · obtain ⟨m, hm, rfl⟩ := List.mem_map.1 hw
      exact .member hv.reached hs hr hm h
  | union types =>
    exact slot_of_union hv hs (undefined_of_mem_unionPlan hp hw h) (mem_unionPlan_visits hp hw).1
  | intersection types tags =>
    cases hp
    obtain ⟨part, -, rfl⟩ := List.mem_map.1 hw
    cases h
  | enum types =>
    obtain ⟨f, -, rfl⟩ := map_eq_ok.1 hp
    cases hw
  | unsupported flags => cases hp
  | _ =>
    cases hp
    cases hw

theorem Visit.Placed.of_mem_visits (hv : v.Placed table config root)
    (hp : plan table config v = .ok p) (hw : w ∈ p.visits) : w.Placed table config root where
  reached := hv.reached.tail (below_of_mem_visits hp hw).mem
  slot := slot_of_mem_visits hv hp hw

/-! ## Schemas of steps -/

variable {cause reason : Prop}

theorem accounted_arrayOf {items : Fragment} (h : items.Everywhere (MarkedFor cause)) :
    (arrayOf optional items).Accounted cause reason := by
  have hitems : ∀ g ∈ [items], g.Everywhere (MarkedFor cause) := List.forall_mem_singleton.2 h
  cases optional with
  | false => exact .of_parts nofun nofun hitems
  | true => exact .of_parts nofun nofun hitems

theorem accounted_assemble {props : Props} {extras : Extras}
    (h : ∀ entry ∈ props, entry.2.Everywhere (MarkedFor cause)) :
    (assemble config frame optional props extras).Accounted cause reason := by
  have hparts := List.forall_mem_map.2 h
  unfold assemble
  split
  · exact .of_parts nofun nofun (List.forall_mem_nil _)
  split
  · exact .of_parts nofun nofun hparts
  · rw [wrapped_eq]
    exact .of_parts nofun nofun hparts

theorem accounted_of_membersPlan {obj : ObjectType}
    (hfs : ∀ f ∈ fs, f.Everywhere (MarkedFor cause)) :
    ((membersPlan config obj frame optional).finish fs).Accounted cause reason := by
  refine accounted_assemble (forall_mem_gather (fun tags f hf => ?_) (List.forall_mem_nil _) hfs)
  unfold annotateMember
  split
  · refine .intro (hf.here.withExtras _) fun g hg => ?_
    rw [parts_withExtras] at hg
    exact hf.inside hg
  · exact hf

theorem accounted_of_intersectionPlan {types : List TypeId} {tags : List DocTag}
    (hfs : ∀ f ∈ fs, f.Everywhere (MarkedFor cause)) :
    ((intersectionPlan config types tags frame optional).finish fs).Accounted cause reason := by
  have props (f : Fragment) (hf : f.Everywhere (MarkedFor cause)) :
      ∀ entry ∈ f.props?.getD [], entry.2.Everywhere (MarkedFor cause) :=
    fun _ hentry => hf.inside (mem_parts_of_mem_props hentry)
  exact accounted_assemble (forall_mem_foldl_mergePart props (List.forall_mem_nil _) hfs)

/-- The mark of a union is accounted for if there is a cause for every name among its branches. -/
theorem keeps_accounted_mergePlan {kept : List (TypeId × TypeShape)}
    (hcause : optional = true → reason → cause) :
    (mergePlan frame optional kept).Keeps (fun _ => Accounted cause reason) frame.depth := by
  have boolean : (Fragment.primitive "boolean").Accounted cause reason :=
    .leaf fun h => absurd h (by decide)
  unfold mergePlan
  split
  · exact .done (.leaf nofun)
  · split
    · exact .done (boolean.optional hcause)
    · exact .single ⟨_, frame, optional⟩
  · split
    · exact .done (.optional (.leaf nofun) hcause)
    · intro fs hfs
      have entries := forall_mem_entries kept boolean (.of_parts nofun nofun (List.forall_mem_nil _))
        (forall_mem_of_forall₂ hfs fun _ _ _ => id)
      exact (Accounted.alternatives entries).optional hcause

/-- A union has no name in its slot but those that its constituents have. -/
theorem accounted_of_unionPlan {types : List TypeId}
    (hp : unionPlan table types frame optional = .ok p)
    (hslot : optional = true ∨ (∃ u ∈ types, table.shape? u = some (.forbidden .undefined)) →
      ∀ b ∈ types, table.OptionalSlot config root b)
    (hfs : List.Forall₂
      (fun w f => f.Accounted (table.AliasInOptionalSlot config root)
        (table.LeadsToAlias config w.id)) p.visits fs) :
    (p.finish fs).Accounted (table.AliasInOptionalSlot config root)
      (∃ b ∈ types, table.LeadsToAlias config b) := by
  have branches := ((List.forall₂_and_left _ _).2
    ⟨fun w hw => (mem_unionPlan_visits hp hw).1, hfs⟩).imp
      fun w f ⟨hw, hf⟩ => hf.imp fun hleads =>
        (⟨w.id, hw, hleads⟩ : ∃ b ∈ types, table.LeadsToAlias config b)
  obtain ⟨shapes, hs, hp⟩ := bind_eq_ok.1 hp
  cases hp
  refine keeps_accounted_mergePlan (fun hmark ⟨b, hb, hleads⟩ => ?_) fs branches
  exact (hslot (undefined_of_mark hs hmark) b hb).aliasIn hleads

theorem accounted_of_plan (hv : v.Placed table config root) (hp : plan table config v = .ok p)
    (hfs : List.Forall₂
      (fun w f => f.Accounted (table.AliasInOptionalSlot config root)
        (table.LeadsToAlias config w.id)) p.visits fs) :
    (p.finish fs).Accounted (table.AliasInOptionalSlot config root)
      (table.LeadsToAlias config v.id) := by
  have visits : ∀ f ∈ fs, f.Everywhere (MarkedFor (table.AliasInOptionalSlot config root)) :=
    forall_mem_of_forall₂ hfs fun _ _ _ hf => hf.marks
  have slot (hmark : v.optional = true) (hleads : table.LeadsToAlias config v.id) :
      table.AliasInOptionalSlot config root := (hv.slot hmark).aliasIn hleads
  obtain ⟨s, hs, -, hp⟩ := shapePlan_of_plan_ok hp
  cases s with
  | object obj =>
    rcases objectPlan_cases hp with ⟨type, hr, rfl⟩ | ⟨args, hr, ha⟩ | ⟨-, rfl⟩ | ⟨name, -, -, rfl⟩ |
      ⟨name, hr, -, rfl⟩
    · refine Accounted.optional (.leaf fun hkind => .here ⟨obj, hs, ?_⟩) slot
      rw [hr, Leaf.primitive.inj hkind]
    · rcases arrayPlan_cases ha with rfl | ⟨tracked, ⟨id, rfl, rfl⟩ | ⟨two, q, hq, rfl⟩⟩
      · exact Accounted.optional (.leaf nofun) slot
      · cases hfs with
        | cons hf _ => exact accounted_arrayOf hf.marks
      · refine accounted_arrayOf (accounted_of_unionPlan hq (fun h b hb => ?_) hfs).marks
        obtain ⟨u, hu, hundefined⟩ := h.resolve_left nofun
        exact .beside hv.reached (.array tracked hs hr two) hu hundefined hb
    · exact Accounted.optional (.leaf nofun) slot
    · exact Accounted.optional (.leaf fun hkind => absurd hkind (by decide)) slot
    · exact accounted_of_membersPlan visits
  | union types =>
    refine (accounted_of_unionPlan hp (fun h b => slot_of_union hv hs h) hfs).imp ?_
    rintro ⟨b, hb, hleads⟩
    exact .branch hs hb hleads
  | intersection types tags =>
    cases hp
    exact accounted_of_intersectionPlan visits
  | enum types =>
    obtain ⟨f, hf, rfl⟩ := map_eq_ok.1 hp
    obtain ⟨values, -, hf⟩ := bind_eq_ok.1 hf
    cases hf
    exact Accounted.optional (.leaf nofun) slot
  | unsupported flags => cases hp
  | primitive type =>
    cases hp
    exact Accounted.optional (.leaf fun hkind => by cases type <;> exact absurd hkind (by decide)) slot
  | literal value =>
    cases hp
    exact Accounted.optional (.leaf nofun) slot
  | forbidden type =>
    cases hp
    exact .leaf nofun

/-! ## Schemas of walks -/

theorem accounted_of_walk {steps : Nat} (hv : v.Placed table config root)
    (hf : v.walk table config steps = .ok f) :
    f.Accounted (table.AliasInOptionalSlot config root) (table.LeadsToAlias config v.id) := by
  induction steps generalizing v f with
  | zero => cases hf
  | succ n ih =>
    rw [Visit.walk_succ] at hf
    obtain ⟨p, hp, hf⟩ := bind_eq_ok.1 hf
    obtain ⟨fs, hfs, rfl⟩ := map_eq_ok.1 hf
    refine accounted_of_plan hv hp ?_
    have visits := (List.forall₂_and_left _ _).2
      ⟨fun w hw => hv.of_mem_visits hp hw, forall₂_of_mapM_ok hfs⟩
    exact visits.imp fun w g ⟨hw, hg⟩ => ih hw hg

/-- Where leaves are bare there is nothing to mark, and else every mark has a cause. -/
theorem everywhere_of_schema {additional : Bool}
    (h : table.schema config root additional = .ok f) :
    f.Everywhere fun g => g.MarkedForbidden → config.mode.leaves = .typed ∧
      (∃ marks, g = .leaf (.primitive "forbidden") marks) ∧
      table.AliasInOptionalSlot config root := by
  rw [schema_eq] at h
  obtain ⟨f, hf, rfl⟩ := map_eq_ok.1 h
  have placed : (Visit.root root additional).Placed table config root := ⟨.refl, nofun⟩
  have marks := (accounted_of_walk placed hf).marks
  unfold styleLeaves
  cases config.mode.leaves with
  | typed => exact marks.imp fun g hg hmarked => ⟨rfl, hg hmarked⟩
  | bare =>
    exact marks.toBare (p := MarkedFor _) fun g _ hmarked =>
      absurd hmarked g.not_markedForbidden_toBare

end

/-! ## Every alias -/

/-- An interface with a symbol, and the union of it with `undefined`. -/
def withUndefined (symbol : String) : TypeTable where
  types := #[{ flags := [.undefined] }, { flags := [.object], symbol := some symbol },
    { flags := [.union], types := [0, 1] }]

theorem schema_withUndefined {config : Config} {symbol : String}
    (hsymbol : Fields.get? config.predefined symbol = some "forbidden")
    (htyped : config.mode.leaves = .typed) (additional : Bool) :
    (withUndefined symbol).schema config 2 additional =
      .ok (.leaf (.primitive "forbidden") { optional := true }) := by
  let table := withUndefined symbol
  let top : Visit := .root 2 additional
  let branch : Visit := ⟨1, top.frame, true⟩
  let obj : ObjectType := ({ flags := [.object], symbol := some symbol } : Descriptor).objectType
  have hrole : obj.role config = .predefined "forbidden" := by
    have hpredefined : obj.predefined? config = some "forbidden" := by
      show [symbol].findSome? (Fields.get? config.predefined) = some "forbidden"
      rw [List.findSome?_cons, hsymbol]
    unfold ObjectType.role
    rw [hpredefined]
  have hunion : plan table config top = .ok (.single branch) := by
    rw [plan_eq_shapePlan (s := .union [0, 1]) rfl (Nat.zero_le _)]
    rfl
  have halias : plan table config branch =
      .ok (.done (.leaf (.primitive "forbidden") { optional := true })) := by
    rw [plan_eq_shapePlan (s := .object obj) rfl (Nat.zero_le _)]
    show objectPlan table config obj branch.frame branch.optional = _
    unfold objectPlan
    rw [hrole]
    rfl
  have hwalk : top.walk table config 2 =
      .ok (.leaf (.primitive "forbidden") { optional := true }) := by
    rw [Visit.walk_succ, hunion]
    show (Plan.single branch).run _ = _
    rw [Plan.run_single]
    show branch.walk table config 1 = _
    rw [Visit.walk_succ, halias]
    rfl
  rw [schema_eq_walk (ends_of_ok hwalk), hwalk]
  unfold styleLeaves
  rw [htyped]
  rfl

end Walk

open Walk

/-- Nodes of the name `forbidden` are marked optional only as primitives, where leaves are typed and
the way from the root leads to an alias of that name in an optional slot; what null, undefined and
never become is not marked anywhere. No schema has such a mark exactly if leaves are bare or no symbol
is an alias of the name. -/
theorem marked_forbidden_is_alias (config : Config) :
    (∀ (table : TypeTable) root additional f, table.schema config root additional = .ok f →
      ∀ n, ∀ g ∈ f.level n, g.MarkedForbidden →
        config.mode.leaves = .typed ∧ (∃ marks, g = .leaf (.primitive "forbidden") marks) ∧
        ∃ id, table.OptionalSlot config root id ∧ table.ForbiddenAlias config id) ∧
    ((∀ (table : TypeTable) root additional f, table.schema config root additional = .ok f →
        ∀ n, ∀ g ∈ f.level n, ¬ g.MarkedForbidden) ↔
      config.mode.leaves = .bare ∨
        ∀ symbol, Fields.get? config.predefined symbol ≠ some "forbidden") := by
  have cause : ∀ (table : TypeTable) root additional f,
      table.schema config root additional = .ok f → ∀ n, ∀ g ∈ f.level n, g.MarkedForbidden →
        config.mode.leaves = .typed ∧ (∃ marks, g = .leaf (.primitive "forbidden") marks) ∧
        ∃ id, table.OptionalSlot config root id ∧ table.ForbiddenAlias config id :=
    fun table root additional f h n g hg => (everywhere_of_schema h).of_mem_level hg
  refine ⟨cause, fun h => ?_, fun h table root additional f hf n g hg hmarked => ?_⟩
  · cases htyped : config.mode.leaves with
    | bare => exact .inl rfl
    | typed =>
      refine .inr fun symbol hsymbol => ?_
      exact h _ 2 true _ (schema_withUndefined hsymbol htyped true) 0 _ (List.mem_singleton.2 rfl)
        ⟨_, _, rfl, rfl, rfl⟩
  · obtain ⟨htyped, -, id, -, obj, -, hr⟩ := cause table root additional f hf n g hg hmarked
    rcases h with hbare | hnone
    · cases hbare.symm.trans htyped
    · obtain ⟨symbol, hsymbol⟩ := exists_symbol_of_role hr
      exact hnone symbol hsymbol

/-- A form with an optional field of a type that is predefined as `forbidden`. -/
def form : TypeTable where
  types := #[{ flags := [.object], symbol := some "IForbidden" },
    { flags := [.object], symbol := some "Form",
      members := [{ name := "extra", type := 0, optional := true }] }]

theorem schema_form : form.schema { mode := { annotations := false } } 1 true =
    .ok (.flat [("extra", .leaf (.primitive "forbidden") { optional := true })] []) := by
  have hwalk : (Visit.root 1 true).walk form { mode := { annotations := false } } 2 =
      .ok (.flat [("extra", .leaf (.primitive "forbidden") { optional := true })] []) := rfl
  rw [schema_eq_walk (ends_of_ok hwalk), hwalk]
  rfl

/-- The field is forbidden, and marked optional. -/
theorem form_marks_forbidden :
    let config : Config := { mode := { annotations := false } }
    let extra : Fragment := .leaf (.primitive "forbidden") { optional := true }
    form.schema config 1 true = .ok (.flat [("extra", extra)] []) ∧
    extra.toJson = .object [("type", .string "forbidden"), ("optional", .bool true)] ∧
    ¬ ∀ (table : TypeTable) root additional f, table.schema config root additional = .ok f →
      ∀ n, ∀ g ∈ f.level n, ¬ g.MarkedForbidden := by
  intro config extra
  refine ⟨schema_form, rfl, fun h => ?_⟩
  exact h form 1 true _ schema_form 1 extra (List.mem_singleton.2 rfl) ⟨_, _, rfl, rfl, rfl⟩

/-- The mark has the one cause there is, and without the alias no schema has such a mark. -/
theorem marked_forbidden_is_alias_form :
    let config : Config := { mode := { annotations := false } }
    let unaliased : Config := { predefined := [("IEmail", "email"), ("IDate", "date")] }
    (∃ id, form.OptionalSlot config 1 id ∧ form.ForbiddenAlias config id) ∧
    ∀ (table : TypeTable) root additional f, table.schema unaliased root additional = .ok f →
      ∀ n, ∀ g ∈ f.level n, ¬ g.MarkedForbidden := by
  intro config unaliased
  constructor
  · exact ((marked_forbidden_is_alias config).1 form 1 true _ schema_form 1 _
      (List.mem_singleton.2 rfl) ⟨_, _, rfl, rfl, rfl⟩).2.2
  · refine (marked_forbidden_is_alias unaliased).2.2 (.inr fun symbol hsymbol => ?_)
    have hmem := Fields.mem_of_get? hsymbol
    simp [unaliased] at hmem

end SchemaSynth
