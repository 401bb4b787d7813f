import SchemaSynth.Proofs.Walk.Branches

/-!
# What a step can do

`Below` says how a visit may stand to one that a step makes for it, and `Fault` why a step may fail
without any visit. `below_of_mem_visits` and `fault_of_plan_error` read them off a plan once for all
shapes; `visited_or_plain` says that no reference is passed over but plain ones.
-/

namespace SchemaSynth.Walk

/-- `w` stands right below `v`. -/
structure Visit.Below (table : TypeTable) (config : Config) (v w : Visit) : Prop where
  mem : w.id ∈ table.references config v.id
  ancestors : w.frame.ancestors = (table.identity? config v.id).toList ++ v.frame.ancestors
  fresh : ∀ name ∈ table.identity? config v.id, name ∉ v.frame.ancestors
  additional : w.frame.additional = v.frame.additional
  depth_le : w.frame.depth ≤ v.frame.depth + 2
  descends : v.frame.depth < w.frame.depth ∨ w.frame = v.frame ∧ table.SoleBranch v.id w.id
  within : v.frame.depth ≤ config.maxDepth

/-- Why a visit fails before it makes a visit of its own. -/
inductive Fault (table : TypeTable) (config : Config) (v : Visit) : WalkError → Prop where
  | unknown : table.shape? v.id = none → Fault table config v (.unknownType v.id)
  | unknownBelow {id : TypeId} : table.identity? config v.id = none →
      id ∈ table.references config v.id ∨ id ∈ table.enumMembers v.id → table.shape? id = none →
      Fault table config v (.unknownType id)
  | unsupported {flags : List Flag} : table.shape? v.id = some (.unsupported flags) →
      Fault table config v (.unrecognized v.id flags)
  | enumMember {id : TypeId} {shape : TypeShape} : id ∈ table.enumMembers v.id →
      table.shape? id = some shape → shape.literal? = none →
      Fault table config v (.unrecognized id [])
  | tooDeep : v.frame.depth > config.maxDepth →
      Fault table config v (.depthLimit v.id config.maxDepth)

/-- A union of the types is made of literals and `undefined` alone, and does not come down to one of
them: nothing is left of it to walk. -/
structure Settled (table : TypeTable) (types : List TypeId) : Prop where
  plain : ∀ id ∈ types, ∃ shape, table.shape? id = some shape ∧ Plain shape
  notSole : ∀ b, ¬ table.Sole types b

/-! ## Visits of a plan -/

section

variable {table : TypeTable} {config : Config} {frame : Frame} {optional : Bool}
  {types : List TypeId} {kept : List (TypeId × TypeShape)} {p : Plan} {w : Visit} {e : WalkError}

theorem constituents_ok {shapes : List (TypeId × TypeShape)}
    (h : constituents table types = .ok shapes) :
    shapes.map Prod.fst = types ∧ ∀ x ∈ shapes, table.shape? x.1 = some x.2 := by
  have h2 := forall₂_of_mapM_ok h
  clear h
  induction h2 with
  | nil => simp
  | cons hx _ ih =>
    obtain ⟨s, hs, hp⟩ := bind_eq_ok.1 hx
    cases hp
    refine ⟨by simp [ih.1], fun x hx => ?_⟩
    rcases List.mem_cons.1 hx with rfl | hx
    · exact shape_eq_ok.1 hs
    · exact ih.2 x hx

theorem constituents_error (h : constituents table types = .error e) :
    ∃ id ∈ types, table.shape? id = none ∧ e = .unknownType id := by
  obtain ⟨id, hid, he⟩ := exists_of_mapM_error h
  rcases bind_eq_error.1 he with he | ⟨_, _, he⟩
  · exact ⟨id, hid, shape_eq_error.1 he⟩
  · cases he

theorem mem_mergePlan_visits (h : w ∈ (mergePlan frame optional kept).visits) :
    (∃ branch, kept = [branch] ∧ isBoolean branch.2 = false ∧ w = ⟨branch.1, frame, optional⟩) ∨
      ∃ branch ∈ kept, w = branchVisit frame branch := by
  match kept with
  | [] => cases h
  | [(id, shape)] =>
    cases hb : isBoolean shape with
    | true => simp [mergePlan, hb, Plan.done] at h
    | false =>
      simp only [mergePlan, hb, Plan.single] at h
      exact .inl ⟨(id, shape), rfl, hb, by simpa using h⟩
  | first :: second :: rest =>
    right
    unfold mergePlan at h
    simp only at h
    split at h
    · cases h
    · obtain ⟨branch, hbranch, rfl⟩ := List.mem_map.1 h
      exact ⟨branch, (List.mem_filter.1 hbranch).1, rfl⟩

theorem visited_or_plain_of_mergePlan {branch : TypeId × TypeShape} (h : branch ∈ kept) :
    (∃ w ∈ (mergePlan frame optional kept).visits, w.id = branch.1) ∨ Plain branch.2 := by
  cases hb : isBoolean branch.2 with
  | true =>
    obtain ⟨b, hb⟩ := isBoolean_iff.1 hb
    exact .inr (hb ▸ .literal _)
  | false =>
    match kept with
    | [] => cases h
    | [x] =>
      obtain rfl := List.mem_singleton.1 h
      exact .inl ⟨⟨branch.1, frame, optional⟩, by simp [mergePlan, hb, Plan.single], rfl⟩
    | first :: second :: rest =>
      unfold mergePlan
      simp only
      split
      · next hv => exact .inr (plain_of_mapM_literal? hv h)
      · refine .inl ⟨branchVisit frame branch, ?_, rfl⟩
        exact List.mem_map.2 ⟨branch, List.mem_filter.2 ⟨h, by simp [hb]⟩, rfl⟩

theorem sole_of_branches_single {shapes : List (TypeId × TypeShape)} {x : TypeId × TypeShape}
    (hs : constituents table types = .ok shapes) (hk : branches shapes false = [x])
    (hb : isBoolean x.2 = false) : table.Sole types x.1 := by
  obtain ⟨rfl, hshape⟩ := constituents_ok hs
  obtain ⟨before, after, rfl, hne, hall⟩ := split_of_branches_single hk hb
  refine ⟨before.map Prod.fst, after.map Prod.fst, x.2, by simp, hshape x (by simp), hne, hb,
    fun id hid => ?_⟩
  rw [← List.map_append] at hid
  obtain ⟨y, hy, rfl⟩ := List.mem_map.1 hid
  have hy' : y ∈ before ++ x :: after := by
    rcases List.mem_append.1 hy with hy | hy <;> simp [hy]
  rw [hshape y hy', hall y hy]

theorem mem_unionPlan_visits (h : unionPlan table types frame optional = .ok p)
    (hw : w ∈ p.visits) :
    w.id ∈ types ∧ (w.frame = frame.deeper ∨ w.frame = frame ∧ table.Sole types w.id) := by
  obtain ⟨shapes, hs, hp⟩ := bind_eq_ok.1 h
  cases hp
  obtain ⟨rfl, hshape⟩ := constituents_ok hs
  rcases mem_mergePlan_visits hw with ⟨x, hk, hb, rfl⟩ | ⟨x, hk, rfl⟩
  · have hkept : x ∈ branches shapes false := hk ▸ List.mem_singleton.2 rfl
    have hx : x ∈ shapes := mem_of_mem_branches hkept
    exact ⟨List.mem_map.2 ⟨x, hx, rfl⟩, .inr ⟨rfl, sole_of_branches_single hs hk hb⟩⟩
  · exact ⟨List.mem_map.2 ⟨x, mem_of_mem_branches hk, rfl⟩, .inl rfl⟩

theorem visited_or_plain_of_unionPlan (h : unionPlan table types frame optional = .ok p)
    {id : TypeId} (hid : id ∈ types) :
    (∃ w ∈ p.visits, w.id = id) ∨ ∃ shape, table.shape? id = some shape ∧ Plain shape := by
  obtain ⟨shapes, hs, hp⟩ := bind_eq_ok.1 h
  cases hp
  obtain ⟨rfl, hshape⟩ := constituents_ok hs
  obtain ⟨x, hx, rfl⟩ := List.mem_map.1 hid
  have plain : Plain x.2 → ∃ shape, table.shape? x.1 = some shape ∧ Plain shape :=
    fun hp => ⟨x.2, hshape x hx, hp⟩
  rcases mem_branches_or_plain false hx with hb | hp
  · exact (visited_or_plain_of_mergePlan hb).imp_right plain
  · exact .inr (plain hp)

theorem unionPlan_error (h : unionPlan table types frame optional = .error e) :
    ∃ id ∈ types, table.shape? id = none ∧ e = .unknownType id := by
  rcases bind_eq_error.1 h with h | ⟨_, _, h⟩
  · exact constituents_error h
  · cases h

/-- An array is a leaf, or it has one type or the union of several for its items. -/
theorem arrayPlan_cases {args : List TypeId}
    (h : arrayPlan table config args frame optional = .ok p) :
    p = .done ((Fragment.array none).optional optional) ∨
      config.mode.arrayItems ≠ .opaqueItems ∧
        ((∃ id, args = [id] ∧ p = (Plan.single ⟨id, frame.deeper, false⟩).map (arrayOf optional)) ∨
          2 ≤ args.length ∧ ∃ q, unionPlan table args frame.deeper false = .ok q ∧
            p = q.map (arrayOf optional)) := by
  unfold arrayPlan at h
  split at h
  · exact .inl (Except.ok.inj h).symm
  · next tracked =>
    match args with
    | [] => exact .inl (Except.ok.inj h).symm
    | [id] => exact .inr ⟨tracked, .inl ⟨id, rfl, (Except.ok.inj h).symm⟩⟩
    | _ :: _ :: rest =>
      obtain ⟨q, hq, rfl⟩ := map_eq_ok.1 h
      exact .inr ⟨tracked, .inr ⟨Nat.le_add_left 2 rest.length, q, hq, rfl⟩⟩

theorem mem_arrayPlan_visits {args : List TypeId}
    (h : arrayPlan table config args frame optional = .ok p) (hw : w ∈ p.visits) :
    config.mode.arrayItems ≠ .opaqueItems ∧ w.id ∈ args ∧
      (w.frame = frame.deeper ∨ w.frame = frame.deeper.deeper) := by
  rcases arrayPlan_cases h with rfl | ⟨tracked, ⟨id, rfl, rfl⟩ | ⟨-, q, hq, rfl⟩⟩
  · cases hw
  · obtain rfl := List.mem_singleton.1 hw
    exact ⟨tracked, List.mem_singleton.2 rfl, .inl rfl⟩
  · obtain ⟨hid, hf⟩ := mem_unionPlan_visits hq hw
    exact ⟨tracked, hid, hf.symm.imp_left And.left⟩

theorem visited_or_plain_of_arrayPlan {args : List TypeId}
    (ho : config.mode.arrayItems ≠ .opaqueItems)
    (h : arrayPlan table config args frame optional = .ok p) {id : TypeId} (hid : id ∈ args) :
    (∃ w ∈ p.visits, w.id = id) ∨ ∃ shape, table.shape? id = some shape ∧ Plain shape := by
  unfold arrayPlan at h
  rw [if_neg ho] at h
  split at h
  · cases hid
  · cases h
    obtain rfl := List.mem_singleton.1 hid
    exact .inl ⟨⟨id, frame.deeper, false⟩, List.mem_singleton.2 rfl, rfl⟩
  · obtain ⟨q, hq, rfl⟩ := map_eq_ok.1 h
    exact visited_or_plain_of_unionPlan hq hid

theorem arrayPlan_error {args : List TypeId}
    (h : arrayPlan table config args frame optional = .error e) :
    config.mode.arrayItems ≠ .opaqueItems ∧
      ∃ id ∈ args, table.shape? id = none ∧ e = .unknownType id := by
  unfold arrayPlan at h
  split at h
  · cases h
  · next ho =>
    split at h
    · cases h
    · cases h
    · exact ⟨ho, unionPlan_error (map_eq_error.1 h)⟩

theorem enumValue_ok {id : TypeId} {value : LiteralValue} (h : enumValue table id = .ok value) :
    table.shape? id = some (.literal value) := by
  obtain ⟨shape, hs, h⟩ := bind_eq_ok.1 h
  split at h
  · next hl =>
    cases h
    rw [← literal?_eq_some hl]
    exact shape_eq_ok.1 hs
  · cases h

theorem enumValue_eq_ok {id : TypeId} {value : LiteralValue} :
    enumValue table id = .ok value ↔ table.shape? id = some (.literal value) := by
  refine ⟨enumValue_ok, fun hs => ?_⟩
  unfold enumValue
  rw [shape_eq_ok.2 hs]
  rfl

theorem enumValue_error {id : TypeId} (h : enumValue table id = .error e) :
    table.shape? id = none ∧ e = .unknownType id ∨
      ∃ shape, table.shape? id = some shape ∧ shape.literal? = none ∧ e = .unrecognized id [] := by
  rcases bind_eq_error.1 h with h | ⟨shape, hs, h⟩
  · exact .inl (shape_eq_error.1 h)
  · split at h
    · cases h
    · next hl => cases h; exact .inr ⟨shape, shape_eq_ok.1 hs, hl, rfl⟩

theorem mem_membersPlan_visits {obj : ObjectType}
    (hw : w ∈ (membersPlan config obj frame optional).visits) :
    w.id ∈ (walked obj.members).map Member.type ∧ w.frame = frame.deeper := by
  obtain ⟨m, hm, rfl⟩ := List.mem_map.1 hw
  exact ⟨List.mem_map.2 ⟨m, hm, rfl⟩, rfl⟩

theorem visited_of_membersPlan {obj : ObjectType} {id : TypeId}
    (hid : id ∈ (walked obj.members).map Member.type) :
    ∃ w ∈ (membersPlan config obj frame optional).visits, w.id = id := by
  obtain ⟨m, hm, rfl⟩ := List.mem_map.1 hid
  exact ⟨memberVisit frame m, List.mem_map.2 ⟨m, hm, rfl⟩, rfl⟩

/-- An object type is a leaf, an array, or an interface that it does not stand inside of already. -/
theorem objectPlan_cases {obj : ObjectType}
    (h : objectPlan table config obj frame optional = .ok p) :
    (∃ type, obj.role config = .predefined type ∧
        p = .done ((Fragment.primitive type).optional optional)) ∨
      (∃ args, obj.role config = .array args ∧
        arrayPlan table config args frame optional = .ok p) ∨
      (obj.role config = .dictionary ∧ p = .done (Fragment.opaqueObject.optional optional)) ∨
      (∃ name, obj.role config = .interface (some name) ∧ name ∈ frame.ancestors ∧
        p = .done ((Fragment.primitive "any").optional optional)) ∨
      ∃ name, obj.role config = .interface name ∧ (∀ n ∈ name, n ∉ frame.ancestors) ∧
        p = membersPlan config obj { frame with ancestors := name.toList ++ frame.ancestors }
          optional := by
  unfold objectPlan at h
  split at h
  · next type hr => exact .inl ⟨type, hr, (Except.ok.inj h).symm⟩
  · next args hr => exact .inr (.inl ⟨args, hr, h⟩)
  · next hr => exact .inr (.inr (.inl ⟨hr, (Except.ok.inj h).symm⟩))
  · next hr => exact .inr (.inr (.inr (.inr ⟨none, hr, nofun, (Except.ok.inj h).symm⟩)))
  · next name hr =>
    split at h
    · next hinside =>
      have hinside : name ∈ frame.ancestors := by simpa using hinside
      exact .inr (.inr (.inr (.inl ⟨name, hr, hinside, (Except.ok.inj h).symm⟩)))
    · next hfresh =>
      have hfresh : ∀ n ∈ some name, n ∉ frame.ancestors := by simpa using hfresh
      exact .inr (.inr (.inr (.inr ⟨some name, hr, hfresh, (Except.ok.inj h).symm⟩)))

theorem objectPlan_error {obj : ObjectType}
    (h : objectPlan table config obj frame optional = .error e) :
    (TypeShape.object obj).identity? config = none ∧
      ∃ id ∈ obj.references config, table.shape? id = none ∧ e = .unknownType id := by
  unfold objectPlan at h
  unfold TypeShape.identity? ObjectType.references
  split at h
  · cases h
  · next args hr =>
    obtain ⟨ho, he⟩ := arrayPlan_error h
    simp only [hr, ho, ↓reduceIte, true_and]
    exact he
  · cases h
  · cases h
  · split at h <;> cases h

theorem visited_or_plain_of_objectPlan {obj : ObjectType}
    (h : objectPlan table config obj frame optional = .ok p)
    (hfresh : ∀ name ∈ (TypeShape.object obj).identity? config, name ∉ frame.ancestors)
    {id : TypeId} (hid : id ∈ obj.references config) :
    (∃ w ∈ p.visits, w.id = id) ∨ ∃ shape, table.shape? id = some shape ∧ Plain shape := by
  unfold TypeShape.identity? at hfresh
  unfold ObjectType.references at hid
  rcases objectPlan_cases h with ⟨type, hr, -⟩ | ⟨args, hr, ha⟩ | ⟨hr, -⟩ | ⟨name, hr, hinside, -⟩ |
    ⟨name, hr, -, rfl⟩
  · simp [hr] at hid
  · simp only [hr] at hid
    split at hid
    · cases hid
    · next ho => exact visited_or_plain_of_arrayPlan ho ha hid
  · simp [hr] at hid
  · simp only [hr] at hfresh
    exact absurd hinside (hfresh name rfl)
  · simp only [hr] at hid
    exact .inl (visited_of_membersPlan hid)

end

/-! ## What a step can do -/

section

variable {table : TypeTable} {config : Config} {v w : Visit} {p : Plan}

theorem shapePlan_of_plan_ok (h : plan table config v = .ok p) :
    ∃ s, table.shape? v.id = some s ∧ v.frame.depth ≤ config.maxDepth ∧
      shapePlan table config v s = .ok p := by
  obtain ⟨s, hs, h⟩ := bind_eq_ok.1 h
  split at h
  · cases h
  · next hd => exact ⟨s, shape_eq_ok.1 hs, Nat.le_of_not_lt hd, h⟩

/-- Within the limit the plan of a visit is that of its shape. -/
theorem plan_eq_shapePlan {s : TypeShape} (hs : table.shape? v.id = some s)
    (hd : v.frame.depth ≤ config.maxDepth) : plan table config v = shapePlan table config v s := by
  unfold plan
  rw [shape_eq_ok.2 hs]
  exact if_neg (Nat.not_lt.2 hd)

/-- Below a type without a name a visit only goes deeper. -/
theorem Visit.Below.of_unnamed (hn : table.identity? config v.id = none)
    (hmem : w.id ∈ table.references config v.id) (hd : v.frame.depth ≤ config.maxDepth)
    (hf : w.frame = v.frame.deeper ∨ w.frame = v.frame.deeper.deeper ∨
      w.frame = v.frame ∧ table.SoleBranch v.id w.id) : v.Below table config w where
  mem := hmem
  ancestors := by rcases hf with hf | hf | ⟨hf, -⟩ <;> simp [hf, hn, Frame.deeper]
  fresh := by simp [hn]
  additional := by rcases hf with hf | hf | ⟨hf, -⟩ <;> simp [hf, Frame.deeper]
  depth_le := by rcases hf with hf | hf | ⟨hf, -⟩ <;> simp [hf, Frame.deeper]
  descends := by
    rcases hf with hf | hf | hf
    · left; simp [hf, Frame.deeper]
    · left; simp only [hf, Frame.deeper]; omega
    · exact .inr hf
  within := hd

theorem below_of_mem_objectPlan_visits {obj : ObjectType}
    (hs : table.shape? v.id = some (.object obj)) (hd : v.frame.depth ≤ config.maxDepth)
    (h : objectPlan table config obj v.frame v.optional = .ok p) (hw : w ∈ p.visits) :
    v.Below table config w := by
  have href : table.references config v.id = obj.references config := table.references_eq config hs
  have hname := table.identity?_eq config hs
  unfold ObjectType.references at href
  simp only [TypeShape.identity?] at hname
  rcases objectPlan_cases h with ⟨type, -, rfl⟩ | ⟨args, hr, ha⟩ | ⟨-, rfl⟩ | ⟨name, -, -, rfl⟩ |
    ⟨name, hr, hfresh, rfl⟩
  · cases hw
  · rw [hr] at href hname
    obtain ⟨ho, hid, hf⟩ := mem_arrayPlan_visits ha hw
    simp only [ho, ↓reduceIte] at href
    exact .of_unnamed hname (href ▸ hid) hd (hf.imp_right .inl)
  · cases hw
  · cases hw
  · rw [hr] at href hname
    obtain ⟨hid, hf⟩ := mem_membersPlan_visits hw
    refine ⟨href ▸ hid, ?_, ?_, ?_, ?_, .inl ?_, hd⟩
    · rw [hf, hname]
      rfl
    · rwa [hname]
    all_goals simp [hf, Frame.deeper]

theorem below_of_mem_visits (h : plan table config v = .ok p) (hw : w ∈ p.visits) :
    v.Below table config w := by
  obtain ⟨s, hs, hd, hp⟩ := shapePlan_of_plan_ok h
  have href := table.references_eq config hs
  have hname := table.identity?_eq config hs
  cases s with
  | object obj => exact below_of_mem_objectPlan_visits hs hd hp hw
  | union types =>
    obtain ⟨hid, hf⟩ := mem_unionPlan_visits hp hw
    exact .of_unnamed hname (href ▸ hid) hd
      (hf.imp_right fun hf => .inr ⟨hf.1, types, hs, hf.2⟩)
  | intersection types tags =>
    cases hp
    obtain ⟨id, hid, rfl⟩ := List.mem_map.1 hw
    exact .of_unnamed hname (href ▸ hid) hd (.inl rfl)
  | enum types =>
    obtain ⟨f, -, rfl⟩ := map_eq_ok.1 hp
    cases hw
  | unsupported flags => cases hp
  | _ => cases hp; cases hw

theorem fault_of_plan_error {e : WalkError} (h : plan table config v = .error e) :
    Fault table config v e := by
  rcases bind_eq_error.1 h with h | ⟨s, hs, h⟩
  · obtain ⟨hs, rfl⟩ := shape_eq_error.1 h
    exact .unknown hs
  have hs := shape_eq_ok.1 hs
  have href := table.references_eq config hs
  have hname := table.identity?_eq config hs
  split at h
  · next hd => cases h; exact .tooDeep hd
  cases s with
  | object obj =>
    obtain ⟨hn, id, hid, hsh, rfl⟩ := objectPlan_error h
    exact .unknownBelow (hname.trans hn) (.inl (href ▸ hid)) hsh
  | union types =>
    obtain ⟨id, hid, hn, rfl⟩ := unionPlan_error h
    exact .unknownBelow hname (.inl (href ▸ hid)) hn
  | enum types =>
    have henum := table.enumMembers_eq hs
    rcases bind_eq_error.1 (map_eq_error.1 h) with h | ⟨_, _, h⟩
    · obtain ⟨id, hid, h⟩ := exists_of_mapM_error h
      rcases enumValue_error h with ⟨hn, rfl⟩ | ⟨shape, hsh, hl, rfl⟩
      · exact .unknownBelow hname (.inr (henum ▸ hid)) hn
      · exact .enumMember (henum ▸ hid) hsh hl
    · cases h
  | unsupported flags => cases h; exact .unsupported hs
  | _ => cases h

/-- A visit that does not fail at once passes over a reference only if it is plain, unless it stands
inside a type of its own name. -/
theorem visited_or_plain (h : plan table config v = .ok p)
    (hfresh : ∀ name ∈ table.identity? config v.id, name ∉ v.frame.ancestors) {id : TypeId}
    (hid : id ∈ table.references config v.id) :
    (∃ w ∈ p.visits, w.id = id) ∨ ∃ shape, table.shape? id = some shape ∧ Plain shape := by
  obtain ⟨s, hs, -, hp⟩ := shapePlan_of_plan_ok h
  rw [table.references_eq config hs] at hid
  rw [table.identity?_eq config hs] at hfresh
  cases s with
  | object obj => exact visited_or_plain_of_objectPlan hp hfresh hid
  | union types => exact visited_or_plain_of_unionPlan hp hid
  | intersection types tags =>
    cases hp
    exact .inl ⟨partVisit v.frame id, List.mem_map.2 ⟨id, hid, rfl⟩, rfl⟩
  | _ => cases hid

theorem literal_of_mem_enumMembers (h : plan table config v = .ok p) {id : TypeId}
    (hid : id ∈ table.enumMembers v.id) : ∃ value, table.shape? id = some (.literal value) := by
  obtain ⟨s, hs, -, hp⟩ := shapePlan_of_plan_ok h
  rw [table.enumMembers_eq hs] at hid
  cases s with
  | enum types =>
    obtain ⟨f, hf, -⟩ := map_eq_ok.1 hp
    obtain ⟨values, hv, -⟩ := bind_eq_ok.1 hf
    obtain ⟨value, -, hval⟩ := ok_of_mapM_ok hv hid
    exact ⟨value, enumValue_ok hval⟩
  | _ => cases hid

theorem constituents_of_shapes {shapes : List (TypeId × TypeShape)}
    (h : ∀ x ∈ shapes, table.shape? x.1 = some x.2) :
    constituents table (shapes.map Prod.fst) = .ok shapes := by
  induction shapes with
  | nil => rfl
  | cons x rest ih =>
    have hx := shape_eq_ok.2 (h x (by simp))
    have hr := ih fun y hy => h y (by simp [hy])
    unfold constituents at hr ⊢
    rw [List.map_cons, List.mapM_cons, hr, hx]; rfl

theorem branches_of_sole {types : List TypeId} {b : TypeId} (h : table.Sole types b) :
    ∃ shapes shape, constituents table types = .ok shapes ∧
      branches shapes false = [(b, shape)] ∧ isBoolean shape = false := by
  obtain ⟨before, after, shape, rfl, hb, hne, hbool, hall⟩ := h
  let undef : TypeId → TypeId × TypeShape := fun id => (id, .forbidden .undefined)
  let shapes := before.map undef ++ (b, shape) :: after.map undef
  have hfst : shapes.map Prod.fst = before ++ b :: after := by
    simp [shapes, undef, Function.comp_def]
  refine ⟨shapes, shape, ?_, branches_single hne hbool fun y hy => ?_, hbool⟩
  · rw [← hfst]
    refine constituents_of_shapes fun x hx => ?_
    rcases List.mem_append.1 hx with hx | hx
    · obtain ⟨id, hid, rfl⟩ := List.mem_map.1 hx
      exact hall id (by simp [hid])
    rcases List.mem_cons.1 hx with rfl | hx
    · exact hb
    · obtain ⟨id, hid, rfl⟩ := List.mem_map.1 hx
      exact hall id (by simp [hid])
  · rw [← List.map_append] at hy
    obtain ⟨id, -, rfl⟩ := List.mem_map.1 hy
    rfl

/-- A union that comes down to one type is a visit of that type at the same place. -/
theorem unionPlan_of_sole {types : List TypeId} {b : TypeId} (h : table.Sole types b)
    (frame : Frame) (optional : Bool) :
    ∃ optional', unionPlan table types frame optional = .ok (.single ⟨b, frame, optional'⟩) := by
  obtain ⟨shapes, shape, hc, hbr, hbool⟩ := branches_of_sole h
  refine ⟨optional || shapes.any fun branch => branch.2 == .forbidden .undefined, ?_⟩
  unfold unionPlan
  rw [hc]
  show Except.ok (mergePlan frame _ (branches shapes false)) = _
  simp only [hbr, mergePlan, hbool]
  rfl

theorem not_sole_of_constituents {types : List TypeId} {shapes : List (TypeId × TypeShape)}
    (hs : constituents table types = .ok shapes)
    (h : ∀ x, branches shapes false = [x] → isBoolean x.2 = true) (b : TypeId) :
    ¬ table.Sole types b := by
  intro hb
  obtain ⟨shapes', shape, hs', hbranches, hbool⟩ := branches_of_sole hb
  obtain rfl : shapes = shapes' := Except.ok.inj (hs.symm.trans hs')
  rw [h _ hbranches] at hbool
  cases hbool

theorem unsettled_ne_nil {kept : List (TypeId × TypeShape)}
    (h : kept.mapM (fun branch => branch.2.literal?) = none) : unsettled kept ≠ [] := by
  induction kept with
  | nil => cases h
  | cons first rest ih =>
    cases hb : isBoolean first.2 with
    | false => simp [unsettled, hb]
    | true =>
      obtain ⟨b, hshape⟩ := isBoolean_iff.1 hb
      have hrest : rest.mapM (fun branch => branch.2.literal?) = none := by
        rw [List.mapM_cons, hshape] at h
        cases hr : rest.mapM (fun branch => branch.2.literal?) with
        | none => rfl
        | some values =>
          rw [hr] at h
          cases h
      have same : unsettled (first :: rest) = unsettled rest := by simp [unsettled, hb]
      exact same ▸ ih hrest

theorem settled_of_constituents {types : List TypeId} {shapes : List (TypeId × TypeShape)}
    (hs : constituents table types = .ok shapes)
    (hsingle : ∀ x, branches shapes false = [x] → isBoolean x.2 = true)
    (hplain : ∀ x ∈ branches shapes false, Plain x.2) : Settled table types where
  notSole := not_sole_of_constituents hs hsingle
  plain id hid := by
    obtain ⟨rfl, hshape⟩ := constituents_ok hs
    obtain ⟨x, hx, rfl⟩ := List.mem_map.1 hid
    exact ⟨x.2, hshape x hx, (mem_branches_or_plain false hx).elim (hplain x) id⟩

theorem literals_of_settled {types : List TypeId} {shapes : List (TypeId × TypeShape)}
    (hs : constituents table types = .ok shapes) (h : Settled table types) :
    ∃ values, (branches shapes false).mapM (fun branch => branch.2.literal?) = some values := by
  obtain ⟨rfl, hshape⟩ := constituents_ok hs
  refine exists_mapM_literal?_of_plain (fun x => ne_undefined_of_mem_branches) fun x hx => ?_
  have hmem := mem_of_mem_branches hx
  obtain ⟨shape, hshape', plain⟩ := h.plain x.1 (List.mem_map_of_mem hmem)
  cases (hshape x hmem).symm.trans hshape'
  exact plain

/-- A union goes on at the one type that it comes down to, is a leaf, or is a list with a type to
walk for at least one of its entries. It is a leaf only if nothing is left of it to walk. -/
theorem unionPlan_cases {types : List TypeId} {frame : Frame} {optional : Bool}
    (hp : unionPlan table types frame optional = .ok p) :
    (∃ b mark, table.Sole types b ∧ p = .single ⟨b, frame, mark⟩) ∨
      (∃ kind mark, Settled table types ∧ p = .done ((Fragment.leaf kind {}).optional mark)) ∨
      ∃ kept mark, (∀ b, ¬ table.Sole types b) ∧ ¬ Settled table types ∧ unsettled kept ≠ [] ∧
        p = ⟨(unsettled kept).map (branchVisit frame),
          fun fs => (Fragment.alternatives (entries kept fs)).optional mark⟩ := by
  obtain ⟨shapes, hs, hp⟩ := bind_eq_ok.1 hp
  cases hp
  have settled := settled_of_constituents hs
  have notSole := not_sole_of_constituents hs
  have sole := fun x => sole_of_branches_single (x := x) hs
  have literals := literals_of_settled hs
  generalize branches shapes false = kept at settled notSole sole literals ⊢
  match kept with
  | [] => exact .inr (.inl ⟨.forbidden, false, settled (by simp) (by simp), rfl⟩)
  | [(id, shape)] =>
    cases hb : isBoolean shape with
    | false =>
      have single (mark : Bool) :
          mergePlan frame mark [(id, shape)] = .single ⟨id, frame, mark⟩ := by
        simp [mergePlan, hb]
      exact .inl ⟨id, _, sole _ rfl hb, single _⟩
    | true =>
      obtain ⟨b, rfl⟩ := isBoolean_iff.1 hb
      refine .inr (.inl ⟨.primitive "boolean", _, settled ?_ ?_, rfl⟩)
      · rintro x h
        obtain rfl := (List.cons.inj h).1
        rfl
      · exact List.forall_mem_singleton.2 (.literal _)
  | first :: second :: rest =>
    have several : ∀ x, first :: second :: rest = [x] → isBoolean x.2 = true := by simp
    simp only [mergePlan]
    split
    · next values hvalues =>
      have plain := fun x => plain_of_mapM_literal? (x := x) hvalues
      exact .inr (.inl ⟨.enum values, _, settled several plain, rfl⟩)
    · next hvalues =>
      refine .inr (.inr ⟨_, _, notSole several, fun hsettled => ?_, unsettled_ne_nil hvalues, rfl⟩)
      obtain ⟨values, hsome⟩ := literals hsettled
      rw [hsome] at hvalues
      cases hvalues

theorem unionPlan_of_settled {types : List TypeId} (h : Settled table types) (frame : Frame)
    (optional : Bool) :
    ∃ kind mark, unionPlan table types frame optional =
      .ok (.done ((Fragment.leaf kind {}).optional mark)) := by
  cases hp : unionPlan table types frame optional with
  | error e =>
    obtain ⟨id, hid, hnone, -⟩ := unionPlan_error hp
    obtain ⟨shape, hs, -⟩ := h.plain id hid
    cases hnone.symm.trans hs
  | ok p =>
    rcases unionPlan_cases hp with ⟨b, -, hb, -⟩ | ⟨kind, mark, -, rfl⟩ | ⟨-, -, -, hno, -⟩
    · exact absurd hb (h.notSole b)
    · exact ⟨kind, mark, rfl⟩
    · exact absurd h hno

theorem plan_of_soleBranch {b : TypeId} (h : table.SoleBranch v.id b)
    (hd : v.frame.depth ≤ config.maxDepth) :
    ∃ optional, plan table config v = .ok (.single ⟨b, v.frame, optional⟩) := by
  obtain ⟨types, hs, h⟩ := h
  rw [plan_eq_shapePlan hs hd]
  exact unionPlan_of_sole h v.frame v.optional

end

end SchemaSynth.Walk
