import SchemaSynth.Proofs.Fields
import SchemaSynth.Proofs.Walk.Descent

/-!
# What steps keep

A property of schemas at depths that every step keeps is one of all schemas a walk makes
(`Kept.walk`). What there is to check is what is said of leaves, arrays, lists and objects; the
schema of a type may be that of another one only at the same depth (`Plan.Keeps.single`).
-/

namespace SchemaSynth.Walk

/-- The leaves that walks make. -/
inductive LeafOf (table : TypeTable) (config : Config) : Leaf → Prop where
  | primitive (type : Primitive) : LeafOf table config (.primitive type.name)
  | predefined {type : String} : type ∈ config.predefined.map Prod.snd →
      LeafOf table config (.primitive type)
  | forbidden : LeafOf table config .forbidden
  | enum {values : List LiteralValue} :
      (∀ value ∈ values, ∃ id, table.shape? id = some (.literal value)) →
      LeafOf table config (.enum values)
  | array : LeafOf table config .array
  | object : LeafOf table config .object

/-- Whatever is built at a depth, of schemas one below it with the property, has it. -/
structure Kept (table : TypeTable) (config : Config) (I : Nat → Fragment → Prop) : Prop where
  empty : ∀ depth, I depth .empty
  leaf : ∀ depth {kind} optional, LeafOf table config kind →
    I depth ((Fragment.leaf kind {}).optional optional)
  items : ∀ {depth f} optional, config.mode.arrayItems ≠ .opaqueItems → I (depth + 1) f →
    I depth (arrayOf optional f)
  alternatives : ∀ {depth fs} optional, 2 ≤ fs.length → (∀ f ∈ fs, I (depth + 1) f) →
    I depth ((Fragment.alternatives fs).optional optional)
  members : ∀ {id obj} frame optional, table.shape? id = some (.object obj) →
    ∀ fs, (∀ f ∈ fs, I (frame.depth + 1) f) →
    I frame.depth ((membersPlan config obj frame optional).finish fs)
  intersection : ∀ {id types tags} frame optional,
    table.shape? id = some (.intersection types tags) →
    ∀ fs, (∀ f ∈ fs, I (frame.depth + 1) f) →
    I frame.depth ((intersectionPlan config types tags frame optional).finish fs)

/-- Of schemas with the property at the depths of its visits a plan makes one with the property at
its own depth. -/
def Plan.Keeps (I : Nat → Fragment → Prop) (depth : Nat) (p : Plan) : Prop :=
  ∀ fs, List.Forall₂ (fun v f => I v.frame.depth f) p.visits fs → I depth (p.finish fs)

namespace Plan.Keeps

variable {I : Nat → Fragment → Prop} {depth : Nat}

theorem done {f : Fragment} (h : I depth f) : (Plan.done f).Keeps I depth := fun _ _ => h

theorem single (v : Visit) : (Plan.single v).Keeps I v.frame.depth := by
  intro fs hfs
  cases hfs with
  | cons hf hnil => exact hf

theorem map {p : Plan} {g : Fragment → Fragment} {depth' : Nat} (h : p.Keeps I depth)
    (hg : ∀ f, I depth f → I depth' (g f)) : (p.map g).Keeps I depth' :=
  fun fs hfs => hg _ (h fs hfs)

end Plan.Keeps

theorem length_entries (kept : List (TypeId × TypeShape)) (fs : List Fragment) :
    (entries kept fs).length = kept.length := by
  induction kept generalizing fs with
  | nil => rfl
  | cons branch rest ih =>
    unfold entries
    split <;> exact congrArg (· + 1) (ih _)

theorem forall_mem_entries {P : Fragment → Prop} (kept : List (TypeId × TypeShape))
    (hboolean : P (.primitive "boolean")) (hempty : P .empty) {fs : List Fragment}
    (hfs : ∀ f ∈ fs, P f) : ∀ f ∈ entries kept fs, P f := by
  induction kept generalizing fs with
  | nil => exact List.forall_mem_nil _
  | cons branch rest ih =>
    unfold entries
    split
    · exact List.forall_mem_cons.2 ⟨hboolean, ih hfs⟩
    · cases fs with
      | nil => exact List.forall_mem_cons.2 ⟨hempty, ih (List.forall_mem_nil _)⟩
      | cons f fs =>
        obtain ⟨hf, hfs⟩ := List.forall_mem_cons.1 hfs
        exact List.forall_mem_cons.2 ⟨hf, ih hfs⟩

theorem forall_mem_of_forall₂ {α β : Type} {R : α → β → Prop} {P : β → Prop} {xs : List α}
    {ys : List β} (h : List.Forall₂ R xs ys) (hP : ∀ x ∈ xs, ∀ y, R x y → P y) :
    ∀ y ∈ ys, P y := by
  induction h with
  | nil => exact List.forall_mem_nil _
  | cons hxy _ ih =>
    obtain ⟨hx, hxs⟩ := List.forall_mem_cons.1 hP
    exact List.forall_mem_cons.2 ⟨hx _ hxy, ih hxs⟩

theorem forall_mem_of_visits {α : Type} {I : Nat → Fragment → Prop} {depth : Nat}
    {visit : α → Visit} {xs : List α} {fs : List Fragment}
    (h : List.Forall₂ (fun v f => I v.frame.depth f) (xs.map visit) fs)
    (hvisit : ∀ x, (visit x).frame.depth = depth) : ∀ f ∈ fs, I depth f := by
  refine forall_mem_of_forall₂ h fun v hv f hf => ?_
  obtain ⟨x, -, rfl⟩ := List.mem_map.1 hv
  exact hvisit x ▸ hf

/-! ## Objects -/

section

variable {P Q : Fragment → Prop} {config : Config} {frame : Frame}

theorem forall_mem_gather (hannotate : ∀ tags f, P f → P (annotateMember config frame tags f))
    {ms : List Member} {fs : List Fragment} {props : Props} (hprops : ∀ entry ∈ props, P entry.2)
    (hfs : ∀ f ∈ fs, P f) : ∀ entry ∈ gather config frame ms fs props, P entry.2 := by
  induction ms generalizing fs props with
  | nil => exact hprops
  | cons m ms ih =>
    cases fs with
    | nil => exact hprops
    | cons f fs =>
      obtain ⟨hf, hfs⟩ := List.forall_mem_cons.1 hfs
      refine ih (fun entry hentry => ?_) hfs
      rcases Fields.mem_insert hentry with hentry | rfl
      · exact hprops entry hentry
      · exact hannotate m.tags f hf

theorem forall_mem_foldl_mergePart
    (hparts : ∀ f, Q f → ∀ entry ∈ f.props?.getD [], P entry.2) {fs : List Fragment}
    {merged : Props × Extras} (hprops : ∀ entry ∈ merged.1, P entry.2) (hfs : ∀ f ∈ fs, Q f) :
    ∀ entry ∈ (fs.foldl mergePart merged).1, P entry.2 := by
  induction fs generalizing merged with
  | nil => exact hprops
  | cons f fs ih =>
    obtain ⟨hf, hfs⟩ := List.forall_mem_cons.1 hfs
    refine ih (fun entry hentry => ?_) hfs
    rcases Fields.mem_mergeNew hentry with hentry | hentry
    · exact hprops entry hentry
    · exact hparts f hf entry hentry

end

/-! ## Shapes -/

theorem exists_symbol_of_role {obj : ObjectType} {config : Config} {type : String}
    (h : obj.role config = .predefined type) :
    ∃ symbol, Fields.get? config.predefined symbol = some type := by
  unfold ObjectType.role at h
  split at h
  · next hpredefined =>
    cases h
    obtain ⟨symbol, -, hget⟩ := List.exists_of_findSome?_eq_some hpredefined
    exact ⟨symbol, hget⟩
  split at h
  · cases h
  split at h <;> cases h

theorem mem_predefined_of_role {obj : ObjectType} {config : Config} {type : String}
    (h : obj.role config = .predefined type) : type ∈ config.predefined.map Prod.snd := by
  obtain ⟨symbol, hget⟩ := exists_symbol_of_role h
  exact List.mem_map.2 ⟨_, Fields.mem_of_get? hget, rfl⟩

/-- The plan of a shape keeps what leaves have and what the plans of unions, arrays, interfaces and
intersections keep. -/
theorem Plan.Keeps.of_shapePlan {table : TypeTable} {config : Config} {I : Nat → Fragment → Prop}
    {v : Visit} {s : TypeShape} {p : Plan} (hs : table.shape? v.id = some s)
    (hp : shapePlan table config v s = .ok p)
    (leaf : ∀ {kind} mark, LeafOf table config kind →
      I v.frame.depth ((Fragment.leaf kind {}).optional mark))
    (union : ∀ {p} types, unionPlan table types v.frame v.optional = .ok p →
      p.Keeps I v.frame.depth)
    (array : ∀ obj args q, s = .object obj → obj.role config = .array args →
      arrayPlan table config args v.frame v.optional = .ok q → q.Keeps I v.frame.depth)
    (members : ∀ obj frame, s = .object obj → frame.depth = v.frame.depth →
      (membersPlan config obj frame v.optional).Keeps I frame.depth)
    (intersection : ∀ types tags, s = .intersection types tags →
      (intersectionPlan config types tags v.frame v.optional).Keeps I v.frame.depth) :
    p.Keeps I v.frame.depth := by
  cases s with
  | object obj =>
    rcases objectPlan_cases hp with ⟨type, hr, rfl⟩ | ⟨args, hr, ha⟩ | ⟨-, rfl⟩ | ⟨name, -, -, rfl⟩ |
      ⟨name, -, -, rfl⟩
    · exact .done (leaf _ (.predefined (mem_predefined_of_role hr)))
    · exact array obj args p rfl hr ha
    · exact .done (leaf _ .object)
    · exact .done (leaf _ (.primitive .any))
    -- The depth is not changed by what is entered.
    · exact members obj _ rfl rfl
  | union types => exact union types hp
  | intersection types tags =>
    cases hp
    exact intersection types tags rfl
  | enum types =>
    obtain ⟨f, hf, rfl⟩ := map_eq_ok.1 hp
    obtain ⟨values, hvalues, hf⟩ := bind_eq_ok.1 hf
    cases hf
    refine .done (leaf _ (.enum fun value hvalue => ?_))
    obtain ⟨id, hid⟩ := exists_of_mem_mapM_ok hvalues hvalue
    exact ⟨id, enumValue_ok hid⟩
  | forbidden f =>
    cases hp
    exact .done (leaf false .forbidden)
  | unsupported flags => cases hp
  | primitive type =>
    cases hp
    exact .done (leaf _ (.primitive type))
  | literal value =>
    cases hp
    exact .done (leaf _ (.enum (List.forall_mem_singleton.2 ⟨v.id, hs⟩)))

namespace Kept

variable {table : TypeTable} {config : Config} {I : Nat → Fragment → Prop} {frame : Frame}
  {optional : Bool} {p : Plan}

/-! ## Plans -/

theorem mergePlan (h : Kept table config I) {kept : List (TypeId × TypeShape)}
    (hkept : ∀ x ∈ kept, table.shape? x.1 = some x.2) :
    (Walk.mergePlan frame optional kept).Keeps I frame.depth := by
  unfold Walk.mergePlan
  split
  · exact .done (h.leaf _ false .forbidden)
  · split
    · exact .done (h.leaf _ _ (.primitive .boolean))
    · exact .single _
  · next hnil hsingle =>
    split
    · next hvalues =>
      refine .done (h.leaf _ _ (.enum fun value hvalue => ?_))
      obtain ⟨id, hid⟩ := mem_of_mapM_literal? hvalues hvalue
      exact ⟨id, hkept _ hid⟩
    · intro fs hfs
      have two : 2 ≤ (Walk.entries kept fs).length := by
        rw [length_entries]
        match kept with
        | [] => exact absurd rfl hnil
        | [branch] => exact absurd rfl (hsingle branch.1 branch.2)
        | _ :: _ :: rest => exact Nat.le_add_left 2 rest.length
      refine h.alternatives _ two (forall_mem_entries kept (h.leaf _ false (.primitive .boolean))
        (h.empty _) (forall_mem_of_visits hfs fun _ => rfl))

theorem unionPlan (h : Kept table config I) {types : List TypeId}
    (hp : Walk.unionPlan table types frame optional = .ok p) : p.Keeps I frame.depth := by
  obtain ⟨shapes, hs, hp⟩ := bind_eq_ok.1 hp
  cases hp
  exact h.mergePlan fun x hx => (constituents_ok hs).2 x (mem_of_mem_branches hx)

theorem arrayPlan (h : Kept table config I) {args : List TypeId}
    (hp : Walk.arrayPlan table config args frame optional = .ok p) : p.Keeps I frame.depth := by
  rcases arrayPlan_cases hp with rfl | ⟨tracked, ⟨id, rfl, rfl⟩ | ⟨-, q, hq, rfl⟩⟩
  · exact .done (h.leaf _ _ .array)
  · exact (Plan.Keeps.single _).map fun _ => h.items _ tracked
  · exact (h.unionPlan hq).map fun _ => h.items _ tracked

theorem membersPlan (h : Kept table config I) {id : TypeId} {obj : ObjectType}
    (hs : table.shape? id = some (.object obj)) :
    (Walk.membersPlan config obj frame optional).Keeps I frame.depth :=
  fun fs hfs => h.members frame optional hs fs (forall_mem_of_visits hfs fun _ => rfl)

theorem shapePlan (h : Kept table config I) {v : Visit} {s : TypeShape}
    (hs : table.shape? v.id = some s) (hp : Walk.shapePlan table config v s = .ok p) :
    p.Keeps I v.frame.depth := by
  refine .of_shapePlan hs hp (fun mark => h.leaf _ mark) (fun _ hp => h.unionPlan hp) ?_ ?_ ?_
  · rintro obj args q - - hq
    exact h.arrayPlan hq
  · rintro obj frame hobj -
    exact h.membersPlan (hobj ▸ hs)
  · rintro types tags htypes fs hfs
    exact h.intersection v.frame v.optional (htypes ▸ hs) fs (forall_mem_of_visits hfs fun _ => rfl)

/-! ## Walks -/

theorem walk (h : Kept table config I) {steps : Nat} {v : Visit} {f : Fragment}
    (hf : v.walk table config steps = .ok f) : I v.frame.depth f := by
  induction steps generalizing v f with
  | zero => cases hf
  | succ n ih =>
    rw [Visit.walk_succ] at hf
    obtain ⟨p, hp, hf⟩ := bind_eq_ok.1 hf
    obtain ⟨fs, hfs, rfl⟩ := map_eq_ok.1 hf
    obtain ⟨s, hs, -, hp⟩ := shapePlan_of_plan_ok hp
    exact h.shapePlan hs hp fs ((forall₂_of_mapM_ok hfs).imp fun w g hg => ih hg)

end Kept

end SchemaSynth.Walk
