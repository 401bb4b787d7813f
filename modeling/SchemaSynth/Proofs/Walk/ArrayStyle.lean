import SchemaSynth.Proofs.Fragment.Items
import SchemaSynth.Proofs.Walk.InStep

/-!
# Tracked and opaque arrays

Arrays that do not say what their items are need no walk of them. All other types are walked alike
in both styles, and what is made of their schemas does not look into arrays. So where the walk with
tracked items has a schema, the one without has that schema less the items of its arrays
(`schema_opaqueItems`); what the walk of the items met on the way, it met for them alone.
-/

namespace SchemaSynth

def Config.withArrays (config : Config) (arrayItems : ArrayStyle) : Config :=
  { config with mode := { config.mode with arrayItems } }

namespace Walk

open Fragment (dropItems)

section

variable {table : TypeTable} {config : Config} {frame : Frame} {optional : Bool}

/-! ## Objects -/

theorem annotateMember_dropItems (config : Config) (frame : Frame) (tags : List DocTag)
    (f : Fragment) :
    annotateMember config frame tags f.dropItems = (annotateMember config frame tags f).dropItems := by
  unfold annotateMember
  rw [Fragment.isMapping_dropItems]
  split
  · exact (Fragment.dropItems_withExtras ..).symm
  · rfl

theorem assemble_dropItems (props : Props) (extras : Extras) :
    assemble config frame optional (Fields.mapValues dropItems props) extras =
      (assemble config frame optional props extras).dropItems := by
  unfold assemble
  rw [Fields.mapValues_isEmpty]
  split
  · rfl
  split
  · rw [dropItems, Fragment.dropItemsProps_eq]
  · rw [Fragment.dropItems_withExtras, Fragment.dropItems_optional, dropItems,
      Fragment.dropItemsProps_eq]

theorem foldl_mergePart_dropItems (fs : List Fragment) (merged : Props × Extras) :
    (fs.map dropItems).foldl mergePart (merged.map (Fields.mapValues dropItems) id) =
      (fs.foldl mergePart merged).map (Fields.mapValues dropItems) id := by
  induction fs generalizing merged with
  | nil => rfl
  | cons f fs ih =>
    rw [List.map_cons, List.foldl_cons, List.foldl_cons, ← ih]
    congr 1
    simp only [mergePart, Prod.map, id, Fragment.props?_dropItems,
      Fragment.objectExtras?_dropItems, Fields.mergeNew_mapValues]

theorem parallel_dropItems (table : TypeTable) (config : Config) :
    Parallel table (config.withArrays .opaqueItems) (config.withArrays .opaqueItems)
      (fun _ => True) Eq (fun f g => g = f.dropItems) where
  closed _ _ _ _ := trivial
  arrayItems := rfl
  role _ := rfl
  deeper h := congrArg Frame.deeper h
  known h _ _ := by rw [h]
  enter name h := congrArg (Frame.enter · name) h
  empty := rfl
  leaf kind optional := (Fragment.dropItems_optional (.leaf kind {}) optional).symm
  items _ tracked _ := absurd rfl tracked
  alternatives optional hfs := by
    rw [forall₂_eq_map.1 hfs, Fragment.dropItems_optional, dropItems,
      Fragment.dropItemsEntries_eq]
  members {frame _ _ obj} optional _ hF fs gs hfs := by
    obtain rfl := forall₂_eq_map.1 hfs
    subst hF
    have props := gather_mapValues
      (annotateMember_dropItems (config.withArrays .opaqueItems) frame) (walked obj.members) fs []
    simp only [membersPlan]
    rw [← assemble_dropItems, ← props]
    rfl
  intersection optional _ hF fs gs hfs := by
    obtain rfl := forall₂_eq_map.1 hfs
    subst hF
    have merged : (fs.map dropItems).foldl mergePart ([], []) = _ :=
      foldl_mergePart_dropItems fs ([], [])
    simp only [intersectionPlan]
    rw [← assemble_dropItems, merged]
    rfl

/-! ## Plans -/

theorem arrayPlan_dropItems {args : List TypeId} {p : Plan}
    (h : arrayPlan table (config.withArrays .tracked) args frame optional = .ok p)
    (fs : List Fragment) : (p.finish fs).dropItems = (Fragment.array none).optional optional := by
  have items (f : Fragment) :
      (arrayOf optional f).dropItems = (Fragment.array none).optional optional :=
    Fragment.dropItems_optional (.arrayOf f {}) optional
  match args with
  | [] =>
    cases h
    exact Fragment.dropItems_optional (.leaf .array {}) optional
  | [id] =>
    cases h
    exact items _
  | first :: second :: rest =>
    obtain ⟨q, -, rfl⟩ := map_eq_ok.1 h
    exact items _

/-- The second plan makes the schemas of the first less their items: of the same visits, or of none
where the first one makes an array. -/
inductive Plan.DropsItems (p q : Plan) : Prop where
  | kept : p.Agree (Visit.Beside Eq) (fun f g => g = f.dropItems) q → DropsItems p q
  | skipped {f : Fragment} : q = .done f → (∀ fs, (p.finish fs).dropItems = f) → DropsItems p q

theorem Plan.DropsItems.run {p q : Plan}
    {walk walk' : TypeId → Frame → Bool → Except WalkError Fragment} (h : p.DropsItems q)
    (hw : ∀ v : Visit, Walk.Agree (fun _ => True) (fun f g => g = f.dropItems)
      (walk v.id v.frame v.optional) (walk' v.id v.frame v.optional)) :
    Walk.Agree (fun _ => True) (fun f g => g = f.dropItems) (p.run walk) (q.run walk') := by
  cases h with
  | kept h =>
    refine h.run fun v w hvw => ?_
    rw [hvw.id, hvw.optional, ← hvw.frame]
    exact hw v
  | skipped hq hp =>
    subst hq
    cases hr : p.run walk with
    | error e => exact .skip trivial
    | ok g =>
      obtain ⟨fs, -, rfl⟩ := map_eq_ok.1 hr
      exact .ok (hp fs).symm

theorem membersPlan_withArrays (obj : ObjectType) (style style' : ArrayStyle) :
    membersPlan (config.withArrays style) obj frame optional =
      membersPlan (config.withArrays style') obj frame optional := by
  have alike : WritesAlike (config.withArrays style') (config.withArrays style) frame frame :=
    ⟨rfl, rfl⟩
  exact congrArg (Plan.mk _) (funext (alike.members obj optional))

theorem objectPlan_withArrays {obj : ObjectType} (h : ∀ args, obj.role config ≠ .array args)
    (style style' : ArrayStyle) :
    objectPlan table (config.withArrays style) obj frame optional =
      objectPlan table (config.withArrays style') obj frame optional := by
  have role (style : ArrayStyle) : obj.role (config.withArrays style) = obj.role config := rfl
  unfold objectPlan
  rw [role, role]
  cases hr : obj.role config with
  | array args => exact absurd hr (h args)
  | interface name =>
    cases name with
    | none => exact congrArg Except.ok (membersPlan_withArrays obj style style')
    | some name =>
      show (if _ then _ else Except.ok _) = if _ then _ else Except.ok _
      rw [membersPlan_withArrays obj style style']
  | _ => rfl

theorem objectPlan_dropItems {v : Visit} {obj : ObjectType}
    (hs : table.shape? v.id = some (.object obj)) :
    Agree (fun _ => True) Plan.DropsItems
      (objectPlan table (config.withArrays .tracked) obj v.frame v.optional)
      (objectPlan table (config.withArrays .opaqueItems) obj v.frame v.optional) := by
  by_cases hr : ∃ args, obj.role config = .array args
  · obtain ⟨args, hr⟩ := hr
    have array (style : ArrayStyle) :
        objectPlan table (config.withArrays style) obj v.frame v.optional =
          arrayPlan table (config.withArrays style) args v.frame v.optional := by
      have role : obj.role (config.withArrays style) = .array args := hr
      unfold objectPlan
      rw [role]
    rw [array, array]
    cases hp : arrayPlan table (config.withArrays .tracked) args v.frame v.optional with
    | error e => exact .skip trivial
    | ok p => exact .ok (.skipped rfl (arrayPlan_dropItems hp))
  · rw [objectPlan_withArrays (not_exists.1 hr) .tracked .opaqueItems]
    have same := (parallel_dropItems table config).objectPlan (v := v) ⟨rfl, rfl, rfl⟩ trivial hs
    exact (same.mono fun _ => False.elim).imp_of_ok fun p _ q hpq => .kept hpq

theorem plan_dropItems (table : TypeTable) (config : Config) (v : Visit) :
    Agree (fun _ => True) Plan.DropsItems (plan table (config.withArrays .tracked) v)
      (plan table (config.withArrays .opaqueItems) v) := by
  unfold plan
  cases hs : shape table v.id with
  | error e => exact .error e
  | ok s =>
    show Agree _ _ (if v.frame.depth > config.maxDepth then _ else _)
      (if v.frame.depth > config.maxDepth then _ else _)
    split
    · exact .error _
    have same := (parallel_dropItems table config).shapePlan (v := v) ⟨rfl, rfl, rfl⟩ trivial
      (shape_eq_ok.1 hs)
    cases s with
    | object obj => exact objectPlan_dropItems (shape_eq_ok.1 hs)
    | _ => exact (same.mono fun _ => False.elim).imp_of_ok fun p _ q hpq => .kept hpq

/-! ## Walks -/

/-- A schema with items makes one without; an error is perhaps that of an item. -/
theorem walk_dropItems (table : TypeTable) (config : Config) (steps : Nat) (v : Visit) :
    Agree (fun _ => True) (fun f g => g = f.dropItems)
      (v.walk table (config.withArrays .tracked) steps)
      (v.walk table (config.withArrays .opaqueItems) steps) := by
  induction steps generalizing v with
  | zero => exact .error _
  | succ n ih =>
    rw [Visit.walk_succ, Visit.walk_succ]
    exact (plan_dropItems table config v).bind fun p q hpq => hpq.run ih

theorem styleLeaves_dropItems (config : Config) (f : Fragment) :
    styleLeaves config f.dropItems = (styleLeaves config f).dropItems := by
  unfold styleLeaves
  split
  · rfl
  · rw [Fragment.toBare_dropItems, Fragment.dropItems_toBare]

end

end Walk

open Walk

/-- A type that has a schema with the items of its arrays has one without them: the same schema with
the items of every array dropped. With bare leaves nothing is dropped. -/
theorem TypeTable.schema_opaqueItems {table : TypeTable} {config : Config} {root : TypeId}
    {additional : Bool} {f : Fragment}
    (h : table.schema (config.withArrays .tracked) root additional = .ok f) :
    table.schema (config.withArrays .opaqueItems) root additional = .ok f.dropItems ∧
      (config.mode.leaves = .bare →
        table.schema (config.withArrays .opaqueItems) root additional =
          table.schema (config.withArrays .tracked) root additional) := by
  let v := Visit.root root additional
  have dropped : table.schema (config.withArrays .opaqueItems) root additional =
      .ok f.dropItems := by
    rw [schema_eq] at h ⊢
    obtain ⟨g, hg, rfl⟩ := map_eq_ok.1 h
    have hwalk : v.walk table (config.withArrays .opaqueItems) (budget table config) =
        .ok g.dropItems := by
      obtain ⟨_, hw, rfl⟩ := (walk_dropItems table config (budget table config) v).ok_of_eq_ok hg
      exact hw
    exact map_eq_ok.2 ⟨g.dropItems, hwalk, styleLeaves_dropItems config g⟩
  refine ⟨dropped, fun bare => ?_⟩
  obtain ⟨g, -, rfl⟩ := map_eq_ok.1 ((schema_eq ..).symm.trans h)
  have hstyle : styleLeaves (config.withArrays .tracked) g = g.toBare := by
    unfold styleLeaves Config.withArrays
    rw [bare]
  rw [dropped, h, hstyle, Fragment.dropItems_toBare]

/-- A tree with a list of its branches. -/
def trees : TypeTable where
  types := #[{ flags := [.number] },
    { flags := [.object], symbol := some "Tree",
      members := [{ name := "weight", type := 0 },
        { name := "branches", type := 2, optional := true }] },
    { flags := [.object, .array], symbol := some "Array", typeArguments := [1] }]

/-- The schema of trees, with typed leaves and with bare ones. -/
theorem schema_opaqueItems_trees :
    let typed : Config := {}
    let bare : Config := { mode := { leaves := .bare } }
    (∃ f, trees.schema (typed.withArrays .tracked) 1 true = .ok f ∧
      trees.schema (typed.withArrays .opaqueItems) 1 true = .ok f.dropItems) ∧
    ∃ f, trees.schema (bare.withArrays .tracked) 1 true = .ok f ∧ bare.mode.leaves = .bare ∧
      trees.schema (bare.withArrays .opaqueItems) 1 true =
        trees.schema (bare.withArrays .tracked) 1 true := by
  intro typed bare
  obtain ⟨f, hf⟩ : ∃ f, trees.schema (typed.withArrays .tracked) 1 true = .ok f := ⟨_, rfl⟩
  obtain ⟨g, hg⟩ : ∃ g, trees.schema (bare.withArrays .tracked) 1 true = .ok g := ⟨_, rfl⟩
  exact ⟨⟨f, hf, (TypeTable.schema_opaqueItems hf).1⟩,
    g, hg, rfl, (TypeTable.schema_opaqueItems hg).2 rfl⟩

end SchemaSynth
