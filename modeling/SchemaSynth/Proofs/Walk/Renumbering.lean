import SchemaSynth.Proofs.Walk.Ending

/-!
# Tables with other numbers

The number of a type is there to find it and to name it in errors, and for nothing else. Give types
other numbers, one number to several of them if they are alike, and a step makes the visits it made
before under their new numbers (`plan_renumber`). So a root has the schema it had, or the same error
about a new number (`schema_renumber`), whatever else is in the two tables.
-/

namespace SchemaSynth

open Relation (ReflTransGen)

/-! ## Renumbered types -/

section

variable (p : TypeId → TypeId)

def Member.renumber (m : Member) : Member := { m with type := p m.type }

def Descriptor.renumber (d : Descriptor) : Descriptor :=
  { d with
    types := d.types.map p
    typeArguments := d.typeArguments.map p
    members := d.members.map (Member.renumber p) }

def ObjectType.renumber (obj : ObjectType) : ObjectType :=
  { obj with
    array := obj.array.map (List.map p)
    members := obj.members.map (Member.renumber p) }

def TypeShape.renumber : TypeShape → TypeShape
  | .object obj => .object (obj.renumber p)
  | .union types => .union (types.map p)
  | .intersection types tags => .intersection (types.map p) tags
  | .enum types => .enum (types.map p)
  | .primitive type => .primitive type
  | .literal value => .literal value
  | .forbidden type => .forbidden type
  | .unsupported flags => .unsupported flags

def ObjectRole.renumber : ObjectRole → ObjectRole
  | .array args => .array (args.map p)
  | .predefined type => .predefined type
  | .dictionary => .dictionary
  | .interface name => .interface name

/-- The error about the type under its new number. -/
def WalkError.renumber : WalkError → WalkError
  | .unknownType id => .unknownType (p id)
  | .unrecognized id flags => .unrecognized (p id) flags
  | .depthLimit id limit => .depthLimit (p id) limit
  | .endless id => .endless (p id)

theorem Descriptor.objectType_renumber (d : Descriptor) :
    (d.renumber p).objectType = d.objectType.renumber p := by
  have flags : (d.renumber p).has .array = d.has .array := rfl
  unfold objectType ObjectType.renumber
  rw [flags]
  cases d.has .array <;> rfl

theorem TypeShape.ofDescriptor_renumber (d : Descriptor) :
    ofDescriptor (d.renumber p) = (ofDescriptor d).renumber p := by
  have primitive : (d.renumber p).primitive? = d.primitive? := rfl
  have forbidden : (d.renumber p).forbidden? = d.forbidden? := rfl
  have literal : (d.renumber p).literal? = d.literal? := rfl
  have flags (flag : Flag) : (d.renumber p).has flag = d.has flag := rfl
  unfold ofDescriptor
  rw [primitive, forbidden, literal, d.objectType_renumber]
  simp only [flags]
  cases d.primitive? with
  | some type =>
    dsimp only
    split
    · cases d.literal? <;> rfl
    · rfl
  | none =>
    cases d.forbidden? with
    | some type => rfl
    | none =>
      dsimp only
      split
      · rfl
      split
      · rfl
      split
      · rfl
      split <;> rfl

theorem ObjectType.role_renumber (obj : ObjectType) (config : Config) :
    (obj.renumber p).role config = (obj.role config).renumber p := by
  have predefined : (obj.renumber p).predefined? config = obj.predefined? config := rfl
  have index : (obj.renumber p).index = obj.index := rfl
  have identity : (obj.renumber p).identity? config = obj.identity? config := rfl
  have array : (obj.renumber p).array = obj.array.map (List.map p) := rfl
  unfold role
  rw [predefined, index, identity, array]
  cases obj.predefined? config with
  | some type => rfl
  | none =>
    cases obj.array with
    | some args => rfl
    | none => cases obj.index.isSome <;> rfl

end

/-! ## Renumbered tables -/

namespace TypeTable

/-- A walk that is at the first type may look at the second one. -/
def Reads (table : TypeTable) (config : Config) (a b : TypeId) : Prop :=
  b ∈ table.references config a ∨ b ∈ table.enumMembers a

/-- Whatever a walk from the root may look at, the second table has it under its new number, with
all references renumbered; and what is not in the first table is not in the second one. -/
def Renumbers (table table' : TypeTable) (config : Config) (p : TypeId → TypeId)
    (root : TypeId) : Prop :=
  ∀ id, ReflTransGen (table.Reads config) root id →
    table'.get? (p id) = (table.get? id).map (Descriptor.renumber p)

end TypeTable

namespace Walk

section

variable (p : TypeId → TypeId)

/-- The result under new numbers: that of an error, and of a value what `g` says. -/
def renumbered {α β : Type} (g : α → β) (x : Except WalkError α) : Except WalkError β :=
  (g <$> x).mapError (WalkError.renumber p)

def Visit.renumber (v : Visit) : Visit := { v with id := p v.id }

def Plan.renumber (q : Plan) : Plan := { q with visits := q.visits.map (Visit.renumber p) }

def renumberBranch (branch : TypeId × TypeShape) : TypeId × TypeShape :=
  (p branch.1, branch.2.renumber p)

variable {α β γ δ : Type}

theorem renumbered_bind {g : α → β} {h : γ → δ} {f : α → Except WalkError γ}
    {f' : β → Except WalkError δ} {x : Except WalkError α}
    (hf : ∀ a, x = .ok a → f' (g a) = renumbered p h (f a)) :
    renumbered p g x >>= f' = renumbered p h (x >>= f) := by
  cases x with
  | error e => rfl
  | ok a => exact hf a rfl

theorem renumbered_map {g : β → δ} {h : α → γ} {f : α → β} {f' : γ → δ}
    (hf : ∀ a, f' (h a) = g (f a)) (x : Except WalkError α) :
    renumbered p g (f <$> x) = f' <$> renumbered p h x := by
  cases x with
  | error e => rfl
  | ok a => exact congrArg Except.ok (hf a).symm

theorem mapM_renumbered {r : α → β} {g : γ → δ} {f : α → Except WalkError γ}
    {f' : β → Except WalkError δ} {xs : List α}
    (hf : ∀ x ∈ xs, f' (r x) = renumbered p g (f x)) :
    (xs.map r).mapM f' = renumbered p (List.map g) (xs.mapM f) := by
  induction xs with
  | nil => rfl
  | cons x xs ih =>
    obtain ⟨hx, hxs⟩ := List.forall_mem_cons.1 hf
    rw [List.map_cons, List.mapM_cons, List.mapM_cons, hx, ih hxs]
    exact renumbered_bind p fun a _ => renumbered_bind p fun as _ => rfl

/-! ## Renumbered plans -/

theorem isBoolean_renumber (s : TypeShape) : isBoolean (s.renumber p) = isBoolean s := by
  cases s <;> rfl

theorem literal?_renumber (s : TypeShape) : (s.renumber p).literal? = s.literal? := by
  cases s <;> rfl

theorem renumber_beq_undefined (s : TypeShape) :
    (s.renumber p == .forbidden .undefined) = (s == .forbidden .undefined) := by
  cases s <;> rfl

theorem branches_renumber (shapes : List (TypeId × TypeShape)) (saw : Bool) :
    branches (shapes.map (renumberBranch p)) saw =
      (branches shapes saw).map (renumberBranch p) := by
  induction shapes generalizing saw with
  | nil => rfl
  | cons branch rest ih =>
    obtain ⟨id, s⟩ := branch
    cases s with
    | forbidden type => cases type <;> simp [branches, renumberBranch, TypeShape.renumber, ih]
    | literal value =>
      cases value with
      | boolean b => cases saw <;> simp [branches, renumberBranch, TypeShape.renumber, ih]
      | _ => simp [branches, renumberBranch, TypeShape.renumber, ih]
    | _ => simp [branches, renumberBranch, TypeShape.renumber, ih]

theorem entries_renumber (kept : List (TypeId × TypeShape)) (fs : List Fragment) :
    entries (kept.map (renumberBranch p)) fs = entries kept fs := by
  induction kept generalizing fs with
  | nil => rfl
  | cons branch rest ih =>
    simp only [List.map_cons, entries, renumberBranch, isBoolean_renumber, ih]

theorem unsettled_renumber (kept : List (TypeId × TypeShape)) :
    unsettled (kept.map (renumberBranch p)) = (unsettled kept).map (renumberBranch p) := by
  unfold unsettled
  rw [List.filter_map]
  simp only [Function.comp_def, renumberBranch, isBoolean_renumber]

theorem mergePlan_renumber (frame : Frame) (optional : Bool) (kept : List (TypeId × TypeShape)) :
    mergePlan frame optional (kept.map (renumberBranch p)) =
      (mergePlan frame optional kept).renumber p := by
  match kept with
  | [] => rfl
  | [(id, s)] =>
    show (if isBoolean (s.renumber p) then _ else _) = _
    rw [isBoolean_renumber]
    unfold mergePlan
    dsimp only
    split <;> rfl
  | first :: second :: rest =>
    have literals : ((first :: second :: rest).map (renumberBranch p)).mapM
          (fun branch => branch.2.literal?) =
        (first :: second :: rest).mapM fun branch => branch.2.literal? := by
      rw [List.mapM_map]
      exact congrArg (List.mapM · _) (funext fun branch => literal?_renumber p branch.2)
    rw [List.map_cons, List.map_cons] at literals ⊢
    simp only [mergePlan]
    rw [literals]
    cases (first :: second :: rest).mapM fun branch => branch.2.literal? with
    | some values => rfl
    | none =>
      have again := unsettled_renumber p (first :: second :: rest)
      have same := entries_renumber p (first :: second :: rest)
      rw [List.map_cons, List.map_cons] at again same
      simp only [Plan.renumber, again, same, List.map_map]
      rfl

theorem walked_renumber (ms : List Member) :
    walked (ms.map (Member.renumber p)) = (walked ms).map (Member.renumber p) := by
  unfold walked
  rw [List.filter_map]
  rfl

theorem gather_renumber (config : Config) (frame : Frame) (ms : List Member) (fs : List Fragment)
    (props : Props) :
    gather config frame (ms.map (Member.renumber p)) fs props = gather config frame ms fs props := by
  induction ms generalizing fs props with
  | nil => rfl
  | cons m ms ih =>
    cases fs with
    | nil => rfl
    | cons f fs => exact ih fs _

theorem membersPlan_renumber (config : Config) (obj : ObjectType) (frame : Frame)
    (optional : Bool) :
    membersPlan config (obj.renumber p) frame optional =
      (membersPlan config obj frame optional).renumber p := by
  unfold membersPlan Plan.renumber
  simp only [ObjectType.renumber, walked_renumber, gather_renumber, List.map_map]
  rfl

theorem intersectionPlan_renumber (config : Config) (types : List TypeId) (tags : List DocTag)
    (frame : Frame) (optional : Bool) :
    intersectionPlan config (types.map p) tags frame optional =
      (intersectionPlan config types tags frame optional).renumber p := by
  unfold intersectionPlan Plan.renumber
  simp only [List.map_map]
  rfl

variable {p} {table table' : TypeTable} {config : Config} {P : TypeId → Prop} {frame : Frame}
  {optional : Bool} {types : List TypeId}

/-- The types of `P` have the same shapes in the second table, under their new numbers. -/
structure Renumbering (table table' : TypeTable) (config : Config) (p : TypeId → TypeId)
    (P : TypeId → Prop) : Prop where
  closed : ∀ a b, P a → table.Reads config a b → P b
  shape? : ∀ id, P id → table'.shape? (p id) = (table.shape? id).map (TypeShape.renumber p)

theorem Renumbering.of_renumbers {root : TypeId} (h : table.Renumbers table' config p root) :
    Renumbering table table' config p (ReflTransGen (table.Reads config) root) where
  closed _ _ ha hab := ha.tail hab
  shape? id hid := by
    unfold TypeTable.shape?
    rw [h id hid]
    cases table.get? id with
    | none => rfl
    | some d => exact congrArg some (TypeShape.ofDescriptor_renumber p d)

namespace Renumbering

theorem shape (h : Renumbering table table' config p P) {id : TypeId} (hid : P id) :
    Walk.shape table' (p id) = renumbered p (TypeShape.renumber p) (Walk.shape table id) := by
  unfold Walk.shape
  rw [h.shape? id hid]
  cases table.shape? id <;> rfl

theorem constituents (h : Renumbering table table' config p P) (htypes : ∀ id ∈ types, P id) :
    Walk.constituents table' (types.map p) =
      renumbered p (List.map (renumberBranch p)) (Walk.constituents table types) := by
  refine mapM_renumbered p fun id hid => ?_
  rw [h.shape (htypes id hid)]
  exact renumbered_bind p fun s _ => rfl

theorem unionPlan (h : Renumbering table table' config p P) (htypes : ∀ id ∈ types, P id) :
    Walk.unionPlan table' (types.map p) frame optional =
      renumbered p (Plan.renumber p) (Walk.unionPlan table types frame optional) := by
  unfold Walk.unionPlan
  rw [h.constituents htypes]
  refine renumbered_bind p fun shapes _ => ?_
  have undefined : ((shapes.map (renumberBranch p)).any fun branch =>
      branch.2 == .forbidden .undefined) = shapes.any fun branch =>
      branch.2 == .forbidden .undefined := by
    rw [List.any_map]
    exact congrArg shapes.any (funext fun branch => renumber_beq_undefined p branch.2)
  dsimp only
  rw [undefined, branches_renumber, mergePlan_renumber]
  rfl

theorem arrayPlan (h : Renumbering table table' config p P) {args : List TypeId}
    (hargs : config.mode.arrayItems ≠ .opaqueItems → ∀ id ∈ args, P id) :
    Walk.arrayPlan table' config (args.map p) frame optional =
      renumbered p (Plan.renumber p) (Walk.arrayPlan table config args frame optional) := by
  unfold Walk.arrayPlan
  split
  · rfl
  · next tracked =>
    match args with
    | [] => rfl
    | [id] => rfl
    | first :: second :: rest =>
      have union : Walk.unionPlan table' ((first :: second :: rest).map p) frame.deeper false =
          renumbered p (Plan.renumber p)
            (Walk.unionPlan table (first :: second :: rest) frame.deeper false) :=
        h.unionPlan (hargs tracked)
      show Plan.map (arrayOf optional) <$>
          Walk.unionPlan table' ((first :: second :: rest).map p) frame.deeper false =
        renumbered p (Plan.renumber p) (Plan.map (arrayOf optional) <$>
          Walk.unionPlan table (first :: second :: rest) frame.deeper false)
      rw [union]
      exact (renumbered_map p (fun q => by rfl) _).symm

theorem enumeration (h : Renumbering table table' config p P) (htypes : ∀ id ∈ types, P id) :
    Walk.enumeration table' (types.map p) optional =
      renumbered p id (Walk.enumeration table types optional) := by
  have values : (types.map p).mapM (enumValue table') =
      renumbered p (List.map id) (types.mapM (enumValue table)) := by
    refine mapM_renumbered p fun m hm => ?_
    unfold enumValue
    rw [h.shape (htypes m hm)]
    refine renumbered_bind p fun s _ => ?_
    rw [literal?_renumber]
    cases s.literal? <;> rfl
  unfold Walk.enumeration
  rw [values]
  exact renumbered_bind p fun vs _ => by rw [List.map_id]; rfl

theorem objectPlan (h : Renumbering table table' config p P) {obj : ObjectType}
    (hargs : ∀ id ∈ obj.references config, P id) :
    Walk.objectPlan table' config (obj.renumber p) frame optional =
      renumbered p (Plan.renumber p) (Walk.objectPlan table config obj frame optional) := by
  unfold ObjectType.references at hargs
  unfold Walk.objectPlan
  rw [obj.role_renumber]
  cases hr : obj.role config with
  | predefined type => rfl
  | array args =>
    rw [hr] at hargs
    exact h.arrayPlan fun tracked id hid => hargs id (by simpa only [if_neg tracked] using hid)
  | dictionary => rfl
  | interface name =>
    cases name with
    | none => exact congrArg Except.ok (membersPlan_renumber p config obj frame optional)
    | some name =>
      show (if frame.ancestors.contains name then _ else _) = _
      dsimp only
      split
      · rfl
      · exact congrArg Except.ok (membersPlan_renumber p config obj (frame.enter name) optional)

theorem shapePlan (h : Renumbering table table' config p P) {v : Visit} (hv : P v.id)
    {s : TypeShape} (hs : table.shape? v.id = some s) :
    Walk.shapePlan table' config (v.renumber p) (s.renumber p) =
      renumbered p (Plan.renumber p) (Walk.shapePlan table config v s) := by
  have reads : ∀ id, id ∈ s.references config ∨ id ∈ s.enumMembers → P id := by
    intro id hid
    rw [← table.references_eq config hs, ← table.enumMembers_eq hs] at hid
    exact h.closed v.id id hv hid
  cases s with
  | object obj => exact h.objectPlan fun id hid => reads id (.inl hid)
  | union types => exact h.unionPlan fun id hid => reads id (.inl hid)
  | intersection types tags =>
    exact congrArg Except.ok
      (intersectionPlan_renumber p config types tags v.frame v.optional)
  | enum types =>
    show Plan.done <$> Walk.enumeration table' (types.map p) v.optional = _
    have members : ∀ id ∈ types, P id := fun id hid => reads id (.inr hid)
    rw [h.enumeration members]
    exact (renumbered_map p (fun f => by rfl) _).symm
  | _ => rfl

theorem plan (h : Renumbering table table' config p P) {v : Visit} (hv : P v.id) :
    Walk.plan table' config (v.renumber p) =
      renumbered p (Plan.renumber p) (Walk.plan table config v) := by
  unfold Walk.plan
  show (Walk.shape table' (p v.id) >>= _) = _
  rw [h.shape hv]
  refine renumbered_bind p fun s hs => ?_
  show (if v.frame.depth > config.maxDepth then _ else _) = _
  split
  · rfl
  · exact h.shapePlan hv (shape_eq_ok.1 hs)

theorem walk (h : Renumbering table table' config p P) (steps : Nat) {v : Visit} (hv : P v.id) :
    (v.renumber p).walk table' config steps = renumbered p id (v.walk table config steps) := by
  induction steps generalizing v with
  | zero => rfl
  | succ n ih =>
    rw [Visit.walk_succ, Visit.walk_succ, h.plan hv]
    refine renumbered_bind p fun q hq => ?_
    have visits : (q.visits.map (Visit.renumber p)).mapM (Visit.walk table' config n) =
        renumbered p (List.map id) (q.visits.mapM (Visit.walk table config n)) :=
      mapM_renumbered p fun w hw =>
        ih (h.closed _ _ hv (.inl (below_of_mem_visits hq hw).mem))
    show q.finish <$> (q.visits.map (Visit.renumber p)).mapM (Visit.walk table' config n) = _
    rw [visits]
    exact (renumbered_map p (fun fs => by rw [List.map_id]; rfl) _).symm

end Renumbering

/-! ## Whole walks -/

theorem ends_renumbered {g : α → β} {x : Except WalkError α} :
    Ends (renumbered p g x) ↔ Ends x := by
  cases x with
  | ok a => exact iff_of_true (ends_of_ok rfl) (ends_of_ok rfl)
  | error e =>
    cases e with
    | endless id => exact iff_of_false (fun h => h (p id) rfl) fun h => h id rfl
    | _ => exact iff_of_true (fun id h => by cases h) fun id h => by cases h

/-- The tables may differ in size, and so the budgets of the two walks; it does not matter. -/
theorem Renumbering.walk_budget (h : Renumbering table table' config p P) {v : Visit}
    (hv : P v.id) (hends : Ends (v.walk table config (budget table config))) :
    (v.renumber p).walk table' config (budget table' config) =
      renumbered p id (v.walk table config (budget table config)) := by
  have same := h.walk (budget table config) hv
  rw [← same]
  exact walk_budget_eq (same ▸ ends_renumbered.2 hends)

theorem Renumbering.ends_iff (h : Renumbering table table' config p P) {v : Visit} (hv : P v.id) :
    Ends ((v.renumber p).walk table' config (budget table' config)) ↔
      Ends (v.walk table config (budget table config)) := by
  constructor
  · intro hends
    rw [h.walk _ hv] at hends
    exact ends_within_budget (ends_renumbered.1 hends)
  · intro hends
    rw [h.walk_budget hv hends]
    exact ends_renumbered.2 hends

end

end Walk

open Walk

/-- Under new numbers, which alike types may share, a type has the same schema, or the same error
about the new number: the types that it leads to count, and no others. -/
theorem TypeTable.schema_renumber {table table' : TypeTable} {config : Config}
    {p : TypeId → TypeId} {root : TypeId} (h : table.Renumbers table' config p root)
    (additional : Bool) :
    (Ends (table'.schema config (p root) additional) ↔
      Ends (table.schema config root additional)) ∧
    (Ends (table.schema config root additional) →
      table'.schema config (p root) additional =
        (table.schema config root additional).mapError (WalkError.renumber p)) := by
  let v := Visit.root root additional
  have hroot : ReflTransGen (table.Reads config) root v.id := .refl
  have numbers := Renumbering.of_renumbers h
  have hw : Visit.root (p root) additional = v.renumber p := rfl
  rw [schema_eq, schema_eq, ends_map, ends_map, hw]
  refine ⟨numbers.ends_iff hroot, fun hends => ?_⟩
  rw [numbers.walk_budget hroot hends]
  cases v.walk table config (budget table config) <;> rfl

/-- Two alike nodes that follow each other, and a node that was left behind. -/
def twinNodes : TypeTable where
  types := #[{ flags := [.string] },
    { flags := [.object], symbol := some "Node",
      members := [{ name := "next", type := 2 }, { name := "value", type := 0 }] },
    { flags := [.object], symbol := some "Node",
      members := [{ name := "next", type := 1 }, { name := "value", type := 0 }] },
    { flags := [.object], symbol := some "Node", members := [{ name := "next", type := 9 }] }]

/-- One node that follows itself. -/
def oneNode : TypeTable where
  types := #[
    { flags := [.object], symbol := some "Node",
      members := [{ name := "next", type := 0 }, { name := "value", type := 1 }] },
    { flags := [.string] }, { flags := [.never] },
    { flags := [.object], symbol := some "Node", members := [{ name := "next", type := 12 }] }]

/-- The twins have the schema of the one node that they become, and what the other node lacks has a
new number. -/
theorem schema_renumber_twinNodes :
    let config : Config := { maxDepth := 3 }
    let p : TypeId → TypeId
      | 0 => 1
      | 1 | 2 => 0
      | id + 3 => if id = 0 then 3 else id + 6
    let node : Fragment := .flat [("next", .primitive "any"), ("value", .primitive "string")] []
    (twinNodes.Renumbers oneNode config p 1 ∧ Ends (twinNodes.schema config 1 true) ∧
      twinNodes.schema config 1 true = .ok node ∧ oneNode.schema config (p 1) true = .ok node) ∧
    (twinNodes.Renumbers oneNode config p 3 ∧ Ends (twinNodes.schema config 3 true) ∧
      twinNodes.schema config 3 true = .error (.unknownType 9) ∧
      oneNode.schema config (p 3) true = .error (.unknownType 12)) := by
  intro config p node
  have renumbers : ∀ root, twinNodes.Renumbers oneNode config p root := by
    intro root id _
    match id with
    | 0 | 1 | 2 | 3 => rfl
    | id + 4 =>
      have hold : twinNodes.get? (id + 4) = none := by simp [TypeTable.get?, twinNodes]
      have hnew : oneNode.get? (id + 7) = none := by simp [TypeTable.get?, oneNode]
      rw [hold]
      exact hnew
  have hnode : twinNodes.schema config 1 true = .ok node := rfl
  have hlost : twinNodes.schema config 3 true = .error (.unknownType 9) := rfl
  have ends : Ends (twinNodes.schema config 1 true) := ends_of_ok hnode
  have lost : Ends (twinNodes.schema config 3 true) := by
    intro id h
    rw [hlost] at h
    cases h
  have same := (TypeTable.schema_renumber (renumbers 1) true).2 ends
  have same' := (TypeTable.schema_renumber (renumbers 3) true).2 lost
  rw [hnode] at same
  rw [hlost] at same'
  exact ⟨⟨renumbers 1, ends, hnode, same⟩, renumbers 3, lost, hlost, same'⟩

end SchemaSynth
