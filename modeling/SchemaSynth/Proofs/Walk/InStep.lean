import SchemaSynth.Proofs.Fields
import SchemaSynth.Proofs.Walk.Lockstep

/-!
# Two walks of one table

Two walks of the same table that stand at the same type make the same visits, whatever their frames
and their settings do to the schemas of objects: leaves, arrays, unions and enums are built alike.
`Parallel` says what is left to check of frames, settings and objects. Where the walks also stand
equally deep they are `InStep`, and `InStep.walk_agree` draws the conclusion for whole walks. All
that the schema of an object takes from its frame is whether it is annotated and whether it is flat,
which is what `WritesAlike` compares.
-/

namespace SchemaSynth.Walk

/-- A visit beside another one: of the same type, for the same slot, in a related frame. -/
structure Visit.Beside (F : Frame → Frame → Prop) (v w : Visit) : Prop where
  id : w.id = v.id
  optional : w.optional = v.optional
  frame : F v.frame w.frame

/-! ## How objects are written -/

/-- If a change of schemas takes members as one walk annotates them to members as the other does, it
takes the properties of an object to those of the other. -/
theorem gather_mapValues {φ : Fragment → Fragment} {config config' : Config} {frame frame' : Frame}
    (h : ∀ tags f,
      annotateMember config' frame' tags (φ f) = φ (annotateMember config frame tags f))
    (ms : List Member) (fs : List Fragment) (props : Props) :
    gather config' frame' ms (fs.map φ) (Fields.mapValues φ props) =
      Fields.mapValues φ (gather config frame ms fs props) := by
  induction ms generalizing fs props with
  | nil => cases fs <;> rfl
  | cons m ms ih =>
    cases fs with
    | nil => rfl
    | cons f fs =>
      simp only [List.map_cons, gather]
      rw [h, Fields.insert_mapValues, ih]

/-- Objects are annotated and written flat in one frame as in the other. -/
structure WritesAlike (config config' : Config) (frame frame' : Frame) : Prop where
  annotates : annotates config' frame' = annotates config frame
  flat : writesFlat config' frame' = writesFlat config frame

namespace WritesAlike

variable {config config' : Config} {frame frame' : Frame}

theorem annotations (h : WritesAlike config config' frame frame') (tags : List DocTag) :
    Walk.annotations config' frame' tags = Walk.annotations config frame tags := by
  unfold Walk.annotations
  rw [h.annotates]

theorem assemble (h : WritesAlike config config' frame frame') (optional : Bool) (props : Props)
    (extras : Extras) :
    Walk.assemble config' frame' optional props extras =
      Walk.assemble config frame optional props extras := by
  unfold Walk.assemble
  rw [h.flat]

theorem gather (h : WritesAlike config config' frame frame') (ms : List Member)
    (fs : List Fragment) (props : Props) :
    Walk.gather config' frame' ms fs props = Walk.gather config frame ms fs props := by
  induction ms generalizing fs props with
  | nil => rfl
  | cons m ms ih =>
    cases fs with
    | nil => rfl
    | cons f fs =>
      unfold Walk.gather annotateMember
      rw [h.annotates, ih]

theorem members (h : WritesAlike config config' frame frame') (obj : ObjectType) (optional : Bool)
    (fs : List Fragment) :
    (membersPlan config' obj frame' optional).finish fs =
      (membersPlan config obj frame optional).finish fs := by
  simp only [membersPlan, h.gather, h.assemble, h.annotations]

theorem intersection (h : WritesAlike config config' frame frame') (types : List TypeId)
    (tags : List DocTag) (optional : Bool) (fs : List Fragment) :
    (intersectionPlan config' types tags frame' optional).finish fs =
      (intersectionPlan config types tags frame optional).finish fs := by
  simp only [intersectionPlan, h.assemble, h.annotations]

end WritesAlike

/-! ## Side by side -/

/-- Two settings and a relation of frames under which walks stay side by side among the types of
`P`, as far as their depth limits let them, and a relation of schemas that their objects keep. -/
structure Parallel (table : TypeTable) (config config' : Config) (P : TypeId → Prop)
    (F : Frame → Frame → Prop) (R : Fragment → Fragment → Prop) : Prop where
  closed : ∀ a b, P a → b ∈ table.references config a → P b
  arrayItems : config'.mode.arrayItems = config.mode.arrayItems
  role : ∀ obj : ObjectType, obj.role config' = obj.role config
  deeper : ∀ {frame frame'}, F frame frame' → F frame.deeper frame'.deeper
  /-- The frames know the same of the names there are among the types. -/
  known : ∀ {frame frame' id name}, F frame frame' → P id → table.identity? config id = some name →
    (name ∈ frame'.ancestors ↔ name ∈ frame.ancestors)
  enter : ∀ {frame frame'} (name : String), F frame frame' →
    F (frame.enter name) (frame'.enter name)
  empty : R .empty .empty
  leaf : ∀ kind optional,
    R ((Fragment.leaf kind {}).optional optional) ((Fragment.leaf kind {}).optional optional)
  items : ∀ {f g} optional, config.mode.arrayItems ≠ .opaqueItems → R f g →
    R (arrayOf optional f) (arrayOf optional g)
  alternatives : ∀ {fs gs} optional, List.Forall₂ R fs gs →
    R ((Fragment.alternatives fs).optional optional) ((Fragment.alternatives gs).optional optional)
  members : ∀ {frame frame' id obj} optional, table.shape? id = some (.object obj) →
    F frame frame' → ∀ fs gs, List.Forall₂ R fs gs →
    R ((membersPlan config obj frame optional).finish fs)
      ((membersPlan config' obj frame' optional).finish gs)
  intersection : ∀ {frame frame' id types tags} optional,
    table.shape? id = some (.intersection types tags) →
    F frame frame' → ∀ fs gs, List.Forall₂ R fs gs →
    R ((intersectionPlan config types tags frame optional).finish fs)
      ((intersectionPlan config' types tags frame' optional).finish gs)

/-- Walks side by side that stand equally deep under one depth limit. -/
structure InStep (table : TypeTable) (config config' : Config) (P : TypeId → Prop)
    (F : Frame → Frame → Prop) (R : Fragment → Fragment → Prop) : Prop
    extends Parallel table config config' P F R where
  maxDepth : config'.maxDepth = config.maxDepth
  depth : ∀ {frame frame'}, F frame frame' → frame'.depth = frame.depth

section

variable {table : TypeTable} {config config' : Config} {P : TypeId → Prop}
  {F : Frame → Frame → Prop} {R : Fragment → Fragment → Prop} {frame frame' : Frame}
  {optional : Bool}

namespace Parallel

theorem visits {α : Type} {visit visit' : α → Visit} (xs : List α)
    (h : ∀ x, Visit.Beside F (visit x) (visit' x)) :
    List.Forall₂ (Visit.Beside F) (xs.map visit) (xs.map visit') :=
  List.forall₂_map_left_iff.2 (List.forall₂_map_right_iff.2 (List.forall₂_same.2 fun x _ => h x))

theorem entries (h : Parallel table config config' P F R) (kept : List (TypeId × TypeShape))
    {fs gs : List Fragment} (hfs : List.Forall₂ R fs gs) :
    List.Forall₂ R (Walk.entries kept fs) (Walk.entries kept gs) := by
  induction kept generalizing fs gs with
  | nil => exact .nil
  | cons branch rest ih =>
    unfold Walk.entries
    split
    · exact .cons (h.leaf _ false) (ih hfs)
    · cases hfs with
      | nil => exact .cons h.empty (ih .nil)
      | cons hf hfs => exact .cons hf (ih hfs)

/-! ## Plans -/

theorem mergePlan (h : Parallel table config config' P F R) (hF : F frame frame')
    (kept : List (TypeId × TypeShape)) :
    Plan.Agree (Visit.Beside F) R (Walk.mergePlan frame optional kept)
      (Walk.mergePlan frame' optional kept) := by
  unfold Walk.mergePlan
  split
  · exact .done (h.leaf .forbidden false)
  · split
    · exact .done (h.leaf _ _)
    · exact .single ⟨rfl, rfl, hF⟩ h.empty
  · split
    · exact .done (h.leaf _ _)
    · exact ⟨visits _ fun _ => ⟨rfl, rfl, h.deeper hF⟩,
        fun fs gs hfs => h.alternatives _ (h.entries _ hfs)⟩

theorem unionPlan (h : Parallel table config config' P F R) (hF : F frame frame')
    (types : List TypeId) :
    Agree (fun _ => False) (Plan.Agree (Visit.Beside F) R)
      (Walk.unionPlan table types frame optional) (Walk.unionPlan table types frame' optional) := by
  unfold Walk.unionPlan
  cases constituents table types with
  | error e => exact .error e
  | ok shapes => exact .ok (h.mergePlan hF _)

theorem arrayPlan (h : Parallel table config config' P F R) (hF : F frame frame')
    (args : List TypeId) :
    Agree (fun _ => False) (Plan.Agree (Visit.Beside F) R)
      (Walk.arrayPlan table config args frame optional)
      (Walk.arrayPlan table config' args frame' optional) := by
  unfold Walk.arrayPlan
  rw [h.arrayItems]
  split
  · exact .ok (.done (h.leaf _ _))
  · next tracked =>
    split
    · exact .ok (.done (h.leaf _ _))
    · exact .ok (.map (.single ⟨rfl, rfl, h.deeper hF⟩ h.empty) fun _ _ => h.items _ tracked)
    · exact (h.unionPlan (h.deeper hF) args).map fun _ _ hpq =>
        hpq.map fun _ _ => h.items _ tracked

theorem membersPlan (h : Parallel table config config' P F R) (hF : F frame frame') {id : TypeId}
    {obj : ObjectType} (hs : table.shape? id = some (.object obj)) :
    Plan.Agree (Visit.Beside F) R (Walk.membersPlan config obj frame optional)
      (Walk.membersPlan config' obj frame' optional) where
  visits := visits _ fun _ => ⟨rfl, rfl, h.deeper hF⟩
  finish := h.members optional hs hF

theorem objectPlan (h : Parallel table config config' P F R) {v w : Visit}
    (hvw : v.Beside F w) (hP : P v.id) {obj : ObjectType}
    (hs : table.shape? v.id = some (.object obj)) :
    Agree (fun _ => False) (Plan.Agree (Visit.Beside F) R)
      (Walk.objectPlan table config obj v.frame v.optional)
      (Walk.objectPlan table config' obj w.frame v.optional) := by
  have hname := table.identity?_eq config hs
  unfold Walk.objectPlan
  rw [h.role]
  cases hr : obj.role config with
  | predefined type => exact .ok (.done (h.leaf _ _))
  | array args => exact h.arrayPlan hvw.frame args
  | dictionary => exact .ok (.done (h.leaf _ _))
  | interface name =>
    cases name with
    | none => exact .ok (h.membersPlan hvw.frame hs)
    | some name =>
      have hname : table.identity? config v.id = some name := by
        simpa [TypeShape.identity?, hr] using hname
      simp only [List.contains_iff_mem, h.known hvw.frame hP hname]
      split
      · exact .ok (.done (h.leaf _ _))
      · exact .ok (h.membersPlan (h.enter name hvw.frame) hs)

theorem shapePlan (h : Parallel table config config' P F R) {v w : Visit}
    (hvw : v.Beside F w) (hP : P v.id) {s : TypeShape} (hs : table.shape? v.id = some s) :
    Agree (fun _ => False) (Plan.Agree (Visit.Beside F) R)
      (Walk.shapePlan table config v s) (Walk.shapePlan table config' w s) := by
  unfold Walk.shapePlan
  rw [hvw.id, hvw.optional]
  cases s with
  | primitive p => exact .ok (.done (h.leaf _ _))
  | literal value => exact .ok (.done (h.leaf _ _))
  | forbidden f => exact .ok (.done (h.leaf .forbidden false))
  | object obj => exact h.objectPlan hvw hP hs
  | union types => exact h.unionPlan hvw.frame types
  | intersection types tags =>
    exact .ok ⟨visits _ fun _ => ⟨rfl, rfl, h.deeper hvw.frame⟩, h.intersection _ hs hvw.frame⟩
  | enum types =>
    show Agree _ _ (Plan.done <$> enumeration table types v.optional)
      (Plan.done <$> enumeration table types v.optional)
    unfold enumeration
    cases types.mapM (enumValue table) with
    | error e => exact .error e
    | ok values => exact .ok (.done (h.leaf _ _))
  | unsupported flags => exact .error _

end Parallel

namespace InStep

theorem plan (h : InStep table config config' P F R) {v w : Visit} (hvw : v.Beside F w)
    (hP : P v.id) :
    Agree (fun _ => False) (Plan.Agree (Visit.Beside F) R) (Walk.plan table config v)
      (Walk.plan table config' w) := by
  unfold Walk.plan
  rw [hvw.id, h.depth hvw.frame, h.maxDepth]
  cases hs : shape table v.id with
  | error e => exact .error e
  | ok s =>
    show Agree _ _ (if v.frame.depth > config.maxDepth then _ else _)
      (if v.frame.depth > config.maxDepth then _ else _)
    split
    · exact .error _
    · exact h.shapePlan hvw hP (shape_eq_ok.1 hs)

/-! ## Walks -/

/-- The walks make related schemas, or fail with the same error. -/
theorem walk_agree (h : InStep table config config' P F R) (steps : Nat) {v w : Visit}
    (hvw : v.Beside F w) (hP : P v.id) :
    Agree (fun _ => False) R (v.walk table config steps) (w.walk table config' steps) := by
  refine Walk.walk_agree (C := fun v w => P v.id ∧ v.Beside F w) 0
    (fun v w hvw => hvw.2.id ▸ .error _) (fun v w ⟨hP, hvw⟩ => ?_) steps ⟨hP, hvw⟩
  refine (h.plan hvw hP).imp_of_ok fun p hp q hpq => ⟨?_, hpq.finish⟩
  have hbelow : ∀ u ∈ p.visits, P u.id := fun u hu =>
    h.closed _ _ hP (below_of_mem_visits hp hu).mem
  exact (List.forall₂_and_left _ _).2 ⟨hbelow, hpq.visits⟩

end InStep

end

end SchemaSynth.Walk
