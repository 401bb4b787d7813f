import SchemaSynth.Proofs.Walk.Result

/-!
# What a step leaves to do

A step looks its type up and then either fails at once or knows everything it needs: the visits to
make, in order, and what to make of their schemas. `plan` finds that out without walking anything,
and `step_eq_run` says that a step is its plan, carried out. What holds along a walk then follows
from facts about plans, which are not recursive.
-/

namespace SchemaSynth

/-- What an object type is to the walk. -/
inductive ObjectRole where
  /-- It stands for a schema type of its own. -/
  | predefined (type : String)
  | array (args : List TypeId)
  | dictionary
  /-- Its members are walked; the name identifies it, if it has one. -/
  | interface (name : Option String)
deriving DecidableEq, Repr

/-- The role of an object type: of several that apply, the first. -/
def ObjectType.role (obj : ObjectType) (config : Config) : ObjectRole :=
  match obj.predefined? config with
  | some type => .predefined type
  | none =>
    match obj.array with
    | some args => .array args
    | none => if obj.index.isSome then .dictionary else .interface (obj.identity? config)

namespace Walk

/-- A type to walk, where it stands, and whether its slot is optional. -/
structure Visit where
  id : TypeId
  frame : Frame
  optional : Bool
deriving DecidableEq, Repr

/-- The visits of a step in order, and what it makes of their schemas. -/
structure Plan where
  visits : List Visit
  finish : List Fragment → Fragment

def Visit.walk (table : TypeTable) (config : Config) (budget : Nat) (v : Visit) :
    Except WalkError Fragment :=
  Walk.walk table config budget v.id v.frame v.optional

namespace Plan

/-- Nothing is left to do. -/
def done (f : Fragment) : Plan := ⟨[], fun _ => f⟩

def single (v : Visit) : Plan := ⟨[v], fun fs => fs.headD .empty⟩

/-- A plan whose schema goes into another one. -/
def map (g : Fragment → Fragment) (p : Plan) : Plan := ⟨p.visits, fun fs => g (p.finish fs)⟩

def run (walk : TypeId → Frame → Bool → Except WalkError Fragment) (p : Plan) :
    Except WalkError Fragment :=
  p.finish <$> p.visits.mapM fun v => walk v.id v.frame v.optional

variable (walk : TypeId → Frame → Bool → Except WalkError Fragment)

@[simp] theorem run_done (f : Fragment) : (done f).run walk = pure f := rfl

@[simp] theorem run_single (v : Visit) : (single v).run walk = walk v.id v.frame v.optional := by
  simp [run, single]

@[simp] theorem run_map (g : Fragment → Fragment) (p : Plan) :
    (p.map g).run walk = g <$> p.run walk := by
  simp [run, map]

variable {walk} {p : Plan}

theorem visit_of_run_error {e : WalkError} (h : p.run walk = .error e) :
    ∃ v ∈ p.visits, walk v.id v.frame v.optional = .error e :=
  exists_of_mapM_error (map_eq_error.1 h)

theorem run_eq_error {e : WalkError} : p.run walk = .error e ↔
    ∃ before v after, p.visits = before ++ v :: after ∧
      (∀ u ∈ before, ∃ f, walk u.id u.frame u.optional = .ok f) ∧
      walk v.id v.frame v.optional = .error e :=
  map_eq_error.trans mapM_eq_error

theorem visit_of_run_ok {f : Fragment} (h : p.run walk = .ok f) {v : Visit} (hv : v ∈ p.visits) :
    ∃ g, walk v.id v.frame v.optional = .ok g := by
  obtain ⟨fs, hfs, -⟩ := map_eq_ok.1 h
  obtain ⟨g, -, hg⟩ := ok_of_mapM_ok hfs hv
  exact ⟨g, hg⟩

theorem run_congr {walk' : TypeId → Frame → Bool → Except WalkError Fragment}
    (h : ∀ v ∈ p.visits, walk v.id v.frame v.optional = walk' v.id v.frame v.optional) :
    p.run walk = p.run walk' :=
  congrArg (p.finish <$> ·) (mapM_congr h)

end Plan

section

variable (table : TypeTable) (config : Config)

/-! ## Objects -/

/-- The members that are walked. -/
def walked (members : List Member) : List Member := members.filter fun m => m.origin ≠ .undeclared

def memberVisit (frame : Frame) (m : Member) : Visit := ⟨m.type, frame.deeper, m.optional⟩

/-- Put the schemas of members under their names. -/
def gather (frame : Frame) : List Member → List Fragment → Props → Props
  | m :: ms, f :: fs, props =>
    gather frame ms fs (Fields.insert props m.name (annotateMember config frame m.tags f))
  | _, _, props => props

def membersPlan (obj : ObjectType) (frame : Frame) (optional : Bool) : Plan where
  visits := (walked obj.members).map (memberVisit frame)
  finish fs := assemble config frame optional (gather config frame (walked obj.members) fs [])
    (annotations config frame obj.tags)

def partVisit (frame : Frame) (id : TypeId) : Visit := ⟨id, frame.deeper, false⟩

/-- Add the properties and the extras of a part. -/
def mergePart (merged : Props × Extras) (f : Fragment) : Props × Extras :=
  (Fields.mergeNew merged.1 (f.props?.getD []), Fields.merge merged.2 (f.objectExtras?.getD []))

def intersectionPlan (types : List TypeId) (tags : List DocTag) (frame : Frame) (optional : Bool) :
    Plan where
  visits := types.map (partVisit frame)
  finish fs :=
    let merged := fs.foldl mergePart ([], [])
    assemble config frame optional merged.1
      (Fields.merge merged.2 (annotations config frame tags))

/-! ## Unions and arrays -/

def isBoolean : TypeShape → Bool
  | .literal (.boolean _) => true
  | _ => false

/-- The branches of a list that are walked. -/
def unsettled (kept : List (TypeId × TypeShape)) : List (TypeId × TypeShape) :=
  kept.filter fun branch => !isBoolean branch.2

def branchVisit (frame : Frame) (branch : TypeId × TypeShape) : Visit :=
  ⟨branch.1, frame.deeper, false⟩

/-- The entries of a list, in order: the schemas of the visits, and `boolean` where none is made. -/
def entries : List (TypeId × TypeShape) → List Fragment → List Fragment
  | [], _ => []
  | branch :: rest, fs =>
    if isBoolean branch.2 then .primitive "boolean" :: entries rest fs
    else fs.headD .empty :: entries rest fs.tail

def mergePlan (frame : Frame) (optional : Bool) (kept : List (TypeId × TypeShape)) : Plan :=
  match kept with
  | [] => .done .forbidden
  | [(id, shape)] =>
    if isBoolean shape then .done ((Fragment.primitive "boolean").optional optional)
    else .single ⟨id, frame, optional⟩
  | _ =>
    match kept.mapM fun branch => branch.2.literal? with
    | some values => .done ((Fragment.enumeration values).optional optional)
    | none =>
      ⟨(unsettled kept).map (branchVisit frame),
        fun fs => (Fragment.alternatives (entries kept fs)).optional optional⟩

def constituents (types : List TypeId) : Except WalkError (List (TypeId × TypeShape)) :=
  types.mapM fun id => do pure (id, ← shape table id)

def unionPlan (types : List TypeId) (frame : Frame) (optional : Bool) : Except WalkError Plan := do
  let shapes ← constituents table types
  let optional := optional || shapes.any fun branch => branch.2 == .forbidden .undefined
  pure (mergePlan frame optional (branches shapes false))

def arrayOf (optional : Bool) (items : Fragment) : Fragment :=
  (Fragment.array (some items)).optional optional

def arrayPlan (args : List TypeId) (frame : Frame) (optional : Bool) : Except WalkError Plan :=
  if config.mode.arrayItems = .opaqueItems then
    pure (.done ((Fragment.array none).optional optional))
  else
    match args with
    | [] => pure (.done ((Fragment.array none).optional optional))
    | [id] => pure ((Plan.single ⟨id, frame.deeper, false⟩).map (arrayOf optional))
    | _ => Plan.map (arrayOf optional) <$> unionPlan table args frame.deeper false

/-! ## All shapes -/

def objectPlan (obj : ObjectType) (frame : Frame) (optional : Bool) : Except WalkError Plan :=
  match obj.role config with
  | .predefined type => pure (.done ((Fragment.primitive type).optional optional))
  | .array args => arrayPlan table config args frame optional
  | .dictionary => pure (.done (Fragment.opaqueObject.optional optional))
  | .interface none => pure (membersPlan config obj frame optional)
  | .interface (some name) =>
    if frame.ancestors.contains name then
      pure (.done ((Fragment.primitive "any").optional optional))
    else pure (membersPlan config obj (frame.enter name) optional)

def shapePlan (v : Visit) : TypeShape → Except WalkError Plan
  | .primitive p => pure (.done ((Fragment.primitive p.name).optional v.optional))
  | .literal value => pure (.done ((Fragment.enumeration [value]).optional v.optional))
  | .forbidden _ => pure (.done .forbidden)
  | .object obj => objectPlan table config obj v.frame v.optional
  | .union types => unionPlan table types v.frame v.optional
  | .intersection types tags => pure (intersectionPlan config types tags v.frame v.optional)
  | .enum types => Plan.done <$> enumeration table types v.optional
  | .unsupported flags => throw (.unrecognized v.id flags)

/-- What a visit leaves to do. -/
def plan (v : Visit) : Except WalkError Plan := do
  let shape ← shape table v.id
  if v.frame.depth > config.maxDepth then throw (.depthLimit v.id config.maxDepth)
  else shapePlan table config v shape

end

/-! ## A step is its plan -/

section

variable (table : TypeTable) (config : Config)
  (walk : TypeId → Frame → Bool → Except WalkError Fragment)

theorem memberProps_eq (frame : Frame) (ms : List Member) (props : Props) :
    memberProps config walk frame ms props =
      (fun fs => gather config frame (walked ms) fs props) <$>
        ((walked ms).map (memberVisit frame)).mapM fun v => walk v.id v.frame v.optional := by
  induction ms generalizing props with
  | nil => rfl
  | cons m ms ih =>
    unfold memberProps
    by_cases h : m.origin = .undeclared
    · have hw : walked (m :: ms) = walked ms := by simp [walked, h]
      rw [if_pos h, ih, hw]
    · have hw : walked (m :: ms) = m :: walked ms := by simp [walked, h]
      simp [hw, h, ih, memberVisit, gather]

theorem members_eq (obj : ObjectType) (frame : Frame) (optional : Bool) :
    members config walk obj frame optional = (membersPlan config obj frame optional).run walk := by
  simp [members, memberProps_eq, Plan.run, membersPlan]

theorem parts_eq (frame : Frame) (types : List TypeId) (merged : Props × Extras) :
    parts walk frame types merged =
      (fun fs => fs.foldl mergePart merged) <$>
        (types.map (partVisit frame)).mapM fun v => walk v.id v.frame v.optional := by
  induction types generalizing merged with
  | nil => rfl
  | cons id rest ih =>
    obtain ⟨props, extras⟩ := merged
    simp [parts, ih, partVisit, mergePart]

theorem intersection_eq (types : List TypeId) (tags : List DocTag) (frame : Frame)
    (optional : Bool) :
    intersection config walk types tags frame optional =
      (intersectionPlan config types tags frame optional).run walk := by
  simp [intersection, parts_eq, Plan.run, intersectionPlan]

theorem mapM_alternative (frame : Frame) (kept : List (TypeId × TypeShape)) :
    kept.mapM (alternative walk frame) =
      entries kept <$>
        ((unsettled kept).map (branchVisit frame)).mapM fun v => walk v.id v.frame v.optional := by
  induction kept with
  | nil => rfl
  | cons branch rest ih =>
    obtain ⟨id, shape⟩ := branch
    by_cases h : isBoolean shape = true
    · have hs : unsettled ((id, shape) :: rest) = unsettled rest := by simp [unsettled, h]
      have ha : alternative walk frame (id, shape) = pure (.primitive "boolean") := by
        unfold isBoolean at h; split at h
        · rfl
        · cases h
      simp [hs, ha, ih, entries, h]
    · have hs : unsettled ((id, shape) :: rest) = (id, shape) :: unsettled rest := by
        simp [unsettled, h]
      have ha : alternative walk frame (id, shape) = walk id frame.deeper false := by
        unfold alternative; split
        · next b hb => subst hb; exact absurd rfl h
        · rfl
      simp [hs, ha, ih, entries, h, branchVisit]

theorem merge_eq (frame : Frame) (optional : Bool) (kept : List (TypeId × TypeShape)) :
    merge walk frame optional kept = (mergePlan frame optional kept).run walk := by
  match kept with
  | [] => rfl
  | [(id, shape)] =>
    have single : ∀ v : Visit, walk v.id v.frame v.optional = (Plan.single v).run walk :=
      fun v => (Plan.run_single walk v).symm
    cases shape with
    | literal value =>
      cases value with
      | boolean b => rfl
      | _ => exact single ⟨id, frame, optional⟩
    | _ => exact single ⟨id, frame, optional⟩
  | first :: second :: rest =>
    simp only [merge, mergePlan]
    cases (first :: second :: rest).mapM fun branch => branch.2.literal? with
    | some values => rfl
    | none => simp only [mapM_alternative, Plan.run]; simp

theorem union_eq (types : List TypeId) (frame : Frame) (optional : Bool) :
    union table walk types frame optional =
      unionPlan table types frame optional >>= fun p => p.run walk := by
  simp [union, unionPlan, constituents, merge_eq]

theorem array_eq (args : List TypeId) (frame : Frame) (optional : Bool) :
    array table config walk args frame optional =
      arrayPlan table config args frame optional >>= fun p => p.run walk := by
  unfold array arrayPlan
  by_cases h : config.mode.arrayItems = .opaqueItems
  · simp only [h, ↓reduceIte]; rfl
  · simp only [h, ↓reduceIte]
    rcases args with _ | ⟨id, _ | ⟨second, rest⟩⟩
    · rfl
    · simp; rfl
    · simp [union_eq]; rfl

theorem object_eq (obj : ObjectType) (frame : Frame) (optional : Bool) :
    object table config walk obj frame optional =
      objectPlan table config obj frame optional >>= fun p => p.run walk := by
  unfold object objectPlan ObjectType.role
  cases obj.predefined? config with
  | some type => rfl
  | none =>
    cases obj.array with
    | some args => exact array_eq ..
    | none =>
      cases obj.index.isSome with
      | true => rfl
      | false =>
        cases obj.identity? config with
        | none => exact members_eq ..
        | some name =>
          simp only [Bool.false_eq_true, ↓reduceIte]
          split
          · rfl
          · exact members_eq ..

/-- A step finds out what to do and does it. -/
theorem step_eq_run (v : Visit) :
    step table config walk v.id v.frame v.optional =
      plan table config v >>= fun p => p.run walk := by
  unfold step plan dispatch
  rw [bind_assoc]
  congr 1; funext shape
  by_cases h : v.frame.depth > config.maxDepth
  · simp only [h, ↓reduceIte]; rfl
  · simp only [h, ↓reduceIte]
    cases shape with
    | object obj => exact object_eq ..
    | union types => exact union_eq ..
    | intersection types tags => simp [shapePlan, intersection_eq]
    | enum types => simp [shapePlan, enumeration]
    | _ => rfl

end

theorem Visit.walk_succ (table : TypeTable) (config : Config) (budget : Nat) (v : Visit) :
    v.walk table config (budget + 1) =
      plan table config v >>= fun p => p.run (Walk.walk table config budget) :=
  step_eq_run table config (Walk.walk table config budget) v

/-! ## The whole walk -/

/-- The visit a walk starts with. -/
def Visit.root (id : TypeId) (additional : Bool) : Visit := ⟨id, { additional }, false⟩

/-- A schema with its leaves in the style of the mode. -/
def styleLeaves (config : Config) (f : Fragment) : Fragment :=
  match config.mode.leaves with
  | .typed => f
  | .bare => f.toBare

theorem schema_eq (table : TypeTable) (config : Config) (root : TypeId) (additional : Bool) :
    table.schema config root additional =
      styleLeaves config <$>
        (Visit.root root additional).walk table config (budget table config) := by
  unfold TypeTable.schema styleLeaves
  cases config.mode.leaves <;> simp [Visit.root, Visit.walk]

end Walk

end SchemaSynth
