import SchemaSynth.Proofs.Fragment.Parts
import SchemaSynth.Proofs.Walk.Plan

/-!
# Optional slots

A walk is told whether the slot of its type is optional, and hands that on to the one branch of a
union, to the object it writes, to the entries of a list. All the same the mark might as well be put
on the finished schema (`walk_optional`): a plan for an optional slot is that for a required one,
with its result marked, unless all it does is to go on at another type (`Plan.Marked`).
-/

namespace SchemaSynth.Walk

def Visit.mark (v : Visit) : Visit := { v with optional := true }

/-- The second plan does what the first one does and marks what comes of it, or both go on at one
type, the second with the mark. -/
inductive Plan.Marked : Plan → Plan → Prop where
  | finished (p : Plan) : Marked p (p.map Fragment.markOptional)
  | onward (v : Visit) : Marked (.single v) (.single v.mark)

section

variable {table : TypeTable} {config : Config}

/-! ## Plans -/

theorem assemble_true (frame : Frame) (props : Props) (extras : Extras) :
    assemble config frame true props extras =
      (assemble config frame false props extras).markOptional := by
  unfold assemble
  split
  · rfl
  split
  · rfl
  · exact (Fragment.optional_withExtras (.object props {}) extras true).symm

theorem membersPlan_true (obj : ObjectType) (frame : Frame) :
    membersPlan config obj frame true =
      (membersPlan config obj frame false).map Fragment.markOptional := by
  simp only [membersPlan, Plan.map, assemble_true]

theorem intersectionPlan_true (types : List TypeId) (tags : List DocTag) (frame : Frame) :
    intersectionPlan config types tags frame true =
      (intersectionPlan config types tags frame false).map Fragment.markOptional := by
  simp only [intersectionPlan, Plan.map, assemble_true]

/-- What `undefined` has marked is not marked again. -/
theorem mergePlan_marked (frame : Frame) (own : Bool) (kept : List (TypeId × TypeShape)) :
    Plan.Marked (mergePlan frame own kept) (mergePlan frame true kept) := by
  have again (f : Fragment) : f.optional true = (f.optional own).markOptional := by
    rw [← Bool.or_true own, ← Fragment.optional_optional]
    rfl
  unfold mergePlan
  split
  · exact .finished (.done .forbidden)
  · split
    · rw [again]
      exact .finished (.done _)
    · exact .onward ⟨_, frame, own⟩
  · split
    · rw [again]
      exact .finished (.done _)
    · simp only [again]
      exact .finished ⟨_, _⟩

theorem unionPlan_marked (types : List TypeId) (frame : Frame) :
    Agree (fun _ => False) Plan.Marked (unionPlan table types frame false)
      (unionPlan table types frame true) := by
  unfold unionPlan
  cases constituents table types with
  | error e => exact .error e
  | ok shapes => exact .ok (mergePlan_marked frame _ _)

theorem arrayPlan_marked (args : List TypeId) (frame : Frame) :
    Agree (fun _ => False) Plan.Marked (arrayPlan table config args frame false)
      (arrayPlan table config args frame true) := by
  unfold arrayPlan
  split
  · exact .ok (.finished (.done _))
  split
  · exact .ok (.finished (.done _))
  · exact .ok (.finished (.map (arrayOf false) (.single _)))
  -- The mark is the array's: the union of the arguments is that of a required slot in any case.
  · cases unionPlan table args frame.deeper false with
    | error e => exact .error e
    | ok p => exact .ok (.finished (p.map (arrayOf false)))

theorem objectPlan_marked (obj : ObjectType) (frame : Frame) :
    Agree (fun _ => False) Plan.Marked (objectPlan table config obj frame false)
      (objectPlan table config obj frame true) := by
  have members (frame : Frame) : Plan.Marked (membersPlan config obj frame false)
      (membersPlan config obj frame true) := by
    rw [membersPlan_true]
    exact .finished _
  unfold objectPlan
  split
  · exact .ok (.finished (.done _))
  · exact arrayPlan_marked _ frame
  · exact .ok (.finished (.done _))
  · exact .ok (members frame)
  · split
    · exact .ok (.finished (.done _))
    · exact .ok (members _)

theorem shapePlan_marked (id : TypeId) (frame : Frame) (shape : TypeShape) :
    Agree (fun _ => False) Plan.Marked (shapePlan table config ⟨id, frame, false⟩ shape)
      (shapePlan table config ⟨id, frame, true⟩ shape) := by
  cases shape with
  | primitive type => exact .ok (.finished (.done _))
  | literal value => exact .ok (.finished (.done _))
  | forbidden type => exact .ok (.finished (.done .forbidden))
  | object obj => exact objectPlan_marked obj frame
  | union types => exact unionPlan_marked types frame
  | intersection types tags =>
    refine .ok ?_
    rw [intersectionPlan_true]
    exact .finished _
  | enum types =>
    show Agree _ _ (Plan.done <$> enumeration table types false)
      (Plan.done <$> enumeration table types true)
    unfold enumeration
    cases types.mapM (enumValue table) with
    | error e => exact .error e
    | ok values => exact .ok (.finished (.done _))
  | unsupported flags => exact .error _

theorem plan_marked (id : TypeId) (frame : Frame) :
    Agree (fun _ => False) Plan.Marked (plan table config ⟨id, frame, false⟩)
      (plan table config ⟨id, frame, true⟩) := by
  unfold plan
  cases shape table id with
  | error e => exact .error e
  | ok s =>
    show Agree _ _ (if frame.depth > config.maxDepth then _ else _)
      (if frame.depth > config.maxDepth then _ else _)
    split
    · exact .error _
    · exact shapePlan_marked id frame s

/-! ## Walks -/

theorem walk_true (steps : Nat) (id : TypeId) (frame : Frame) :
    walk table config steps id frame true =
      Fragment.markOptional <$> walk table config steps id frame false := by
  induction steps generalizing id frame with
  | zero => rfl
  | succ n ih =>
    show Visit.walk table config (n + 1) ⟨id, frame, true⟩ =
      _ <$> Visit.walk table config (n + 1) ⟨id, frame, false⟩
    rw [Visit.walk_succ, Visit.walk_succ]
    have marked : Agree (fun _ => False) Plan.Marked (plan table config ⟨id, frame, false⟩)
        (plan table config ⟨id, frame, true⟩) := plan_marked id frame
    generalize plan table config ⟨id, frame, false⟩ = required at marked ⊢
    generalize plan table config ⟨id, frame, true⟩ = optional at marked ⊢
    cases marked with
    | skip h => exact h.elim
    | error e => rfl
    | ok h =>
      cases h with
      | finished => exact Plan.run_map _ _ _
      | onward v =>
        obtain ⟨id, frame, own⟩ := v
        show (Plan.single _).run _ = _ <$> (Plan.single _).run _
        rw [Plan.run_single, Plan.run_single]
        cases own with
        | false => exact ih id frame
        | true =>
          show walk table config n id frame true = _ <$> walk table config n id frame true
          rw [ih, ← comp_map]
          exact congrArg (· <$> _) (funext fun f => f.markOptional_markOptional.symm)

end

/-- The schema of a type in an optional slot is its schema in a required one, marked. Where there is an
error, it is the same. -/
theorem walk_optional (table : TypeTable) (config : Config) (steps : Nat) (id : TypeId)
    (frame : Frame) (optional : Bool) :
    walk table config steps id frame optional =
      (fun f => f.optional optional) <$> walk table config steps id frame false := by
  cases optional with
  | false => exact (id_map _).symm
  | true => exact walk_true steps id frame

end SchemaSynth.Walk
