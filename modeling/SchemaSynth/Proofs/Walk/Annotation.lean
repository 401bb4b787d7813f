import SchemaSynth.Proofs.Fragment.Erasure
import SchemaSynth.Proofs.Walk.InStep

/-!
# Walks without annotations

Take a walk and one beside it that asks for no annotations. Step by step it makes the same visits;
and if a change of schemas drops the extras and turns the objects of the first walk into those of
the second (`Recast`), it turns all its schemas into theirs (`Recast.schema_eq`). Where the second
walk differs in nothing else, that change is `Fragment.eraseExtras`: annotations only ever add
extras (`schema_eq_eraseExtras`).
-/

namespace SchemaSynth

def Config.annotated (config : Config) (annotations : Bool) : Config :=
  { config with mode := { config.mode with annotations } }

namespace Walk

/-- A place like the first, but without annotations. -/
structure Frame.Muted (config : Config) (frame frame' : Frame) : Prop where
  ancestors : frame'.ancestors = frame.ancestors
  depth : frame'.depth = frame.depth
  silent : annotates config frame' = false

section

variable {table : TypeTable} {config : Config} {on off : Bool} {frame frame' : Frame}
  {optional : Bool}

namespace Frame.Muted

theorem deeper (h : Frame.Muted config frame frame') :
    Frame.Muted config frame.deeper frame'.deeper :=
  ⟨h.ancestors, congrArg (· + 1) h.depth, h.silent⟩

theorem enter (h : Frame.Muted config frame frame') (name : String) :
    Frame.Muted config (frame.enter name) (frame'.enter name) :=
  ⟨congrArg (name :: ·) h.ancestors, h.depth, h.silent⟩

theorem annotations (h : Frame.Muted config frame frame') (tags : List DocTag) :
    Walk.annotations config frame' tags = [] := by
  simp [Walk.annotations, h.silent]

theorem annotateMember (h : Frame.Muted config frame frame') (tags : List DocTag) (f : Fragment) :
    Walk.annotateMember config frame' tags f = f := by
  simp [Walk.annotateMember, h.silent]

end Frame.Muted

/-! ## Schemas of the two walks -/

/-- A change of schemas that takes what a walk under the first settings makes of an object to what
one under the second makes of it without annotations, and leaves all else in place. -/
structure Recast (config config' : Config) (φ : Fragment → Fragment) : Prop where
  maxDepth : config'.maxDepth = config.maxDepth
  arrayItems : config'.mode.arrayItems = config.mode.arrayItems
  role : ∀ obj : ObjectType, obj.role config' = obj.role config
  empty : φ .empty = .empty
  leaf : ∀ kind optional,
    φ ((Fragment.leaf kind {}).optional optional) = (Fragment.leaf kind {}).optional optional
  items : ∀ optional f, φ (arrayOf optional f) = arrayOf optional (φ f)
  alternatives : ∀ optional fs, φ ((Fragment.alternatives fs).optional optional) =
    (Fragment.alternatives (fs.map φ)).optional optional
  annotateMember : ∀ frame tags f, φ (Walk.annotateMember config frame tags f) = φ f
  props : ∀ f, (φ f).props?.getD [] = Fields.mapValues φ (f.props?.getD [])
  objectExtras : ∀ f, (φ f).objectExtras?.getD [] = []
  assemble : ∀ {frame frame'} optional props extras, Frame.Muted config' frame frame' →
    φ (Walk.assemble config frame optional props extras) =
      Walk.assemble config' frame' optional (Fields.mapValues φ props) []
  styleLeaves : ∀ f, φ (Walk.styleLeaves config f) = Walk.styleLeaves config' (φ f)

namespace Recast

variable {config' : Config} {φ : Fragment → Fragment}

theorem gather (h : Recast config config' φ) (hF : Frame.Muted config' frame frame')
    (ms : List Member) (fs : List Fragment) (props : Props) :
    Walk.gather config' frame' ms (fs.map φ) (Fields.mapValues φ props) =
      Fields.mapValues φ (Walk.gather config frame ms fs props) :=
  gather_mapValues (fun tags f => by rw [hF.annotateMember, h.annotateMember]) ms fs props

theorem foldl_mergePart (h : Recast config config' φ) (fs : List Fragment) (props : Props)
    (extras : Extras) :
    (fs.map φ).foldl mergePart (Fields.mapValues φ props, []) =
      (Fields.mapValues φ (fs.foldl mergePart (props, extras)).1, []) := by
  induction fs generalizing props extras with
  | nil => rfl
  | cons f fs ih =>
    simp only [List.map_cons, List.foldl_cons]
    rw [← ih]
    unfold mergePart
    simp only [h.props, h.objectExtras, Fields.mergeNew_mapValues]
    rfl

theorem inStep (h : Recast config config' φ) (table : TypeTable) :
    InStep table config config' (fun _ => True) (Frame.Muted config') (fun f g => g = φ f) where
  closed _ _ _ _ := trivial
  maxDepth := h.maxDepth
  arrayItems := h.arrayItems
  role := h.role
  depth hF := hF.depth
  deeper hF := hF.deeper
  known hF _ _ := by rw [hF.ancestors]
  enter name hF := hF.enter name
  empty := h.empty.symm
  leaf kind optional := (h.leaf kind optional).symm
  items optional _ hf := by rw [hf, h.items]
  alternatives optional hfs := by rw [forall₂_eq_map.1 hfs, h.alternatives]
  members optional _ hF fs gs hfs := by
    obtain rfl := forall₂_eq_map.1 hfs
    simp only [membersPlan]
    rw [h.assemble _ _ _ hF, ← h.gather hF, hF.annotations]
    rfl
  intersection optional _ hF fs gs hfs := by
    obtain rfl := forall₂_eq_map.1 hfs
    simp only [intersectionPlan]
    rw [h.assemble _ _ _ hF, hF.annotations]
    -- The parts leave no extras, so all that the second walk has are its own, and it has none.
    have hparts : (fs.map φ).foldl mergePart ([], []) = _ := h.foldl_mergePart fs [] []
    rw [hparts]
    rfl

/-- The second walk makes the schemas of the first, changed. -/
theorem schema_eq (h : Recast config config' φ) (table : TypeTable) (root : TypeId)
    (additional : Bool) {additional' : Bool}
    (silent : (config'.mode.annotations && additional') = false) :
    table.schema config' root additional' = φ <$> table.schema config root additional := by
  let v := Visit.root root additional
  let w := Visit.root root additional'
  have beside : v.Beside (Frame.Muted config') w := ⟨rfl, rfl, rfl, rfl, silent⟩
  have hw : w.walk table config' (budget table config) =
      φ <$> v.walk table config (budget table config) :=
    ((h.inStep table).walk_agree _ beside trivial).eq_map
  have hbudget : budget table config' = budget table config := by unfold budget; rw [h.maxDepth]
  rw [Walk.schema_eq, Walk.schema_eq, hbudget, hw, ← comp_map, ← comp_map]
  exact congrArg (· <$> _) (funext fun f => (h.styleLeaves f).symm)

end Recast

/-! ## Without extras -/

theorem eraseExtras_annotateMember (tags : List DocTag) (f : Fragment) :
    (annotateMember config frame tags f).eraseExtras = f.eraseExtras := by
  unfold annotateMember
  split
  · exact Fragment.eraseExtras_withExtras ..
  · rfl

theorem assemble_muted (h : Frame.Muted (config.annotated off) frame frame') (props : Props)
    (extras : Extras) :
    assemble (config.annotated off) frame' optional
        (Fields.mapValues Fragment.eraseExtras props) [] =
      (assemble (config.annotated on) frame optional props extras).eraseExtras := by
  have hflat : writesFlat (config.annotated off) frame' =
      writesFlat (config.annotated on) frame := by
    unfold writesFlat; rw [h.depth]; rfl
  unfold assemble
  rw [hflat, Fields.mapValues_isEmpty]
  cases props with
  | nil => rfl
  | cons entry rest =>
    simp only [List.isEmpty_cons, Bool.false_eq_true, ↓reduceIte]
    split
    · simp [Fragment.eraseExtras, Fragment.eraseProps_eq]
    · rw [Fragment.eraseExtras_withExtras, Fragment.eraseExtras_optional]
      simp [Fragment.eraseExtras, Fragment.eraseProps_eq, Fragment.withExtras]

theorem eraseExtras_styleLeaves (f : Fragment) :
    (styleLeaves config f).eraseExtras = styleLeaves config f.eraseExtras := by
  unfold styleLeaves
  cases config.mode.leaves
  · rfl
  · exact Fragment.eraseExtras_toBare f

/-- Walks that differ in annotations alone differ in extras alone. -/
theorem recast_eraseExtras (config : Config) (on off : Bool) :
    Recast (config.annotated on) (config.annotated off) Fragment.eraseExtras where
  maxDepth := rfl
  arrayItems := rfl
  role _ := rfl
  empty := rfl
  leaf kind optional := Fragment.eraseExtras_optional (.leaf kind {}) optional
  items optional f := Fragment.eraseExtras_optional (.arrayOf f {}) optional
  alternatives optional fs := by
    rw [Fragment.eraseExtras_optional, Fragment.eraseExtras, Fragment.eraseEntries_eq]
  annotateMember _ tags f := eraseExtras_annotateMember tags f
  props := Fragment.props?_eraseExtras
  objectExtras := Fragment.objectExtras?_eraseExtras
  assemble _ props extras h := (assemble_muted h props extras).symm
  styleLeaves := eraseExtras_styleLeaves

theorem schema_muted {root : TypeId} {additional additional' : Bool}
    (h : (off && additional') = false) :
    table.schema (config.annotated off) root additional' =
      Fragment.eraseExtras <$> table.schema (config.annotated on) root additional :=
  (recast_eraseExtras config on off).schema_eq table root additional h

end

end Walk

open Walk

/-- Without annotations, by the mode or by the call or by both, a type has the schema that it has
with them but for the extras, or the same error. -/
theorem TypeTable.schema_eq_eraseExtras (table : TypeTable) (config : Config) (root : TypeId) :
    let annotated := table.schema (config.annotated true) root true
    table.schema (config.annotated false) root true = Fragment.eraseExtras <$> annotated ∧
      table.schema (config.annotated true) root false = Fragment.eraseExtras <$> annotated ∧
      table.schema (config.annotated false) root false = Fragment.eraseExtras <$> annotated :=
  ⟨schema_muted rfl, schema_muted rfl, schema_muted rfl⟩

end SchemaSynth
