import SchemaSynth.Proofs.Fragment.Legible
import SchemaSynth.Proofs.Walk.Kept

/-!
# Schemas that can be read back

Walks without annotations make legible fragments, if no predefined type has a name that schemas use
for something else. So with typed leaves the value of a schema tells all about it, and of two schemas
with one value, of whatever tables, it can be said that they are the same (`schema_eq_of_toJson_eq`).
-/

namespace SchemaSynth

open Fragment

theorem TypeShape.literal?_of_ofDescriptor {d : Descriptor} {value : LiteralValue}
    (h : ofDescriptor d = .literal value) : d.literal? = some value := by
  unfold ofDescriptor at h
  split at h
  · split at h
    · split at h
      · next hvalue =>
        cases h
        exact hvalue
      · cases h
    · cases h
  split at h
  · cases h
  repeat split at h; · cases h
  cases h

theorem Descriptor.canonical_of_literal? {d : Descriptor} {value : LiteralValue}
    (h : d.literal? = some value) : value.Canonical := by
  unfold literal? at h
  split at h
  · cases h
    trivial
  · cases h
    exact Binary64.unsigned_unsignedZero _
  · cases h
    trivial
  · cases h
  · split at h
    · cases h
      trivial
    split at h
    · cases h
      trivial
    · cases h

namespace Walk

variable {table : TypeTable} {config : Config} {frame : Frame}

theorem canonical_of_shape? {id : TypeId} {value : LiteralValue}
    (h : table.shape? id = some (.literal value)) : value.Canonical := by
  obtain ⟨d, -, hshape⟩ := Option.map_eq_some_iff.1 h
  exact Descriptor.canonical_of_literal? (TypeShape.literal?_of_ofDescriptor hshape)

theorem LeafOf.legible (hnames : ∀ type ∈ config.predefined.map Prod.snd, type ∉ Leaf.ownNames)
    {kind : Leaf} (h : LeafOf table config kind) : kind.Legible := by
  cases h with
  | primitive type => cases type <;> simp [Primitive.name, Leaf.Legible, Leaf.ownNames]
  | predefined htype => exact hnames _ htype
  | enum hvalues =>
    intro value hvalue
    obtain ⟨id, hs⟩ := hvalues value hvalue
    exact canonical_of_shape? hs
  | _ => trivial

theorem legible_optional {f : Fragment} (h : f.Everywhere Legible) (mark : Bool) :
    (f.optional mark).Everywhere Legible :=
  h.optional (p := Legible) (fun _ => Legible.markOptional) mark

theorem legible_assemble {props : Props} (hprops : ∀ entry ∈ props, entry.2.Everywhere Legible)
    (optional : Bool) : (assemble config frame optional props []).Everywhere Legible := by
  have inside : ∀ g ∈ props.map Prod.snd, g.Everywhere Legible := by
    intro g hg
    obtain ⟨entry, hentry, rfl⟩ := List.mem_map.1 hg
    exact hprops entry hentry
  unfold assemble
  split
  · exact .intro trivial (List.forall_mem_nil _)
  · next hne =>
    split
    · exact .intro ⟨by simpa using hne, rfl⟩ inside
    · have object : (Fragment.object props {}).Everywhere Legible := .intro rfl inside
      exact legible_optional object optional

theorem extras_foldl_mergePart {fs : List Fragment} (hfs : ∀ f ∈ fs, f.objectExtras?.getD [] = [])
    (merged : Props × Extras) : (fs.foldl mergePart merged).2 = merged.2 := by
  induction fs generalizing merged with
  | nil => rfl
  | cons f fs ih =>
    obtain ⟨hf, hfs⟩ := List.forall_mem_cons.1 hfs
    rw [List.foldl_cons, ih hfs, mergePart, hf]
    rfl

theorem objectExtras_of_legible {f : Fragment} (h : f.Legible) : f.objectExtras?.getD [] = [] := by
  cases f with
  | object props marks => exact h
  | flat props extras => exact h.2
  | _ => rfl

theorem annotates_of_plain (h : config.mode.annotations = false) (frame : Frame) :
    annotates config frame = false := by
  rw [annotates, h]
  rfl

theorem annotations_of_plain (h : config.mode.annotations = false) (frame : Frame)
    (tags : List DocTag) : Walk.annotations config frame tags = [] := by
  rw [Walk.annotations, annotates_of_plain h]
  rfl

/-- Without annotations a walk makes nothing that could not be read back. -/
theorem kept_legible (hplain : config.mode.annotations = false)
    (hnames : ∀ type ∈ config.predefined.map Prod.snd, type ∉ Leaf.ownNames) :
    Kept table config fun _ f => f.Everywhere Legible where
  empty _ := .intro trivial (List.forall_mem_nil _)
  leaf _ kind mark hkind := by
    have leaf : (Fragment.leaf kind {}).Everywhere Legible :=
      .intro ⟨hkind.legible hnames, rfl⟩ (List.forall_mem_nil _)
    exact legible_optional leaf mark
  items {_ f} mark _ hf := by
    have array : (Fragment.arrayOf f {}).Everywhere Legible :=
      .intro rfl (List.forall_mem_singleton.2 hf)
    exact legible_optional array mark
  alternatives {_ fs} mark _ hfs := by
    have list : (Fragment.alternatives fs).Everywhere Legible := .intro trivial hfs
    exact legible_optional list mark
  members {_ obj} frame mark _ fs hfs := by
    have props : ∀ entry ∈ gather config frame (walked obj.members) fs [],
        entry.2.Everywhere Legible := by
      refine forall_mem_gather (fun tags f hf => ?_) (List.forall_mem_nil _) hfs
      rwa [annotateMember, annotates_of_plain hplain]
    simp only [membersPlan, annotations_of_plain hplain]
    exact legible_assemble props mark
  intersection {_ types tags} frame mark _ fs hfs := by
    have props : ∀ entry ∈ (fs.foldl mergePart ([], [])).1, entry.2.Everywhere Legible :=
      forall_mem_foldl_mergePart
        (fun f hf entry hentry => hf.inside (mem_parts_of_mem_props hentry))
        (List.forall_mem_nil _) hfs
    have extras := extras_foldl_mergePart
      (fun f hf => objectExtras_of_legible (hfs f hf).here) ([], [])
    simp only [intersectionPlan, annotations_of_plain hplain, extras]
    exact legible_assemble props mark

end Walk

open Walk

/-- Schemas with typed leaves and without annotations can be read back, whatever table and root they
are of: the value shows whether it is that of a flat object, and schemas of one value are one
schema. -/
theorem TypeTable.schema_eq_of_toJson_eq {config : Config} (htyped : config.mode.leaves = .typed)
    (hplain : config.mode.annotations = false)
    (hnames : ∀ type ∈ config.predefined.map Prod.snd, type ∉ Leaf.ownNames)
    {table table' : TypeTable} {root root' : TypeId} {additional additional' : Bool}
    {f g : Fragment}
    (hf : table.schema config root additional = .ok f)
    (hg : table'.schema config root' additional' = .ok g) :
    (f.toJson = g.toJson → f = g) ∧ f.toJson.form = f.form ∧ g.toJson.form = g.form := by
  have legible {table : TypeTable} {root : TypeId} {additional : Bool} {f : Fragment}
      (h : table.schema config root additional = .ok f) : f.Everywhere Legible := by
    rw [schema_eq] at h
    obtain ⟨made, hmade, rfl⟩ := map_eq_ok.1 h
    rw [styleLeaves, htyped]
    exact (kept_legible hplain hnames).walk hmade
  have hf := legible hf
  have hg := legible hg
  exact ⟨eq_of_toJson hf hg, form_toJson hf, form_toJson hg⟩

/-- The literal `1.5`. -/
def oneAndAHalf : Descriptor where
  flags := [.number, .literal]
  value := some (.number (.double ⟨false, 6755399441055744, -52, by decide⟩))

/-- A setting with properties that have the names of what stands in schemas. -/
def settings : TypeTable where
  types := #[{ flags := [.string] }, oneAndAHalf,
    { flags := [.object], symbol := some "Setting",
      members := [{ name := "type", type := 0 }, { name := "optional", type := 1 }] }]

/-- The same setting by another name, with its types in another order. -/
def otherSettings : TypeTable where
  types := #[
    { flags := [.object], symbol := some "Option",
      members := [{ name := "type", type := 2 }, { name := "optional", type := 1 }] },
    oneAndAHalf, { flags := [.string] }]

/-- The value of the setting shows that it is a flat object, although there is a `type` in it. -/
theorem schema_eq_of_toJson_eq_settings :
    let config : Config := {
      predefined := [("IEmail", "email")]
      mode := { annotations := false } }
    config.mode.leaves = .typed ∧ config.mode.annotations = false ∧
      (∀ type ∈ config.predefined.map Prod.snd, type ∉ Leaf.ownNames) ∧
      ∃ f g, settings.schema config 2 true = .ok f ∧ otherSettings.schema config 0 false = .ok g ∧
        f.toJson = g.toJson ∧ f = g ∧ f.toJson.form = .flat := by
  intro config
  have hnames : ∀ type ∈ config.predefined.map Prod.snd, type ∉ Leaf.ownNames := by decide
  obtain ⟨f, hf⟩ : ∃ f, settings.schema config 2 true = .ok f := ⟨_, rfl⟩
  obtain ⟨g, hg⟩ : ∃ g, otherSettings.schema config 0 false = .ok g := ⟨_, rfl⟩
  have hjson : f.toJson = g.toJson := by
    cases hf
    cases hg
    rfl
  have law := TypeTable.schema_eq_of_toJson_eq rfl rfl hnames hf hg
  refine ⟨rfl, rfl, hnames, f, g, hf, hg, hjson, law.1 hjson, ?_⟩
  cases hf
  exact law.2.1

end SchemaSynth
