import SchemaSynth.Proofs.Fragment.Rendering
import SchemaSynth.Proofs.Walk.Kept
import SchemaSynth.Proofs.Walk.Members

/-!
# Where the names in a schema come from

Properties have the names of members, and extras come from tags: beside a `type` from those of the
member or of the type, among properties from those of types alone. A walk builds no schema that is
not `Sourced` in this way at every depth (`everywhere_sourced`).
-/

namespace SchemaSynth

/-! ## The tags of a table -/

namespace TypeShape

def members : TypeShape → List Member
  | .object obj => obj.members
  | _ => []

def tags : TypeShape → List DocTag
  | .object obj => obj.tags
  | .intersection _ tags => tags
  | _ => []

end TypeShape

namespace TypeTable

def shapes (table : TypeTable) : List TypeShape := table.types.toList.map TypeShape.ofDescriptor

def members (table : TypeTable) : List Member := table.shapes.flatMap TypeShape.members

def memberTags (table : TypeTable) : List DocTag := table.members.flatMap Member.tags

def typeTags (table : TypeTable) : List DocTag := table.shapes.flatMap TypeShape.tags

variable {table : TypeTable} {id : TypeId} {s : TypeShape}

theorem mem_shapes (h : table.shape? id = some s) : s ∈ table.shapes := by
  obtain ⟨d, hd, rfl⟩ := Option.map_eq_some_iff.1 h
  exact List.mem_map.2 ⟨d, Array.mem_toList_iff.2 (Array.mem_of_getElem? hd), rfl⟩

theorem mem_members (h : table.shape? id = some s) {m : Member} (hm : m ∈ s.members) :
    m ∈ table.members :=
  List.mem_flatMap.2 ⟨s, mem_shapes h, hm⟩

theorem mem_typeTags (h : table.shape? id = some s) {tag : DocTag} (ht : tag ∈ s.tags) :
    tag ∈ table.typeTags :=
  List.mem_flatMap.2 ⟨s, mem_shapes h, ht⟩

end TypeTable

theorem TagText.coerce_isScalar (text : Option String) : (coerce text).isScalar = true := by
  have number : ∀ cs j, number? cs = some j → j.isScalar = true := by
    intro cs j h
    simp only [number?, Option.bind_eq_bind, Option.bind_eq_some_iff, Option.pure_def,
      Option.some.injEq] at h
    obtain ⟨_, _, _, _, _, _, rfl⟩ := h
    unfold decimalValue
    split <;> rfl
  unfold coerce coerceTrimmed
  dsimp only
  split
  · rfl
  split
  · rfl
  · cases h : number? _ with
    | none => rfl
    | some j => exact number _ j h

namespace DocTag

/-- The keys and values of the tags that have a key. -/
def entries (tags : List DocTag) : Fields Json := tags.filterMap entry?

variable {tags more : List DocTag} {key : String} {value : Json}

theorem value_eq_coerce {tag : DocTag} (h : entry? tag = some (key, value)) :
    ∃ text, value = TagText.coerce text := by
  cases tag with
  | line text =>
    unfold entry? lineEntry? at h
    simp only [Option.ite_none_left_eq_some, Option.some.injEq, Prod.mk.injEq] at h
    exact ⟨_, h.2.2.symm⟩
  | split name text =>
    unfold entry? splitEntry? at h
    simp only [Option.ite_none_left_eq_some, Option.some.injEq, Prod.mk.injEq] at h
    exact ⟨_, h.2.2.symm⟩

theorem isScalar_of_mem_entries (h : (key, value) ∈ entries tags) : value.isScalar = true := by
  obtain ⟨tag, -, htag⟩ := List.mem_filterMap.1 h
  obtain ⟨text, rfl⟩ := value_eq_coerce htag
  exact TagText.coerce_isScalar text

theorem entries_mono (h : tags ⊆ more) : entries tags ⊆ entries more := fun entry hentry => by
  obtain ⟨tag, ht, he⟩ := List.mem_filterMap.1 hentry
  exact List.mem_filterMap.2 ⟨tag, h ht, he⟩

end DocTag

/-! ## Sourced fragments -/

namespace Fragment

def names (f : Fragment) : List String := Fields.keys (f.props?.getD [])

/-- The extras that stand among the properties of a flat object. -/
def extrasAmongProps : Fragment → Extras
  | .flat (_ :: _) extras => extras
  | _ => []

/-- Properties are named like members, and extras are those of tags: among properties, of tags of
types. -/
structure Sourced (table : TypeTable) (f : Fragment) : Prop where
  names_nodup : f.names.Nodup
  names_members : f.names ⊆ table.members.map Member.name
  extras_distinct : Fields.Distinct f.extras
  extras_tags : f.extras ⊆ DocTag.entries (table.typeTags ++ table.memberTags)
  among_tags : f.extrasAmongProps ⊆ DocTag.entries table.typeTags

variable {table : TypeTable} {f g : Fragment}

theorem merge_subset {all : Fields Json} {extras more : Extras} (h : extras ⊆ all)
    (hmore : more ⊆ all) : Fields.merge extras more ⊆ all :=
  fun _ hentry => (Fields.mem_merge hentry).elim (@h _) (@hmore _)

namespace Sourced

theorem orderly (h : f.Sourced table) : f.Orderly where
  extras_distinct := h.extras_distinct
  extras_scalar _ _ hmem := DocTag.isScalar_of_mem_entries (h.extras_tags hmem)
  props_distinct := h.names_nodup

theorem plain (hprops : f.props? = none) (hextras : f.extras = []) : f.Sourced table where
  names_nodup := by rw [names, hprops]; exact List.nodup_nil
  names_members := by rw [names, hprops]; exact List.nil_subset _
  extras_distinct := by rw [hextras]; exact Fields.distinct_nil
  extras_tags := by rw [hextras]; exact List.nil_subset _
  among_tags := by
    cases f with
    | flat => cases hprops
    | _ => exact List.nil_subset _

theorem congr (h : f.Sourced table) (hnames : g.names = f.names) (hextras : g.extras = f.extras)
    (hamong : g.extrasAmongProps = f.extrasAmongProps) : g.Sourced table where
  names_nodup := hnames ▸ h.names_nodup
  names_members := hnames ▸ h.names_members
  extras_distinct := hextras ▸ h.extras_distinct
  extras_tags := hextras ▸ h.extras_tags
  among_tags := hamong ▸ h.among_tags

theorem markOptional (h : f.Sourced table) : f.markOptional.Sourced table := by
  cases f with
  | leaf kind marks => cases kind <;> exact h.congr rfl rfl rfl
  | _ => exact h.congr rfl rfl rfl

theorem toBare (h : f.Sourced table) : f.toBare.Sourced table := by
  have keys (props : Props) : Fields.keys (bareProps props) = Fields.keys props := by
    rw [bareProps_eq, Fields.keys_mapValues]
  cases f with
  | object props marks => exact h.congr (keys props) rfl rfl
  | flat props extras => cases props <;> exact h.congr (keys _) rfl rfl
  | alternatives entries => exact h.congr rfl rfl rfl
  | _ => exact plain rfl rfl

theorem withExtras (h : f.Sourced table) (hmapping : f.isMapping = true) {more : Extras}
    (hdistinct : Fields.Distinct more)
    (hmore : more ⊆ DocTag.entries (table.typeTags ++ table.memberTags)) :
    (f.withExtras more).Sourced table := by
  unfold Fragment.withExtras
  split
  · exact h
  cases f with
  | empty => exact ⟨List.nodup_nil, List.nil_subset _, hdistinct, hmore, List.nil_subset _⟩
  | flat | alternatives | bare => cases hmapping
  | _ => exact ⟨h.names_nodup, h.names_members, h.extras_distinct.merge more,
      merge_subset h.extras_tags hmore, List.nil_subset _⟩

end Sourced

end Fragment

open Fragment

namespace Walk

/-! ## Schemas of walks -/

/-- What objects are made of: sourced properties, and extras of tags of types. -/
structure Ingredients (table : TypeTable) (props : Props) (extras : Extras) : Prop where
  props_distinct : Fields.Distinct props
  props_members : ∀ entry ∈ props, entry.1 ∈ table.members.map Member.name
  props_sourced : ∀ entry ∈ props, entry.2.Everywhere (Sourced table)
  extras_distinct : Fields.Distinct extras
  extras_tags : extras ⊆ DocTag.entries table.typeTags

/-- A schema as walks make it. Only a member adds extras of its own tags, once it has the schema. -/
structure Made (table : TypeTable) (f : Fragment) : Prop where
  sourced : f.Everywhere (Sourced table)
  object_tags : f.objectExtras?.getD [] ⊆ DocTag.entries table.typeTags

section

variable {table : TypeTable} {config : Config} {frame : Frame} {optional : Bool} {f : Fragment}
  {fs : List Fragment} {props more : Props} {extras : Extras} {tags : List DocTag}

theorem annotations_subset (htags : tags ⊆ table.typeTags) :
    annotations config frame tags ⊆ DocTag.entries table.typeTags := by
  unfold annotations
  split
  · exact fun entry hentry => DocTag.entries_mono htags (Fields.mem_of_mem_ofList hentry)
  · exact List.nil_subset _

namespace Ingredients

theorem ofExtras (hdistinct : Fields.Distinct extras)
    (htags : extras ⊆ DocTag.entries table.typeTags) : Ingredients table [] extras where
  props_distinct := Fields.distinct_nil
  props_members entry h := by cases h
  props_sourced entry h := by cases h
  extras_distinct := hdistinct
  extras_tags := htags

theorem insert (h : Ingredients table props extras) {name : String}
    (hname : name ∈ table.members.map Member.name) (hf : f.Everywhere (Sourced table)) :
    Ingredients table (Fields.insert props name f) extras where
  props_distinct := h.props_distinct.insert name f
  props_members entry hentry := by
    rcases Fields.mem_insert hentry with hentry | rfl
    · exact h.props_members entry hentry
    · exact hname
  props_sourced entry hentry := by
    rcases Fields.mem_insert hentry with hentry | rfl
    · exact h.props_sourced entry hentry
    · exact hf
  extras_distinct := h.extras_distinct
  extras_tags := h.extras_tags

theorem mergePart (h : Ingredients table props extras) (hf : Made table f) :
    Ingredients table (Walk.mergePart (props, extras) f).1 (Walk.mergePart (props, extras) f).2
    where
  props_distinct := h.props_distinct.mergeNew _
  props_members entry hentry := by
    rcases Fields.mem_mergeNew hentry with hentry | hentry
    · exact h.props_members entry hentry
    · exact hf.sourced.here.names_members (List.mem_map.2 ⟨entry, hentry, rfl⟩)
  props_sourced entry hentry := by
    rcases Fields.mem_mergeNew hentry with hentry | hentry
    · exact h.props_sourced entry hentry
    · exact hf.sourced.inside (mem_parts_of_mem_props hentry)
  extras_distinct := h.extras_distinct.merge _
  extras_tags := merge_subset h.extras_tags hf.object_tags

theorem foldl_mergePart (h : Ingredients table props extras) (hfs : ∀ f ∈ fs, Made table f) :
    Ingredients table (fs.foldl Walk.mergePart (props, extras)).1
      (fs.foldl Walk.mergePart (props, extras)).2 := by
  induction fs generalizing props extras with
  | nil => exact h
  | cons f fs ih =>
    obtain ⟨hf, hfs⟩ := List.forall_mem_cons.1 hfs
    exact ih (h.mergePart hf) hfs

theorem annotate (h : Ingredients table props extras) (htags : tags ⊆ table.typeTags) :
    Ingredients table props (Fields.merge extras (annotations config frame tags)) where
  props_distinct := h.props_distinct
  props_members := h.props_members
  props_sourced := h.props_sourced
  extras_distinct := h.extras_distinct.merge _
  extras_tags := merge_subset h.extras_tags (annotations_subset htags)

theorem assemble (h : Ingredients table props extras) :
    Made table (Walk.assemble config frame optional props extras) := by
  have hnames : Fields.keys props ⊆ table.members.map Member.name := by
    intro name hname
    obtain ⟨entry, hentry, rfl⟩ := List.mem_map.1 hname
    exact h.props_members entry hentry
  have hparts : ∀ g ∈ props.map Prod.snd, g.Everywhere (Sourced table) := by
    intro g hg
    obtain ⟨entry, hentry, rfl⟩ := List.mem_map.1 hg
    exact h.props_sourced entry hentry
  have hall {more : Extras} (hmore : more ⊆ DocTag.entries table.typeTags) :
      more ⊆ DocTag.entries (table.typeTags ++ table.memberTags) :=
    fun _ hentry => DocTag.entries_mono (List.subset_append_left _ _) (hmore hentry)
  unfold Walk.assemble
  split
  · exact ⟨.intro (.plain rfl rfl) fun g hg => (by cases hg), List.nil_subset _⟩
  split
  · have hamong : (Fragment.flat props extras).extrasAmongProps ⊆
        DocTag.entries table.typeTags := by
      cases props with
      | nil => exact List.nil_subset _
      | cons => exact h.extras_tags
    have hflat : (Fragment.flat props extras).Sourced table :=
      ⟨h.props_distinct, hnames, h.extras_distinct, hall h.extras_tags, hamong⟩
    exact ⟨.intro hflat hparts, h.extras_tags⟩
  · have hextras : Fields.merge [] extras ⊆ DocTag.entries table.typeTags :=
      merge_subset (List.nil_subset _) h.extras_tags
    have hwrapped : (Fragment.object props ⟨optional, Fields.merge [] extras⟩).Sourced table :=
      ⟨h.props_distinct, hnames, Fields.distinct_ofList extras, hall hextras, List.nil_subset _⟩
    rw [wrapped_eq]
    exact ⟨.intro hwrapped hparts, hextras⟩

end Ingredients

theorem Made.annotateMember (h : Made table f) (htags : tags ⊆ table.memberTags) :
    (Walk.annotateMember config frame tags f).Everywhere (Sourced table) := by
  have hmore : DocTag.annotations tags ⊆ DocTag.entries (table.typeTags ++ table.memberTags) :=
    fun entry hentry => DocTag.entries_mono (fun tag ht => List.mem_append_right _ (htags ht))
      (Fields.mem_of_mem_ofList hentry)
  unfold Walk.annotateMember
  split
  · next hannotate =>
    have hmapping : f.isMapping = true := (Bool.and_eq_true_iff.1 hannotate).2
    refine .intro (h.sourced.here.withExtras hmapping (Fields.distinct_ofList _) hmore) ?_
    rw [parts_withExtras]
    exact fun g => h.sourced.inside
  · exact h.sourced

theorem Ingredients.gather {ms : List Member} (h : Ingredients table props extras)
    (hms : ms ⊆ table.members) (hfs : ∀ f ∈ fs, Made table f) :
    Ingredients table (Walk.gather config frame ms fs props) extras := by
  induction ms generalizing fs props with
  | nil => exact h
  | cons m ms ih =>
    obtain ⟨hm, hms⟩ := List.cons_subset.1 hms
    cases fs with
    | nil => exact h
    | cons f fs =>
      obtain ⟨hf, hfs⟩ := List.forall_mem_cons.1 hfs
      have htags : m.tags ⊆ table.memberTags := fun tag ht => List.mem_flatMap.2 ⟨m, hm, ht⟩
      exact ih (h.insert (List.mem_map.2 ⟨m, hm, rfl⟩) (hf.annotateMember htags)) hms hfs

/-! ## All schemas -/

theorem kept_made (table : TypeTable) (config : Config) :
    Kept table config fun _ => Made table where
  empty _ := ⟨.intro (.plain rfl rfl) fun g hg => (by cases hg), List.nil_subset _⟩
  leaf _ kind optional _ := by
    have hleaf : (Fragment.leaf kind {}).Everywhere (Sourced table) :=
      .intro (.plain rfl rfl) fun g hg => by cases hg
    refine ⟨hleaf.optional (p := Sourced table) (fun _ => Sourced.markOptional) optional, ?_⟩
    cases optional <;> cases kind <;> exact List.nil_subset _
  items {_ f} optional _ hf := by
    have hitems : (Fragment.arrayOf f {}).Everywhere (Sourced table) :=
      .intro (.plain rfl rfl) (List.forall_mem_singleton.2 hf.sourced)
    refine ⟨hitems.optional (p := Sourced table) (fun _ => Sourced.markOptional) optional, ?_⟩
    cases optional <;> exact List.nil_subset _
  alternatives {_ fs} optional _ hfs := by
    have hlist : (Fragment.alternatives fs).Everywhere (Sourced table) :=
      .intro (.plain rfl rfl) fun g hg => (hfs g hg).sourced
    refine ⟨hlist.optional (p := Sourced table) (fun _ => Sourced.markOptional) optional, ?_⟩
    cases optional <;> exact List.nil_subset _
  members {id obj} frame optional hs fs hfs := by
    have hms : walked obj.members ⊆ table.members := fun m hm =>
      TypeTable.mem_members hs (List.mem_filter.1 hm).1
    have htags : obj.tags ⊆ table.typeTags := fun tag => TypeTable.mem_typeTags hs
    have start : Ingredients table [] (annotations config frame obj.tags) :=
      .ofExtras (annotations_distinct _) (annotations_subset htags)
    exact (start.gather hms hfs).assemble
  intersection {id types tags} frame optional hs fs hfs := by
    have htags : tags ⊆ table.typeTags := fun tag => TypeTable.mem_typeTags hs
    have start : Ingredients table [] [] := .ofExtras Fields.distinct_nil (List.nil_subset _)
    exact ((start.foldl_mergePart hfs).annotate htags).assemble

/-- Whatever stands in a schema under a name of its own comes from the table, from where it may. -/
theorem everywhere_sourced {root : TypeId} {additional : Bool}
    (h : table.schema config root additional = .ok f) : f.Everywhere (Sourced table) := by
  rw [schema_eq] at h
  obtain ⟨g, hg, rfl⟩ := map_eq_ok.1 h
  have hmade := (kept_made table config).walk hg
  unfold styleLeaves
  split
  · exact hmade.sourced
  · exact hmade.sourced.toBare (p := Sourced table) fun _ => Sourced.toBare

end

end Walk

end SchemaSynth
