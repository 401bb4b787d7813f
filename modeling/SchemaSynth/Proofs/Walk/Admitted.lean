import SchemaSynth.Proofs.Fragment.Parts
import SchemaSynth.Proofs.Walk.Kept

/-!
# The form of a schema

Not every fragment is a schema. `Fragment.Admitted` says which ones a mode admits, at the top and
below it, and a walk makes no others (`TypeTable.schema_admitted`). Flat objects are those at the
top, unless the mode wants them everywhere; the one exception is the empty object of a member with
annotations, which is flat because it has a place for nothing else.
-/

namespace SchemaSynth

namespace Fragment

/-- What a mode admits, at the top of a schema or below it. -/
def Admitted (mode : Mode) (top : Bool) : Fragment → Prop
  | .empty => True
  | .leaf kind marks =>
    mode.leaves = .typed ∧ (kind = .forbidden → marks.optional = false)
  | .arrayOf _ _ => mode.leaves = .typed ∧ mode.arrayItems = .tracked
  | .object props _ => mode.objects = .wrapped ∧ props ≠ []
  | .flat [] extras => top = false ∧ extras ≠ []
  | .flat (_ :: _) _ => top = true ∨ mode.objects = .flat
  | .alternatives entries => 2 ≤ entries.length
  | .bare _ => mode.leaves = .bare

/-- A fragment with everything in it, at the top or below it. -/
def AllAdmitted (mode : Mode) (top : Bool) (f : Fragment) : Prop :=
  f.Admitted mode top ∧ ∀ g ∈ f.parts, g.Everywhere (Admitted mode false)

theorem allAdmitted_false {mode : Mode} {f : Fragment} :
    f.AllAdmitted mode false ↔ f.Everywhere (Admitted mode false) :=
  Everywhere.iff_parts.symm

section

variable {mode : Mode} {top : Bool} {f : Fragment}

/-! ## Marks, extras and bare leaves -/

theorem Admitted.markOptional (h : f.Admitted mode top) : f.markOptional.Admitted mode top := by
  cases f with
  | leaf kind marks =>
    cases kind with
    | forbidden => exact h
    | _ => exact ⟨h.1, Leaf.noConfusion⟩
  | alternatives entries =>
    show 2 ≤ (markEntries entries).length
    rw [markEntries_eq, List.length_map]
    exact h
  | _ => exact h

theorem AllAdmitted.optional (h : f.AllAdmitted mode top) (mark : Bool) :
    (f.optional mark).AllAdmitted mode top := by
  cases mark with
  | false => exact h
  | true =>
    refine ⟨h.1.markOptional, fun g hg => ?_⟩
    rcases mem_parts_markOptional hg with hg | ⟨e, he, rfl⟩
    · exact h.2 g hg
    · exact (h.2 e he).markOptional (p := Admitted mode false) fun _ => Admitted.markOptional

theorem Admitted.withExtras (h : f.Admitted mode false) (extras : Extras) :
    (f.withExtras extras).Admitted mode false := by
  cases extras with
  | nil => exact h
  | cons extra rest =>
    cases f with
    | empty => exact ⟨rfl, List.cons_ne_nil _ _⟩
    | flat props own =>
      cases props with
      | nil => exact ⟨rfl, Fields.merge_ne_nil h.2 _⟩
      | cons => exact h
    | _ => exact h

theorem AllAdmitted.withExtras (h : f.AllAdmitted mode false) (extras : Extras) :
    (f.withExtras extras).AllAdmitted mode false :=
  ⟨h.1.withExtras extras, by rw [parts_withExtras]; exact h.2⟩

theorem Admitted.toBare (h : f.Admitted { mode with leaves := .typed } top) :
    f.toBare.Admitted { mode with leaves := .bare } top := by
  cases f with
  | empty => trivial
  | leaf => exact (rfl : LeafStyle.bare = .bare)
  | arrayOf => exact (rfl : LeafStyle.bare = .bare)
  | object props marks =>
    cases props with
    | nil => exact absurd rfl h.2
    | cons => exact ⟨h.1, List.cons_ne_nil _ _⟩
  | flat props extras => cases props <;> exact h
  | alternatives entries =>
    show 2 ≤ (bareEntries entries).length
    rw [bareEntries_eq, List.length_map]
    exact h
  | bare name => exact (rfl : LeafStyle.bare = .bare)

theorem AllAdmitted.toBare (h : f.AllAdmitted { mode with leaves := .typed } top) :
    f.toBare.AllAdmitted { mode with leaves := .bare } top := by
  refine ⟨h.1.toBare, fun g hg => ?_⟩
  obtain ⟨e, he, rfl⟩ := mem_parts_toBare hg
  exact (h.2 e he).toBare fun _ => Admitted.toBare

end

end Fragment

namespace Walk

open Fragment

section

variable {mode : Mode} {config : Config} {frame : Frame}

/-! ## Objects -/

/-- The properties are admitted below the top. -/
def PropsAdmitted (mode : Mode) (props : Props) : Prop :=
  ∀ entry ∈ props, entry.2.AllAdmitted mode false

theorem PropsAdmitted.gather {ms : List Member} {fs : List Fragment} {props : Props}
    (h : PropsAdmitted mode props) (hfs : ∀ f ∈ fs, f.AllAdmitted mode false) :
    PropsAdmitted mode (gather config frame ms fs props) := by
  refine forall_mem_gather (P := (AllAdmitted mode false ·)) (fun tags f hf => ?_) h hfs
  unfold annotateMember
  split
  · exact hf.withExtras _
  · exact hf

theorem PropsAdmitted.foldl_mergePart {fs : List Fragment} {merged : Props × Extras}
    (h : PropsAdmitted mode merged.1) (hfs : ∀ f ∈ fs, f.AllAdmitted mode false) :
    PropsAdmitted mode (fs.foldl mergePart merged).1 :=
  forall_mem_foldl_mergePart (P := (AllAdmitted mode false ·)) (fun _ hf _ hentry =>
    allAdmitted_false.2 (hf.2 _ (mem_parts_of_mem_props hentry))) h hfs

theorem eq_wrapped_of_ne {style : ObjectStyle} (h : style ≠ .flat) : style = .wrapped := by
  cases style with
  | wrapped => rfl
  | flat => exact absurd rfl h

theorem eq_tracked_of_ne {style : ArrayStyle} (h : style ≠ .opaqueItems) : style = .tracked := by
  cases style with
  | tracked => rfl
  | opaqueItems => exact absurd rfl h

/-- The mode of a walk: with the leaves typed, since it is only afterwards that they are bared. -/
abbrev typedMode (config : Config) : Mode := { config.mode with leaves := .typed }

theorem PropsAdmitted.assemble {props : Props} (h : PropsAdmitted (typedMode config) props)
    (optional : Bool) (extras : Extras) :
    (assemble config frame optional props extras).AllAdmitted (typedMode config)
      (frame.depth == 0) := by
  have inside : ∀ g ∈ props.map Prod.snd, g.Everywhere (Admitted (typedMode config) false) := by
    intro g hg
    obtain ⟨entry, hentry, rfl⟩ := List.mem_map.1 hg
    exact allAdmitted_false.1 (h entry hentry)
  unfold Walk.assemble
  split
  · exact ⟨trivial, List.forall_mem_nil _⟩
  · next hne =>
    have hne : props ≠ [] := by simpa using hne
    split
    · next hflat =>
      obtain ⟨entry, rest, rfl⟩ := List.exists_cons_of_ne_nil hne
      have hflat : (frame.depth == 0) = true ∨ config.mode.objects = .flat := by
        simpa [writesFlat] using hflat
      exact ⟨hflat, inside⟩
    · next hwrapped =>
      obtain ⟨hdepth, hstyle⟩ : (frame.depth == 0) = false ∧ config.mode.objects ≠ .flat := by
        simpa [writesFlat] using hwrapped
      have object : (Fragment.object props {}).AllAdmitted (typedMode config) false :=
        ⟨⟨eq_wrapped_of_ne hstyle, hne⟩, inside⟩
      rw [hdepth]
      exact (object.optional optional).withExtras extras

end

/-! ## Walks -/

/-- Whatever a walk makes is admitted, at the top where it is at depth 0. -/
theorem kept_allAdmitted (table : TypeTable) (config : Config) :
    Kept table config fun depth f => f.AllAdmitted (typedMode config) (depth == 0) where
  empty _ := ⟨trivial, List.forall_mem_nil _⟩
  leaf depth kind optional _ := by
    have plain : (Fragment.leaf kind {}).AllAdmitted (typedMode config) (depth == 0) :=
      ⟨⟨rfl, fun _ => rfl⟩, List.forall_mem_nil _⟩
    exact plain.optional optional
  items {depth f} optional tracked hf := by
    have array : (Fragment.arrayOf f {}).AllAdmitted (typedMode config) (depth == 0) :=
      ⟨⟨rfl, eq_tracked_of_ne tracked⟩, List.forall_mem_singleton.2 (allAdmitted_false.1 hf)⟩
    exact array.optional optional
  alternatives {depth fs} optional two hfs := by
    have list : (Fragment.alternatives fs).AllAdmitted (typedMode config) (depth == 0) :=
      ⟨two, fun f hf => allAdmitted_false.1 (hfs f hf)⟩
    exact list.optional optional
  members frame optional _ fs hfs := by
    have start : PropsAdmitted (typedMode config) [] := List.forall_mem_nil _
    exact (start.gather hfs).assemble optional _
  intersection frame optional _ fs hfs := by
    have start : PropsAdmitted (typedMode config) ([], ([] : Extras)).1 := List.forall_mem_nil _
    exact (start.foldl_mergePart hfs).assemble optional _

end Walk

open Walk

/-- A schema is one that its mode admits, at the top and at every depth. -/
theorem TypeTable.schema_admitted (table : TypeTable) (config : Config) (root : TypeId)
    (additional : Bool) {f : Fragment} (h : table.schema config root additional = .ok f) :
    f.Admitted config.mode true ∧
      ∀ g ∈ f.parts, g.Everywhere (Fragment.Admitted config.mode false) := by
  rw [schema_eq] at h
  obtain ⟨g, hg, rfl⟩ := map_eq_ok.1 h
  have made : g.AllAdmitted (typedMode config) true := (kept_allAdmitted table config).walk hg
  show (styleLeaves config g).AllAdmitted config.mode true
  unfold styleLeaves
  split
  · next hl =>
    have same : typedMode config = config.mode := by unfold typedMode; rw [← hl]
    exact same ▸ made
  · next hl =>
    have bare : { config.mode with leaves := .bare } = config.mode := by rw [← hl]
    exact bare ▸ made.toBare

/-- An order has a price, an address, a list of notes and a place for more. -/
def orders : TypeTable where
  types := #[{ flags := [.string] }, { flags := [.number] }, { flags := [.undefined] },
    { flags := [.union], types := [0, 1, 2] },
    { flags := [.object, .array], symbol := some "Array", typeArguments := [0] },
    { flags := [.object], symbol := some "Address", members := [{ name := "street", type := 0 }] },
    { flags := [.object], symbol := some "Empty" },
    { flags := [.object], symbol := some "Order",
      members := [{ name := "price", type := 3 }, { name := "address", type := 5 },
        { name := "notes", type := 4 },
        { name := "more", type := 6, tags := [.line "@since 2"] }] }]

/-- An order itself is flat and its address is not; the empty object in it is flat, too, since it is
annotated. -/
theorem schema_admitted_orders :
    let config : Config := { maxDepth := 4, mode := { leaves := .bare } }
    let f : Fragment := .flat [("price", .alternatives [.bare "string", .bare "number"]),
      ("address", .object [("street", .bare "string")] {}), ("notes", .bare "array"),
      ("more", .flat [] [("since", .int 2)])] []
    orders.schema config 7 true = .ok f ∧ f.Admitted config.mode true ∧
      ∀ g ∈ f.parts, g.Everywhere (Fragment.Admitted config.mode false) := by
  intro config f
  have hf : orders.schema config 7 true = .ok f := rfl
  exact ⟨hf, orders.schema_admitted config 7 true hf⟩

end SchemaSynth
