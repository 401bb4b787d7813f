import SchemaSynth.Proofs.Fragment.Erasure
import SchemaSynth.Proofs.Fragment.Parts
import SchemaSynth.Proofs.Json.PartOf

/-!
# Extras in the rendered fragment

A fragment renders to an object of its own fields, into which its extras are merged under whatever
name they have. So an extra may cover a field: `partOf_toJson_iff` says that the fragment without
extras is still there, at every depth, exactly if no extra does so but with the value of the field.
-/

namespace SchemaSynth

namespace Fragment

/-- The type, the body and the optional marker. -/
def typedFields (typeName : String) (body : Fields Json) (marks : Marks) : Fields Json :=
  ("type", .string typeName) :: body ++ if marks.optional then [("optional", .bool true)] else []

/-- The fields of the rendered fragment, but for the extras. -/
def fields : Fragment → Fields Json
  | .leaf kind marks => typedFields kind.typeName (leafBody kind) marks
  | .arrayOf items marks => typedFields "array" [("items", items.toJson)] marks
  | .object props marks => typedFields "object" [("props", .object (propsToJson props))] marks
  | .flat props _ => propsToJson props
  | .empty | .alternatives _ | .bare _ => []

def extras : Fragment → Extras
  | .leaf _ marks => marks.extras
  | .arrayOf _ marks => marks.extras
  | .object _ marks => marks.extras
  | .flat _ extras => extras
  | .empty | .alternatives _ | .bare _ => []

/-- An extra that has the name of a field has its value. -/
def KeepsFields (f : Fragment) : Prop :=
  ∀ key value, Fields.get? f.extras key = some value →
    ∀ field, Fields.get? f.fields key = some field → field = value

/-- No name occurs twice among the extras or the properties, and extras are plain values. -/
structure Orderly (f : Fragment) : Prop where
  extras_distinct : Fields.Distinct f.extras
  extras_scalar : ∀ key value, (key, value) ∈ f.extras → value.isScalar = true
  props_distinct : Fields.Distinct (f.props?.getD [])

theorem propsToJson_eq (props : Props) : propsToJson props = Fields.mapValues toJson props :=
  eq_mapValues rfl (fun _ _ _ => rfl) props

def entryToJson : Fragment → Json
  | .bare name => .object [("type", .string name)]
  | f => f.toJson

theorem entriesToJson_eq (entries : List Fragment) :
    entriesToJson entries = entries.map entryToJson :=
  eq_map rfl (fun f _ => by cases f <;> rfl) entries

/-! ## Fields without extras -/

/-- Only a bare name renders to something else than an object or a list, and it has no extras. -/
theorem toJson_eq_of_isScalar {f : Fragment} (h : f.eraseExtras.toJson.isScalar = true) :
    f.toJson = f.eraseExtras.toJson := by
  cases f with
  | bare name => rfl
  | flat props extras => cases props <;> cases h
  | _ => cases h

theorem aligned_typedFields {R : Json → Json → Prop} (hrefl : ∀ a, R a a) (typeName : String)
    {body body' : Fields Json} (hbody : Fields.Aligned R body body') (marks : Marks) :
    Fields.Aligned R (typedFields typeName body { marks with extras := [] })
      (typedFields typeName body' marks) := by
  refine List.Forall₂.cons ⟨rfl, hrefl _⟩ (List.rel_append hbody ?_)
  exact List.forall₂_same.2 fun entry _ => ⟨rfl, hrefl entry.2⟩

theorem aligned_propsToJson {R : Json → Json → Prop} {props : Props}
    (h : ∀ g ∈ props.map Prod.snd, R g.eraseExtras.toJson g.toJson) :
    Fields.Aligned R (propsToJson (eraseProps props)) (propsToJson props) := by
  rw [eraseProps_eq, propsToJson_eq, propsToJson_eq]
  simp only [Fields.Aligned, Fields.mapValues, List.map_map, List.forall₂_map_left_iff,
    List.forall₂_map_right_iff]
  exact List.forall₂_same.2 fun entry hentry => ⟨rfl, h _ (List.mem_map.2 ⟨entry, hentry, rfl⟩)⟩

theorem aligned_fields {R : Json → Json → Prop} (hrefl : ∀ a, R a a)
    (hobject : ∀ xs ys, Fields.Aligned R xs ys → R (.object xs) (.object ys)) {f : Fragment}
    (hparts : ∀ g ∈ f.parts, R g.eraseExtras.toJson g.toJson) :
    Fields.Aligned R f.eraseExtras.fields f.fields := by
  cases f with
  | leaf kind marks =>
    exact aligned_typedFields hrefl _ (List.forall₂_same.2 fun e _ => ⟨rfl, hrefl e.2⟩) marks
  | arrayOf items marks =>
    have hbody : Fields.Aligned R [("items", items.eraseExtras.toJson)] [("items", items.toJson)] :=
      .cons ⟨rfl, hparts items List.mem_cons_self⟩ .nil
    exact aligned_typedFields hrefl _ hbody marks
  | object props marks =>
    have hbody : Fields.Aligned R [("props", .object (propsToJson (eraseProps props)))]
        [("props", .object (propsToJson props))] :=
      .cons ⟨rfl, hobject _ _ (aligned_propsToJson hparts)⟩ .nil
    exact aligned_typedFields hrefl _ hbody marks
  | flat props extras =>
    cases props with
    | nil => exact .nil
    | cons entry rest => exact aligned_propsToJson hparts
  | _ => exact .nil

theorem partOf_of_aligned (xs ys : Fields Json) (h : Fields.Aligned Json.PartOf xs ys) :
    Json.PartOf (.object xs) (.object ys) := by
  rw [Json.partOf_object_iff]
  intro key x hx
  have halign := h.get? key
  rw [hx] at halign
  cases hy : Fields.get? ys key with
  | none => rw [hy] at halign; cases halign
  | some y =>
    rw [hy] at halign
    cases halign with
    | some hxy => exact ⟨y, rfl, hxy⟩

/-! ## What is left without extras -/

theorem partOf_props {props : Props} (hdistinct : Fields.Distinct props)
    (h : ∀ key a b, Fields.get? (propsToJson (eraseProps props)) key = some a →
      Fields.get? (propsToJson props) key = some b → a.PartOf b) {g : Fragment}
    (hg : g ∈ props.map Prod.snd) : g.eraseExtras.toJson.PartOf g.toJson := by
  obtain ⟨⟨key, g⟩, hmem, rfl⟩ := List.mem_map.1 hg
  have hget := Fields.get?_of_mem hdistinct hmem
  refine h key _ _ ?_ ?_
  · rw [propsToJson_eq, eraseProps_eq, Fields.get?_mapValues, Fields.get?_mapValues, hget]; rfl
  · rw [propsToJson_eq, Fields.get?_mapValues, hget]; rfl

theorem partOf_parts {f : Fragment} (hf : f.Orderly) (hlist : ∀ entries, f ≠ .alternatives entries)
    (h : ∀ key a b, Fields.get? f.eraseExtras.fields key = some a →
      Fields.get? f.fields key = some b → a.PartOf b) :
    ∀ g ∈ f.parts, g.eraseExtras.toJson.PartOf g.toJson := by
  intro g hg
  cases f with
  | arrayOf items marks =>
    obtain rfl := List.mem_singleton.1 hg
    exact h "items" _ _ rfl rfl
  | object props marks =>
    have hprops : Json.PartOf (.object (propsToJson (eraseProps props)))
        (.object (propsToJson props)) := h "props" _ _ rfl rfl
    have hdistinct : Fields.Distinct props := hf.props_distinct
    refine partOf_props hdistinct (fun key a b ha hb => ?_) hg
    obtain ⟨y, hy, hpart⟩ := Json.partOf_object_iff.1 hprops key a ha
    rw [hb] at hy
    cases hy
    exact hpart
  | flat props extras =>
    cases props with
    | nil => cases hg
    | cons entry rest => exact partOf_props hf.props_distinct h hg
  | alternatives entries => exact absurd rfl (hlist entries)
  | _ => cases hg

theorem partOf_toJson_of_object {f : Fragment} (hf : f.Orderly)
    (hlist : ∀ entries, f ≠ .alternatives entries)
    (hjson : f.toJson = .object (Fields.merge f.fields f.extras))
    (hplain : f.eraseExtras.toJson = .object f.eraseExtras.fields) :
    f.eraseExtras.toJson.PartOf f.toJson ↔
      f.KeepsFields ∧ ∀ g ∈ f.parts, g.eraseExtras.toJson.PartOf g.toJson := by
  have haligned : Fields.Aligned (fun a b : Json => a.isScalar = true → b = a)
      f.eraseExtras.fields f.fields :=
    aligned_fields (fun _ _ => rfl) (fun _ _ _ h => absurd h Bool.false_ne_true)
      fun _ _ => toJson_eq_of_isScalar
  have hscalar : ∀ key value, Fields.get? f.extras key = some value → value.isScalar = true :=
    fun key value h => hf.extras_scalar key value (Fields.mem_of_get? h)
  rw [hplain, hjson, Json.partOf_merge_iff haligned hf.extras_distinct hscalar]
  refine and_congr_right fun _ => ⟨partOf_parts hf hlist, fun h key a b ha hb => ?_⟩
  have halign := (aligned_fields Json.PartOf.refl partOf_of_aligned h).get? key
  rw [ha, hb] at halign
  cases halign with
  | some hab => exact hab

theorem partOf_entryToJson_iff (f : Fragment) :
    (entryToJson f.eraseExtras).PartOf (entryToJson f) ↔ f.eraseExtras.toJson.PartOf f.toJson := by
  cases f with
  | bare name => exact iff_of_true (.refl _) (.refl _)
  | flat props extras => cases props <;> rfl
  | _ => rfl

/-- A rendered fragment has all that it has without extras exactly if no extra, at any depth, has
the name of a field without having its value. -/
theorem partOf_toJson_iff {f : Fragment} (h : f.Everywhere Orderly) :
    f.eraseExtras.toJson.PartOf f.toJson ↔ f.Everywhere KeepsFields := by
  induction f using induction_parts with
  | step f ih =>
    have hparts : (∀ g ∈ f.parts, g.Everywhere KeepsFields) ↔
        ∀ g ∈ f.parts, g.eraseExtras.toJson.PartOf g.toJson :=
      forall₂_congr fun g hg => (ih g hg (h.inside hg)).symm
    rw [Everywhere.iff_parts, hparts]
    have hf := h.here
    cases f with
    | alternatives entries =>
      have hkeeps : (alternatives entries).KeepsFields := fun _ _ h => by cases h
      have hentries : (alternatives entries).toJson = .array (entries.map entryToJson) :=
        congrArg Json.array (entriesToJson_eq entries)
      have herased : (alternatives entries).eraseExtras.toJson =
          .array (entries.map (entryToJson ∘ eraseExtras)) := by
        rw [eraseExtras, toJson, entriesToJson_eq, eraseEntries_eq, List.map_map]
      rw [hentries, herased, Json.partOf_array_map_iff, iff_true_intro hkeeps, true_and]
      exact forall₂_congr fun g _ => partOf_entryToJson_iff g
    | bare name =>
      have hkeeps : (bare name).KeepsFields := fun _ _ h => by cases h
      have hnone : ∀ g ∈ (bare name).parts, g.eraseExtras.toJson.PartOf g.toJson :=
        fun g hg => by cases hg
      exact iff_of_true (.refl _) ⟨hkeeps, hnone⟩
    | flat props extras =>
      refine partOf_toJson_of_object hf (fun _ => Fragment.noConfusion) rfl ?_
      cases props <;> rfl
    | _ => exact partOf_toJson_of_object hf (fun _ => Fragment.noConfusion) rfl rfl

end Fragment

end SchemaSynth
