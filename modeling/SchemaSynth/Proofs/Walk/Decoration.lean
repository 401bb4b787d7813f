import SchemaSynth.Proofs.Walk.Annotation
import SchemaSynth.Proofs.Walk.Provenance

/-!
# Annotated schemas as documents

Annotations add extras to a schema, and the extras are merged into the document that it renders to.
What the document says without them stays, at every path, exactly if no extra has the name of a
field of another value (`TypeTable.schema_partOf_annotated`). Tags that keep off the fields of
schemas, and tags of types that keep off the names of members, are safe.
-/

namespace SchemaSynth

namespace Fragment

/-- The fields of the rendered fragments that have a `type`. -/
def typedKeys : List String := ["type", "values", "items", "props", "optional"]

theorem keys_typedFields {body : Fields Json} (hbody : Fields.keys body ⊆ typedKeys)
    (typeName : String) (marks : Marks) :
    Fields.keys (typedFields typeName body marks) ⊆ typedKeys := by
  intro key hkey
  rw [typedFields, Fields.keys, List.map_append, List.map_cons, List.mem_append,
    List.mem_cons] at hkey
  rcases hkey with (rfl | hkey) | hkey
  · exact List.mem_cons_self
  · exact hbody hkey
  · split at hkey
    · obtain rfl := List.mem_singleton.1 hkey
      decide
    · cases hkey

theorem keys_propsToJson (props : Props) : Fields.keys (propsToJson props) = Fields.keys props := by
  rw [propsToJson_eq, Fields.keys_mapValues]

end Fragment

open Fragment

/-- No tag is named like a field of schemas, and no tag of a type like a member. -/
structure TypeTable.TagsApart (table : TypeTable) : Prop where
  fields : ∀ key ∈ Fields.keys (DocTag.entries (table.typeTags ++ table.memberTags)),
    key ∉ typedKeys
  members : ∀ key ∈ Fields.keys (DocTag.entries table.typeTags),
    key ∉ table.members.map Member.name

theorem Fragment.Sourced.keepsFields {table : TypeTable} {f : Fragment} (h : f.Sourced table)
    (apart : table.TagsApart) : f.KeepsFields := by
  intro key value hvalue field hfield
  have hextra : (key, value) ∈ f.extras := Fields.mem_of_get? hvalue
  have hkey : key ∈ Fields.keys f.fields :=
    List.mem_map.2 ⟨(key, field), Fields.mem_of_get? hfield, rfl⟩
  have hfree : key ∉ typedKeys :=
    apart.fields key (List.mem_map.2 ⟨(key, value), h.extras_tags hextra, rfl⟩)
  cases f with
  | leaf kind marks =>
    have hbody : Fields.keys (leafBody kind) ⊆ typedKeys := by
      cases kind with
      | enum values => show ["values"] ⊆ typedKeys; decide
      | _ => exact List.nil_subset _
    exact absurd (keys_typedFields hbody _ _ hkey) hfree
  | arrayOf items marks =>
    have hbody : Fields.keys [("items", items.toJson)] ⊆ typedKeys := by
      show ["items"] ⊆ typedKeys
      decide
    exact absurd (keys_typedFields hbody _ _ hkey) hfree
  | object props marks =>
    have hbody : Fields.keys [("props", Json.object (propsToJson props))] ⊆ typedKeys := by
      show ["props"] ⊆ typedKeys
      decide
    exact absurd (keys_typedFields hbody _ _ hkey) hfree
  | flat props extras =>
    have hkey : key ∈ Fields.keys props := keys_propsToJson props ▸ hkey
    have htag : (key, value) ∈ DocTag.entries table.typeTags := by
      cases props with
      | nil => cases hkey
      | cons => exact h.among_tags hextra
    exact absurd (h.names_members hkey) (apart.members key (List.mem_map.2 ⟨_, htag, rfl⟩))
  | _ => cases hkey

/-- The document of a type without annotations is part of the one with annotations exactly if, at
every depth, extras leave fields of other values alone. They do if the tags of the table are
apart from the fields. -/
theorem TypeTable.schema_partOf_annotated (table : TypeTable) (config : Config) (root : TypeId)
    {on off additional additional' : Bool} (silent : (off && additional') = false)
    {f g : Fragment} (hf : table.schema (config.annotated on) root additional = .ok f)
    (hg : table.schema (config.annotated off) root additional' = .ok g) :
    (g.toJson.PartOf f.toJson ↔ f.Everywhere KeepsFields) ∧
      (table.TagsApart → g.toJson.PartOf f.toJson) := by
  have hmuted : table.schema (config.annotated off) root additional' =
      eraseExtras <$> table.schema (config.annotated on) root additional :=
    Walk.schema_muted silent
  have herased : g = f.eraseExtras := by
    rw [hmuted, hf] at hg
    cases hg
    rfl
  have hsourced := Walk.everywhere_sourced hf
  have hiff : g.toJson.PartOf f.toJson ↔ f.Everywhere KeepsFields := by
    rw [herased]
    exact partOf_toJson_iff (hsourced.imp fun _ => Sourced.orderly)
  exact ⟨hiff, fun apart => hiff.2 (hsourced.imp fun _ h => h.keepsFields apart)⟩

/-- A span with annotations on the type and on a member. -/
def spans : TypeTable where
  types := #[{ flags := [.string] },
    { flags := [.object], symbol := some "Span",
      members := [{ name := "start", type := 0, tags := [.line "@format date"] }],
      tags := [.line "@note closed"] }]

/-- A range with an annotation that is named like its member. -/
def ranges : TypeTable where
  types := #[{ flags := [.string] },
    { flags := [.object], symbol := some "Range", members := [{ name := "min", type := 0 }],
      tags := [.line "@min 1"] }]

/-- The annotations of a span stand beside what it says without them. -/
theorem schema_partOf_annotated_spans :
    let plain : Fragment := .flat [("start", .primitive "string")] []
    let annotated : Fragment := .flat
      [("start", .leaf (.primitive "string") ⟨false, [("format", .string "date")]⟩)]
      [("note", .string "closed")]
    spans.schema (Config.annotated {} true) 1 true = .ok annotated ∧
      spans.schema (Config.annotated {} false) 1 true = .ok plain ∧
      (plain.toJson.PartOf annotated.toJson ↔ annotated.Everywhere KeepsFields) ∧
      spans.TagsApart ∧ plain.toJson.PartOf annotated.toJson := by
  intro plain annotated
  have hf : spans.schema (Config.annotated {} true) 1 true = .ok annotated := rfl
  have hg : spans.schema (Config.annotated {} false) 1 true = .ok plain := rfl
  have apart : spans.TagsApart := ⟨by decide +kernel, by decide +kernel⟩
  have law := spans.schema_partOf_annotated {} 1 (by decide) hf hg
  exact ⟨hf, hg, law.1, apart, law.2 apart⟩

/-- The annotation of a range takes the place of the schema of its member. -/
theorem ranges_lose_min :
    let plain : Fragment := .flat [("min", .primitive "string")] []
    let annotated : Fragment := .flat [("min", .primitive "string")] [("min", .int 1)]
    ranges.schema (Config.annotated {} true) 1 true = .ok annotated ∧
      ranges.schema (Config.annotated {} false) 1 true = .ok plain ∧
      plain.toJson.field? "min" = some (.object [("type", .string "string")]) ∧
      annotated.toJson.field? "min" = some (.int 1) ∧
      ¬ plain.toJson.PartOf annotated.toJson := by
  refine ⟨rfl, rfl, rfl, rfl, fun h => ?_⟩
  obtain ⟨y, hy, hpart⟩ := Json.partOf_object_iff.1 h "min" _ rfl
  cases hy
  cases hpart.eq_of_isScalar rfl

end SchemaSynth
