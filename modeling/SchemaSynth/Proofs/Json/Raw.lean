import SchemaSynth.Json.Raw
import SchemaSynth.Proofs.Fields

/-!
# Plain values as a reader sees them

All of a plain value can be read, and a value that has been read comes out of a reader as it went in
(`toJson?_ofJson`): its repeated names are gone.
-/

namespace SchemaSynth.Raw

theorem ofItems_eq (items : List Json) : ofItems items = items.map ofJson := by
  induction items with
  | nil => rfl
  | cons x xs ih => rw [ofItems, ih]; rfl

theorem ofFields_eq (fields : Fields Json) :
    ofFields fields = fields.map fun (key, x) => (some key, ofJson x) := by
  induction fields with
  | nil => rfl
  | cons entry rest ih =>
    obtain ⟨key, x⟩ := entry
    rw [ofFields, ih]
    rfl

mutual

theorem readable_ofJson : ∀ v : Json, (ofJson v).readable = true
  | .null | .bool _ | .number _ | .string _ => rfl
  | .array items => readableItems_ofItems items
  | .object fields => readableFields_ofFields fields

theorem readableItems_ofItems : ∀ items : List Json, readableItems (ofItems items) = true
  | [] => rfl
  | x :: xs => by simp [ofItems, readableItems, readable_ofJson x, readableItems_ofItems xs]

theorem readableFields_ofFields : ∀ fields : List (String × Json),
    readableFields (ofFields fields) = true
  | [] => rfl
  | (key, x) :: xs => by
    simp [ofFields, readableFields, readable_ofJson x, readableFields_ofFields xs]

end

/-! ## Values that were read -/

/-- A reader finds the value itself. -/
def Plain (v : Json) : Prop := (ofJson v).toJson? = some v

theorem itemsToJson?_ofItems {items : List Json} (h : ∀ v ∈ items, Plain v) :
    itemsToJson? (ofItems items) = some items := by
  induction items with
  | nil => rfl
  | cons x xs ih =>
    obtain ⟨hx, hxs⟩ := List.forall_mem_cons.1 h
    have hx : (ofJson x).toJson? = some x := hx
    simp [ofItems, itemsToJson?, hx, ih hxs]

theorem fieldsToJson?_ofFields {fields : Fields Json} (h : ∀ entry ∈ fields, Plain entry.2) :
    fieldsToJson? (ofFields fields) = some fields := by
  induction fields with
  | nil => rfl
  | cons entry rest ih =>
    obtain ⟨hx, hrest⟩ := List.forall_mem_cons.1 h
    have hx : (ofJson entry.2).toJson? = some entry.2 := hx
    simp [ofFields, fieldsToJson?, hx, ih hrest]

theorem plain_array {items : List Json} (h : ∀ v ∈ items, Plain v) : Plain (.array items) := by
  simp [Plain, ofJson, toJson?, itemsToJson?_ofItems h]

theorem plain_object {fields : Fields Json} (hdistinct : Fields.Distinct fields)
    (h : ∀ entry ∈ fields, Plain entry.2) : Plain (.object fields) := by
  simp [Plain, ofJson, toJson?, fieldsToJson?_ofFields h, Fields.ofList_eq_self hdistinct]

mutual

theorem plain_of_toJson? : ∀ {raw : Raw} {v : Json}, raw.toJson? = some v → Plain v
  | .null, _, h | .bool _, _, h | .number _, _, h | .string _, _, h => by cases h; rfl
  | .unreadable, _, h | .broken, _, h => by cases h
  | .array items, _, h => by
    obtain ⟨vs, hvs, rfl⟩ := Option.map_eq_some_iff.1 h
    exact plain_array (forall_plain_of_itemsToJson? hvs)
  | .object fields, _, h => by
    obtain ⟨entries, hentries, rfl⟩ := Option.map_eq_some_iff.1 h
    have plain := forall_plain_of_fieldsToJson? hentries
    exact plain_object (Fields.distinct_ofList entries) fun entry hentry =>
      plain entry (Fields.mem_of_mem_ofList hentry)

theorem forall_plain_of_itemsToJson? : ∀ {items : List Raw} {vs : List Json},
    itemsToJson? items = some vs → ∀ v ∈ vs, Plain v
  | [], _, h => by
    cases h
    exact List.forall_mem_nil _
  | x :: xs, _, h => by
    unfold itemsToJson? at h
    split at h
    · next hx hxs =>
      cases h
      exact List.forall_mem_cons.2 ⟨plain_of_toJson? hx, forall_plain_of_itemsToJson? hxs⟩
    · cases h

theorem forall_plain_of_fieldsToJson? : ∀ {fields : List (Option String × Raw)}
    {entries : Fields Json}, fieldsToJson? fields = some entries → ∀ entry ∈ entries, Plain entry.2
  | [], _, h => by
    cases h
    exact List.forall_mem_nil _
  | (key, x) :: xs, _, h => by
    unfold fieldsToJson? at h
    split at h
    · next hx hxs =>
      cases h
      exact List.forall_mem_cons.2 ⟨plain_of_toJson? hx, forall_plain_of_fieldsToJson? hxs⟩
    · cases h

end

/-! ## Heights -/

theorem height_le_heightItems {items : List Raw} {raw : Raw} (h : raw ∈ items) :
    raw.height ≤ heightItems items := by
  induction items with
  | nil => cases h
  | cons x xs ih =>
    rcases List.mem_cons.1 h with rfl | h
    · exact Nat.le_max_left _ _
    · exact Nat.le_trans (ih h) (Nat.le_max_right _ _)

theorem height_le_heightFields {fields : List (Option String × Raw)} {key : Option String}
    {raw : Raw} (h : (key, raw) ∈ fields) : raw.height ≤ heightFields fields := by
  induction fields with
  | nil => cases h
  | cons entry rest ih =>
    rcases List.mem_cons.1 h with rfl | h
    · exact Nat.le_max_left _ _
    · exact Nat.le_trans (ih h) (Nat.le_max_right _ _)

theorem height_item_lt {items : List Json} {v : Json} (h : v ∈ items) :
    (ofJson v).height < (ofJson (.array items)).height := by
  have hmem : ofJson v ∈ ofItems items := by
    rw [ofItems_eq]
    exact List.mem_map_of_mem h
  exact Nat.lt_succ_of_le (height_le_heightItems hmem)

theorem height_field_lt {fields : Fields Json} {key : String} {v : Json} (h : (key, v) ∈ fields) :
    (ofJson v).height < (ofJson (.object fields)).height := by
  have hmem : (some key, ofJson v) ∈ ofFields fields := by
    rw [ofFields_eq]
    exact List.mem_map.2 ⟨(key, v), h, rfl⟩
  exact Nat.lt_succ_of_le (height_le_heightFields hmem)

end SchemaSynth.Raw
